import Mathlib.Data.Fintype.Basic
import PgBrakes.Ports.WireBuf
import PgBrakes.Verified.Base64

/-!
# The server side of SCRAM

A port of `crates/proxy/src/auth.rs`.  The hash, the keyed hash and the salted
hash are any functions; the Base64 engine is any pair of functions that invert
each other on what was encoded and write no comma.

The client signs its first message without the header, the server's challenge,
and its final message up to the proof.  The server does not keep that text: it
reads the two attributes `c` and `r` out of the final message and writes them
side by side again.  The two agree where there is nothing else in the message,
in this order.  An extension attribute, which a client may add, is signed by the
client and dropped by the server, so its proof is refused.

The attribute `c` repeats the header of the first message.  The server looks for
it and puts it into the text it checks, but compares it with nothing.

## Main results

* `followsRfc_iff` — the messages on which the server does what the protocol asks.
-/

namespace PgBrakes.Ports.Scram

open PgBrakes.Ports.Wire

/-! ## Outside code -/

/-- The characters of a message. -/
abbrev Text := List Char

/-- The 32 bytes of a hash. -/
abbrev Digest := Fin 32 → UInt8

/-- The bytes of a text. -/
def bytesOf (t : Text) : List UInt8 := utf8 (String.ofList t)

/-- The standard Base64 engine. -/
class Base64 where
  encode : List UInt8 → Text
  decode : Text → Option (List UInt8)

/-- What is relied on of it. -/
structure Base64.Lawful [Base64] : Prop where
  decode_encode : ∀ bs, Base64.decode (Base64.encode bs) = some bs
  comma_notMem : ∀ bs, ',' ∉ Base64.encode bs

/-- HMAC-SHA-256, SHA-256 of a key, and PBKDF2. -/
structure Crypto where
  hmac : List UInt8 → List UInt8 → Digest
  hash : Digest → Digest
  hi : List UInt8 → List UInt8 → Nat → Digest

def Digest.bytes (d : Digest) : List UInt8 := List.ofFn d

/-- The bytes of a digest one by one against those of another. -/
def Digest.xor (d e : Digest) : Digest := fun i => d i ^^^ e i

/-- The digest of exactly 32 bytes. -/
def Digest.ofBytes (bytes : List UInt8) : Option Digest :=
  if h : bytes.length = 32 then some fun i => bytes.get ⟨i.val, by omega⟩ else none

/-! ## The server -/

inductive ScramError where
  | malformed (reason : String)
  | unsupportedMechanism
  | nonceMismatch
  | badProof
  | base64
deriving DecidableEq

structure ScramVerifier where
  salt : List UInt8
  iterations : Nat
  storedKey : Digest
  serverKey : Digest

namespace ScramVerifier

/-- `from_password_with_salt`. -/
def fromPassword (crypto : Crypto) (password : Text) (salt : List UInt8) (iterations : Nat) :
    ScramVerifier :=
  let salted := crypto.hi (bytesOf password) salt iterations
  let clientKey := crypto.hmac salted.bytes (utf8 "Client Key")
  ⟨salt, iterations, crypto.hash clientKey, crypto.hmac salted.bytes (utf8 "Server Key")⟩

end ScramVerifier

structure ScramServer where
  verifier : ScramVerifier
  serverNonce : Text
  clientFirstBare : Option Text
  serverFirst : Option Text
  fullNonce : Option Text

/-- A server before its first message. -/
def ScramServer.withServerNonce (verifier : ScramVerifier) (serverNonce : Text) : ScramServer :=
  ⟨verifier, serverNonce, none, none, none⟩

/-- The text behind the second comma, of which some have been seen. -/
def stripFrom : Nat → Text → Except ScramError Text
  | _, [] => .error (.malformed "missing gs2 header")
  | commas, c :: cs =>
      if c = ',' then if commas + 1 = 2 then .ok cs else stripFrom (commas + 1) cs
      else stripFrom commas cs

def stripGs2Header (clientFirst : Text) : Except ScramError Text := stripFrom 0 clientFirst

/-- The part is an attribute of this name. -/
def isAttribute (key : Char) (part : Text) : Bool := [key, '='].isPrefixOf part

/-- The value of the first attribute of this name. -/
def field (msg : Text) (key : Char) : Option Text :=
  ((msg.splitOn ',').find? (isAttribute key)).map (·.drop 2)

section

variable [Base64]

/-- The challenge with a nonce. -/
def challenge (v : ScramVerifier) (fullNonce : Text) : Text :=
  "r=".toList ++ fullNonce ++ ",s=".toList ++ Base64.encode v.salt ++ ",i=".toList ++
    Nat.toDigits 10 v.iterations

/-- The server's answer to the first message, and the server after it. -/
def handleClientFirst (s : ScramServer) (clientFirst : Text) :
    Except ScramError Text × ScramServer :=
  match stripGs2Header clientFirst with
  | .error e => (.error e, s)
  | .ok bare =>
      match field bare 'r' with
      | none => (.error (.malformed "missing r="), s)
      | some clientNonce =>
          let fullNonce := clientNonce ++ s.serverNonce
          let serverFirst := challenge s.verifier fullNonce
          (.ok serverFirst,
            { s with clientFirstBare := some bare
                     serverFirst := some serverFirst
                     fullNonce := some fullNonce })

/-- What both sides sign. -/
def authMessage (clientFirstBare serverFirst clientFinalWithoutProof : Text) : Text :=
  clientFirstBare ++ ',' :: (serverFirst ++ ',' :: clientFinalWithoutProof)

/-- The final message up to the proof, as the server writes it. -/
def withoutProof (channelBinding nonce : Text) : Text :=
  "c=".toList ++ channelBinding ++ ",r=".toList ++ nonce

/-- The server's answer to the final message. -/
def handleClientFinal (crypto : Crypto) (s : ScramServer) (clientFinal : Text) :
    Except ScramError Text :=
  match s.clientFirstBare, s.serverFirst, s.fullNonce with
  | none, _, _ => .error (.malformed "client-final before client-first")
  | some _, none, _ => .error (.malformed "no server-first")
  | some _, some _, none => .error (.malformed "no nonce")
  | some clientFirstBare, some serverFirst, some expectedNonce =>
      match field clientFinal 'c' with
      | none => .error (.malformed "missing c=")
      | some channelBinding =>
          match field clientFinal 'r' with
          | none => .error (.malformed "missing r=")
          | some finalNonce =>
              match field clientFinal 'p' with
              | none => .error (.malformed "missing p=")
              | some proofB64 =>
                  if finalNonce ≠ expectedNonce then .error .nonceMismatch
                  else
                    let auth := bytesOf (authMessage clientFirstBare serverFirst
                      (withoutProof channelBinding finalNonce))
                    let clientSignature := crypto.hmac s.verifier.storedKey.bytes auth
                    match Base64.decode proofB64 with
                    | none => .error .base64
                    | some proofBytes =>
                        match Digest.ofBytes proofBytes with
                        | none => .error .badProof
                        | some proof =>
                            if crypto.hash (proof.xor clientSignature) ≠ s.verifier.storedKey then
                              .error .badProof
                            else
                              .ok ("v=".toList ++ Base64.encode
                                (crypto.hmac s.verifier.serverKey.bytes auth).bytes)

/-- Both messages of an exchange. -/
def exchange (crypto : Crypto) (v : ScramVerifier) (serverNonce clientFirst clientFinal : Text) :
    Except ScramError Text :=
  match handleClientFirst (.withServerNonce v serverNonce) clientFirst with
  | (.error e, _) => .error e
  | (.ok _, s) => handleClientFinal crypto s clientFinal

end

/-! ## What the protocol asks -/

/-- The header of a first message goes up to its second comma. -/
structure Gs2 (clientFirst header bare : Text) : Prop where
  whole : clientFirst = header ++ bare
  shape : ∃ flag authzid, ',' ∉ flag ∧ ',' ∉ authzid ∧ header = flag ++ ',' :: (authzid ++ [','])

/-- This much of the final message stands before its first `,p=`. -/
structure BeforeProof (clientFinal before : Text) : Prop where
  found : before ++ ",p=".toList <+: clientFinal
  first : ∀ other, other ++ ",p=".toList <+: clientFinal → before.length ≤ other.length

section

variable [Base64]

/-- What two messages present: the header and what follows it, the combined nonce,
the channel binding and a proof of the right length. -/
structure Presents (serverNonce clientFirst clientFinal header bare nonce channelBinding : Text)
    (proof : Digest) : Prop where
  gs2 : Gs2 clientFirst header bare
  combined : ∃ clientNonce, field bare 'r' = some clientNonce ∧
    nonce = clientNonce ++ serverNonce
  binding : field clientFinal 'c' = some channelBinding
  repeated : field clientFinal 'r' = some nonce
  proof : ∃ text bytes, field clientFinal 'p' = some text ∧ Base64.decode text = some bytes ∧
    Digest.ofBytes bytes = some proof

/-- The proof is for this text of the final message. -/
def ProofFor (crypto : Crypto) (v : ScramVerifier) (bare nonce before : Text) (proof : Digest) :
    Prop :=
  crypto.hash (proof.xor (crypto.hmac v.storedKey.bytes
    (bytesOf (authMessage bare (challenge v nonce) before)))) = v.storedKey

/-- The channel binding is the header, the nonce is the combined one, and the
proof is for the text before `,p=`. -/
def Verifies (crypto : Crypto) (v : ScramVerifier) (serverNonce clientFirst clientFinal : Text) :
    Prop :=
  ∃ header bare nonce channelBinding before proof,
    Presents serverNonce clientFirst clientFinal header bare nonce channelBinding proof ∧
      Base64.decode channelBinding = some (bytesOf header) ∧
      BeforeProof clientFinal before ∧ ProofFor crypto v bare nonce before proof

/-- Attributes behind others. -/
def appended (attributes : List Text) : Text := attributes.flatMap (',' :: ·)

/-- What an honest client chooses.  No attribute has a comma in it, and the proof
is the only one of its name. -/
structure HonestClient where
  flag : Text
  authzid : Text
  user : Text
  clientNonce : Text
  firstExtensions : List Text
  finalExtensions : List Text
  comma_notMem : ∀ part ∈ [flag, authzid, user, clientNonce] ++ firstExtensions ++ finalExtensions,
    ',' ∉ part
  no_proof : ∀ part ∈ finalExtensions, isAttribute 'p' part = false

namespace HonestClient

def header (h : HonestClient) : Text := h.flag ++ ',' :: (h.authzid ++ [','])

def bare (h : HonestClient) : Text :=
  "n=".toList ++ h.user ++ ",r=".toList ++ h.clientNonce ++ appended h.firstExtensions

def clientFirst (h : HonestClient) : Text := h.header ++ h.bare

/-- The final message up to the proof, with the extensions. -/
def signed (h : HonestClient) (serverNonce : Text) : Text :=
  withoutProof (Base64.encode (bytesOf h.header)) (h.clientNonce ++ serverNonce) ++
    appended h.finalExtensions

/-- The proof of a client that knows the password. -/
def proof (h : HonestClient) (crypto : Crypto) (password : Text) (salt : List UInt8)
    (iterations : Nat) (serverNonce : Text) : Digest :=
  let v := ScramVerifier.fromPassword crypto password salt iterations
  let salted := crypto.hi (bytesOf password) salt iterations
  Digest.xor (crypto.hmac salted.bytes (utf8 "Client Key"))
    (crypto.hmac v.storedKey.bytes (bytesOf (authMessage h.bare
      (challenge v (h.clientNonce ++ serverNonce)) (h.signed serverNonce))))

def clientFinal (h : HonestClient) (crypto : Crypto) (password : Text) (salt : List UInt8)
    (iterations : Nat) (serverNonce : Text) : Text :=
  h.signed serverNonce ++ ",p=".toList ++
    Base64.encode (h.proof crypto password salt iterations serverNonce).bytes

end HonestClient

/-- On these two messages the server accepts only what verifies, and it accepts
them from an honest client, whatever the hashes and the keys are. -/
structure FollowsRfc (serverNonce clientFirst clientFinal : Text) : Prop where
  sound : ∀ crypto v answer, exchange crypto v serverNonce clientFirst clientFinal = .ok answer →
    Verifies crypto v serverNonce clientFirst clientFinal
  complete : ∀ crypto password salt iterations (h : HonestClient),
    clientFirst = h.clientFirst →
      clientFinal = h.clientFinal crypto password salt iterations serverNonce →
        ∃ answer, exchange crypto (.fromPassword crypto password salt iterations) serverNonce
          clientFirst clientFinal = .ok answer

/-- The channel binding is the header, and nothing but it and the nonce stands
before the proof. -/
def Regular (clientFinal header nonce channelBinding : Text) : Prop :=
  Base64.decode channelBinding = some (bytesOf header) ∧
    withoutProof channelBinding nonce ++ ",p=".toList <+: clientFinal

end

/-! ## Texts and digests -/

theorem bytesOf_injective : Function.Injective bytesOf := by
  intro a b h
  have hread := congrArg fromUtf8 h
  rw [bytesOf, bytesOf, fromUtf8_utf8, fromUtf8_utf8] at hread
  exact String.ofList_injective (Option.some.inj hread)

theorem Digest.ofBytes_bytes (d : Digest) : Digest.ofBytes d.bytes = some d := by
  have hlength : d.bytes.length = 32 := List.length_ofFn
  rw [Digest.ofBytes, dif_pos hlength]
  congr 1
  funext i
  exact List.get_ofFn d _

/-- Signing a digest twice gives it back. -/
theorem Digest.xor_cancel (d e : Digest) : (d.xor e).xor e = d := by
  funext i
  simp only [Digest.xor, UInt8.xor_assoc, UInt8.xor_self, UInt8.xor_zero]

theorem Digest.xor_zero (d : Digest) : d.xor (fun _ => 0) = d := by
  funext i
  exact UInt8.xor_zero

theorem Digest.xor_one_ne (d : Digest) : d.xor (fun _ => 1) ≠ d := by
  intro h
  have hone : d 0 ^^^ 1 = d 0 := congrFun h 0
  have hcancel : d 0 ^^^ (d 0 ^^^ 1) = d 0 ^^^ d 0 := congrArg (d 0 ^^^ ·) hone
  rw [← UInt8.xor_assoc, UInt8.xor_self, UInt8.zero_xor] at hcancel
  exact absurd hcancel (by decide)

/-! ## The header -/

theorem stripFrom_append {b : Text} (n : Nat) : ∀ {a : Text}, ',' ∉ a →
    stripFrom n (a ++ ',' :: b) = if n + 1 = 2 then .ok b else stripFrom (n + 1) b := by
  intro a
  induction a with
  | nil =>
      intro _
      rw [List.nil_append, stripFrom, if_pos rfl]
  | cons c a ih =>
      intro h
      rw [List.mem_cons, not_or] at h
      rw [List.cons_append, stripFrom, if_neg (Ne.symm h.1), ih h.2]

theorem stripFrom_of_notMem (n : Nat) : ∀ {cs : Text}, ',' ∉ cs →
    stripFrom n cs = .error (.malformed "missing gs2 header") := by
  intro cs
  induction cs with
  | nil =>
      intro _
      rfl
  | cons c cs ih =>
      intro h
      rw [List.mem_cons, not_or] at h
      rw [stripFrom, if_neg (Ne.symm h.1), ih h.2]

/-- What is kept of a first message is what stands behind its header. -/
theorem stripGs2Header_ok_iff {clientFirst bare : Text} :
    stripGs2Header clientFirst = .ok bare ↔ ∃ header, Gs2 clientFirst header bare := by
  constructor
  · intro h
    by_cases hone : ',' ∈ clientFirst
    swap
    · rw [stripGs2Header, stripFrom_of_notMem 0 hone] at h
      cases h
    obtain ⟨flag, more, rfl, hflag⟩ := List.eq_append_cons_of_mem hone
    rw [stripGs2Header, stripFrom_append 0 hflag, if_neg (by decide)] at h
    by_cases htwo : ',' ∈ more
    swap
    · rw [stripFrom_of_notMem 1 htwo] at h
      cases h
    obtain ⟨authzid, rest, rfl, hauthzid⟩ := List.eq_append_cons_of_mem htwo
    rw [stripFrom_append 1 hauthzid, if_pos rfl] at h
    cases h
    exact ⟨flag ++ ',' :: (authzid ++ [',']), by simp, flag, authzid, hflag, hauthzid, rfl⟩
  · rintro ⟨header, rfl, flag, authzid, hflag, hauthzid, rfl⟩
    have hshape : flag ++ ',' :: (authzid ++ [',']) ++ bare =
        flag ++ ',' :: (authzid ++ ',' :: bare) := by simp
    rw [stripGs2Header, hshape, stripFrom_append 0 hflag, if_neg (by decide),
      stripFrom_append 1 hauthzid, if_pos rfl]

theorem Gs2.unique {clientFirst header header' bare : Text} (h : Gs2 clientFirst header bare)
    (h' : Gs2 clientFirst header' bare) : header = header' :=
  List.append_cancel_right (h.whole.symm.trans h'.whole)

/-! ## Attributes -/

/-- The parts of a message put together with commas. -/
theorem splitOn_appended : ∀ {parts : List Text} {part : Text},
    (∀ p ∈ part :: parts, ',' ∉ p) → (part ++ appended parts).splitOn ',' = part :: parts := by
  intro parts
  induction parts with
  | nil =>
      intro part h
      rw [appended, List.flatMap_nil, List.append_nil]
      exact List.splitOn_eq_singleton (h part List.mem_cons_self)
  | cons next parts ih =>
      intro part h
      have hrest := ih fun p hp => h p (List.mem_cons_of_mem part hp)
      have hshape : part ++ appended (next :: parts) =
          part ++ ',' :: (next ++ appended parts) := by
        rw [appended, List.flatMap_cons]
        rfl
      rw [hshape, List.splitOn_append_cons_self_of_not_mem (h part List.mem_cons_self), hrest]

theorem field_appended {part : Text} {parts : List Text} (h : ∀ p ∈ part :: parts, ',' ∉ p)
    (key : Char) : field (part ++ appended parts) key =
      ((part :: parts).find? (isAttribute key)).map (·.drop 2) := by
  rw [field, splitOn_appended h]

theorem isAttribute_self (key : Char) (value : Text) :
    isAttribute key (key :: '=' :: value) = true := by
  simp [isAttribute]

theorem isAttribute_ne {key other : Char} (h : key ≠ other) (value : Text) :
    isAttribute key (other :: '=' :: value) = false := by
  rw [isAttribute, List.isPrefixOf_cons_cons, beq_eq_false_iff_ne.mpr h, Bool.false_and]

/-- The values of attributes have no comma. -/
theorem comma_notMem_of_mem_splitOn : ∀ {cs part : Text}, part ∈ cs.splitOn ',' → ',' ∉ part := by
  intro cs
  induction hn : cs.length using Nat.strong_induction_on generalizing cs with
  | _ n ih =>
      intro part h
      by_cases hcomma : ',' ∈ cs
      · obtain ⟨a, b, rfl, ha⟩ := List.eq_append_cons_of_mem hcomma
        rw [List.splitOn_append_cons_self_of_not_mem ha, List.mem_cons] at h
        rcases h with rfl | h
        · exact ha
        · refine ih b.length ?_ rfl h
          rw [← hn, List.length_append, List.length_cons]
          omega
      · rw [List.splitOn_eq_singleton hcomma, List.mem_singleton] at h
        rw [h]
        exact hcomma

theorem comma_notMem_field {msg value : Text} {key : Char} (h : field msg key = some value) :
    ',' ∉ value := by
  obtain ⟨part, hfind, rfl⟩ := Option.map_eq_some_iff.mp h
  have hpart := comma_notMem_of_mem_splitOn (List.mem_of_find?_eq_some hfind)
  exact fun hmem => hpart (List.mem_of_mem_drop hmem)

/-! ## The text in front of the proof -/

/-- Where a message goes on with `,p=` behind two attributes without a comma, this
is the first place. -/
theorem beforeProof_withoutProof {clientFinal channelBinding nonce : Text}
    (hbinding : ',' ∉ channelBinding) (hnonce : ',' ∉ nonce)
    (h : withoutProof channelBinding nonce ++ ",p=".toList <+: clientFinal) :
    BeforeProof clientFinal (withoutProof channelBinding nonce) := by
  refine ⟨h, fun other hother => ?_⟩
  by_contra hshort
  rw [Nat.not_le] at hshort
  have hcomma : other ++ [','] <+: other ++ ",p=".toList := ⟨"p=".toList, by simp⟩
  have hin : other ++ [','] <+: withoutProof channelBinding nonce := by
    refine List.prefix_of_prefix_length_le (hcomma.trans hother)
      ((List.prefix_append _ _).trans h) ?_
    rw [List.length_append]
    exact hshort
  -- The only comma of the two attributes is the one in front of `r=`.
  obtain ⟨more, hmore⟩ := hin
  have hsplit : "c=".toList ++ channelBinding ++ ',' :: ("r=".toList ++ nonce) =
      other ++ ',' :: more := by
    have hmore' : other ++ ',' :: more = withoutProof channelBinding nonce := by
      rw [← hmore]
      simp
    rw [hmore']
    simp [withoutProof]
  obtain ⟨rfl, -, rfl⟩ :=
    (List.append_cons_inj_of_notMem (by simp [hbinding]) (by simp [hnonce])).mp hsplit
  have hboth := List.prefix_of_prefix_length_le hother h (by simp [withoutProof])
  simp [withoutProof] at hboth

/-! ## One exchange -/

section

variable [Base64] {crypto : Crypto} {v : ScramVerifier} {serverNonce clientFirst clientFinal : Text}

/-- A first message with a header and a nonce is answered with the challenge, and
both texts are kept. -/
theorem handleClientFirst_ok {header bare clientNonce : Text}
    (hgs2 : Gs2 clientFirst header bare) (hnonce : field bare 'r' = some clientNonce) :
    handleClientFirst (.withServerNonce v serverNonce) clientFirst =
      (.ok (challenge v (clientNonce ++ serverNonce)),
        ⟨v, serverNonce, some bare, some (challenge v (clientNonce ++ serverNonce)),
          some (clientNonce ++ serverNonce)⟩) := by
  rw [handleClientFirst, stripGs2Header_ok_iff.mpr ⟨header, hgs2⟩]
  dsimp only
  rw [hnonce]
  rfl

theorem handleClientFirst_inv {answer : Text} {s : ScramServer}
    (h : handleClientFirst (.withServerNonce v serverNonce) clientFirst = (.ok answer, s)) :
    ∃ header bare clientNonce, Gs2 clientFirst header bare ∧ field bare 'r' = some clientNonce := by
  unfold handleClientFirst at h
  split at h
  · cases h
  · next bare hbare =>
      obtain ⟨header, hgs2⟩ := stripGs2Header_ok_iff.mp hbare
      split at h
      · cases h
      · next clientNonce hnonce => exact ⟨header, bare, clientNonce, hgs2, hnonce⟩

/-- The final message is accepted when it presents a proof for the text the server
has written. -/
theorem handleClientFinal_ok {bare serverFirst nonce channelBinding proofText : Text}
    {proofBytes : List UInt8} {proof : Digest} {s : ScramServer}
    (hs : s = ⟨v, serverNonce, some bare, some serverFirst, some nonce⟩)
    (hbinding : field clientFinal 'c' = some channelBinding)
    (hrepeated : field clientFinal 'r' = some nonce)
    (htext : field clientFinal 'p' = some proofText)
    (hbytes : Base64.decode proofText = some proofBytes)
    (hproof : Digest.ofBytes proofBytes = some proof)
    (hfor : crypto.hash (proof.xor (crypto.hmac v.storedKey.bytes
      (bytesOf (authMessage bare serverFirst (withoutProof channelBinding nonce))))) =
        v.storedKey) :
    ∃ answer, handleClientFinal crypto s clientFinal = .ok answer := by
  subst hs
  simp only [handleClientFinal, hbinding, hrepeated, htext, hbytes, hproof, hfor, ne_eq,
    not_true_eq_false, if_false]
  exact ⟨_, rfl⟩

theorem handleClientFinal_inv {bare serverFirst nonce answer : Text} {s : ScramServer}
    (hs : s = ⟨v, serverNonce, some bare, some serverFirst, some nonce⟩)
    (h : handleClientFinal crypto s clientFinal = .ok answer) :
    ∃ channelBinding proofText proofBytes proof,
      field clientFinal 'c' = some channelBinding ∧ field clientFinal 'r' = some nonce ∧
        field clientFinal 'p' = some proofText ∧ Base64.decode proofText = some proofBytes ∧
        Digest.ofBytes proofBytes = some proof ∧
        crypto.hash (proof.xor (crypto.hmac v.storedKey.bytes
          (bytesOf (authMessage bare serverFirst (withoutProof channelBinding nonce))))) =
            v.storedKey := by
  subst hs
  simp only [handleClientFinal] at h
  split at h
  · cases h
  next channelBinding hbinding =>
  split at h
  · cases h
  next finalNonce hfinal =>
  split at h
  · cases h
  next proofText htext =>
  split at h
  · cases h
  next hnonce =>
  rw [not_not] at hnonce
  subst hnonce
  split at h
  · cases h
  next proofBytes hbytes =>
  split at h
  · cases h
  next proof hproof =>
  split at h
  · cases h
  next hfor =>
  rw [not_not] at hfor
  exact ⟨channelBinding, proofText, proofBytes, proof, hbinding, hfinal, htext, hbytes, hproof,
    hfor⟩

/-- What the server accepts: messages that present a proof for the two attributes
it has read, written side by side. -/
theorem exchange_ok_iff :
    (∃ answer, exchange crypto v serverNonce clientFirst clientFinal = .ok answer) ↔
      ∃ header bare nonce channelBinding proof,
        Presents serverNonce clientFirst clientFinal header bare nonce channelBinding proof ∧
          ProofFor crypto v bare nonce (withoutProof channelBinding nonce) proof := by
  constructor
  · rintro ⟨answer, h⟩
    unfold exchange at h
    split at h
    · cases h
    next _ s hfirst =>
    obtain ⟨header, bare, clientNonce, hgs2, hnonce⟩ := handleClientFirst_inv hfirst
    rw [handleClientFirst_ok hgs2 hnonce] at hfirst
    obtain ⟨channelBinding, proofText, proofBytes, proof, hbinding, hrepeated, htext, hbytes,
      hproof, hfor⟩ := handleClientFinal_inv (congrArg Prod.snd hfirst).symm h
    exact ⟨header, bare, clientNonce ++ serverNonce, channelBinding, proof,
      ⟨hgs2, ⟨clientNonce, hnonce, rfl⟩, hbinding, hrepeated,
        ⟨proofText, proofBytes, htext, hbytes, hproof⟩⟩, hfor⟩
  · rintro ⟨header, bare, _, channelBinding, proof,
      ⟨hgs2, ⟨clientNonce, hnonce, rfl⟩, hbinding, hrepeated,
        ⟨proofText, proofBytes, htext, hbytes, hproof⟩⟩, hfor⟩
    unfold exchange
    rw [handleClientFirst_ok hgs2 hnonce]
    exact handleClientFinal_ok rfl hbinding hrepeated htext hbytes hproof hfor

/-! ## Only one reading -/

theorem Presents.unique {header bare nonce channelBinding : Text} {proof : Digest}
    {header' bare' nonce' channelBinding' : Text} {proof' : Digest}
    (h : Presents serverNonce clientFirst clientFinal header bare nonce channelBinding proof)
    (h' : Presents serverNonce clientFirst clientFinal header' bare' nonce' channelBinding'
      proof') :
    header = header' ∧ bare = bare' ∧ nonce = nonce' ∧ channelBinding = channelBinding' ∧
      proof = proof' := by
  have hbare : bare = bare' := by
    have hstrip := stripGs2Header_ok_iff.mpr ⟨header, h.gs2⟩
    rw [stripGs2Header_ok_iff.mpr ⟨header', h'.gs2⟩] at hstrip
    exact (Except.ok.inj hstrip).symm
  subst hbare
  obtain ⟨text, bytes, htext, hbytes, hproof⟩ := h.proof
  obtain ⟨text', bytes', htext', hbytes', hproof'⟩ := h'.proof
  have hrepeated := h.repeated
  have hbinding := h.binding
  rw [h'.repeated] at hrepeated
  rw [h'.binding] at hbinding
  rw [htext] at htext'
  cases htext'
  rw [hbytes] at hbytes'
  cases hbytes'
  rw [hproof] at hproof'
  exact ⟨h.gs2.unique h'.gs2, rfl, (Option.some.inj hrepeated).symm,
    (Option.some.inj hbinding).symm, Option.some.inj hproof'⟩

/-! ## The server checks one text only -/

/-- Hashes that tell one text and one key from all others. -/
def telling (auth : List UInt8) (key : Digest) : Crypto where
  hmac _ data := if data = auth then fun _ => 0 else fun _ => 1
  hash d := if d = key then fun _ => 0 else fun _ => 1
  hi _ _ _ := fun _ => 0

def zeroKeys : ScramVerifier := ⟨[], 0, fun _ => 0, fun _ => 0⟩

/-- With these hashes a proof is for the one text. -/
theorem proofFor_telling_iff {bare nonce before before' : Text} {proof : Digest} :
    ProofFor (telling (bytesOf (authMessage bare (challenge zeroKeys nonce) before)) proof)
      zeroKeys bare nonce before' proof ↔ before' = before := by
  have hzero : (fun _ => 0 : Digest) ≠ fun _ => 1 := fun h => absurd (congrFun h 0) (by decide)
  unfold ProofFor
  constructor
  · intro h
    by_contra hne
    have hdata : bytesOf (authMessage bare (challenge zeroKeys nonce) before') ≠
        bytesOf (authMessage bare (challenge zeroKeys nonce) before) := by
      intro heq
      have htext := bytesOf_injective heq
      simp only [authMessage, List.append_cancel_left_eq, List.cons.injEq, true_and] at htext
      exact hne htext
    simp only [telling, if_neg hdata, if_neg (Digest.xor_one_ne proof)] at h
    exact hzero h.symm
  · rintro rfl
    simp only [telling, if_true, Digest.xor_zero]
    rfl

/-- A sound server has the header in the attribute `c` and nothing but `c` and `r`
in front of the proof. -/
theorem regular_of_sound
    (hsound : ∀ crypto v answer,
      exchange crypto v serverNonce clientFirst clientFinal = .ok answer →
        Verifies crypto v serverNonce clientFirst clientFinal)
    {header bare nonce channelBinding : Text} {proof : Digest}
    (h : Presents serverNonce clientFirst clientFinal header bare nonce channelBinding proof) :
    Regular clientFinal header nonce channelBinding := by
  obtain ⟨answer, haccepted⟩ := exchange_ok_iff.mpr
    ⟨header, bare, nonce, channelBinding, proof, h, proofFor_telling_iff.mpr rfl⟩
  obtain ⟨header', bare', nonce', channelBinding', before, proof', h', hdecode, hbefore, hfor⟩ :=
    hsound _ _ _ haccepted
  obtain ⟨rfl, rfl, rfl, rfl, rfl⟩ := h.unique h'
  have htext := proofFor_telling_iff.mp hfor
  subst htext
  exact ⟨hdecode, hbefore.found⟩

theorem sound_of_regular
    (hregular : ∀ header bare nonce channelBinding proof,
      Presents serverNonce clientFirst clientFinal header bare nonce channelBinding proof →
        Regular clientFinal header nonce channelBinding)
    {answer : Text} (h : exchange crypto v serverNonce clientFirst clientFinal = .ok answer) :
    Verifies crypto v serverNonce clientFirst clientFinal := by
  obtain ⟨header, bare, nonce, channelBinding, proof, hpresents, hfor⟩ :=
    exchange_ok_iff.mp ⟨answer, h⟩
  obtain ⟨hdecode, hfront⟩ := hregular _ _ _ _ _ hpresents
  have hbefore := beforeProof_withoutProof (comma_notMem_field hpresents.binding)
    (comma_notMem_field hpresents.repeated) hfront
  exact ⟨header, bare, nonce, channelBinding, _, proof, hpresents, hdecode, hbefore, hfor⟩

/-! ## The honest client -/

namespace HonestClient

variable {h : HonestClient} {password : Text} {salt : List UInt8} {iterations : Nat}

omit [Base64] in
theorem gs2 (h : HonestClient) : Gs2 h.clientFirst h.header h.bare :=
  ⟨rfl, h.flag, h.authzid, h.comma_notMem _ (by simp), h.comma_notMem _ (by simp), rfl⟩

omit [Base64] in
theorem bare_eq (h : HonestClient) : h.bare =
    ('n' :: '=' :: h.user) ++ appended (('r' :: '=' :: h.clientNonce) :: h.firstExtensions) := by
  simp [bare, appended]

omit [Base64] in
theorem field_bare (h : HonestClient) : field h.bare 'r' = some h.clientNonce := by
  have hcomma : ∀ part ∈ ('n' :: '=' :: h.user) :: ('r' :: '=' :: h.clientNonce) ::
      h.firstExtensions, ',' ∉ part := by
    have huser : ',' ∉ h.user := h.comma_notMem _ (by simp)
    have hnonce : ',' ∉ h.clientNonce := h.comma_notMem _ (by simp)
    have hextensions : ∀ part ∈ h.firstExtensions, ',' ∉ part := fun part hpart =>
      h.comma_notMem part (by simp [hpart])
    simpa [huser, hnonce] using hextensions
  rw [bare_eq, field_appended hcomma, List.find?_cons, isAttribute_ne (by decide),
    List.find?_cons, isAttribute_self]
  rfl

/-- The attributes of the final message, one behind the other. -/
theorem clientFinal_eq (h : HonestClient) (crypto : Crypto) (password : Text) (salt : List UInt8)
    (iterations : Nat) (serverNonce : Text) :
    h.clientFinal crypto password salt iterations serverNonce =
      ('c' :: '=' :: Base64.encode (bytesOf h.header)) ++
        appended (('r' :: '=' :: (h.clientNonce ++ serverNonce)) ::
          (h.finalExtensions ++
            ['p' :: '=' :: Base64.encode
              (h.proof crypto password salt iterations serverNonce).bytes])) := by
  simp [clientFinal, signed, withoutProof, appended]

/-- What an honest client sends presents its own proof. -/
theorem presents (hlawful : Base64.Lawful) (h : HonestClient) (hserver : ',' ∉ serverNonce)
    (crypto : Crypto) (password : Text) (salt : List UInt8) (iterations : Nat) :
    Presents serverNonce h.clientFirst (h.clientFinal crypto password salt iterations serverNonce)
      h.header h.bare (h.clientNonce ++ serverNonce) (Base64.encode (bytesOf h.header))
      (h.proof crypto password salt iterations serverNonce) := by
  have hnonce : ',' ∉ h.clientNonce := h.comma_notMem _ (by simp)
  have hextensions : ∀ part ∈ h.finalExtensions, ',' ∉ part := fun part hpart =>
    h.comma_notMem part (by simp [hpart])
  have hcomma : ∀ part ∈ ('c' :: '=' :: Base64.encode (bytesOf h.header)) ::
      ('r' :: '=' :: (h.clientNonce ++ serverNonce)) :: (h.finalExtensions ++
        ['p' :: '=' :: Base64.encode (h.proof crypto password salt iterations serverNonce).bytes]),
      ',' ∉ part := by
    intro part hpart
    simp only [List.mem_cons, List.mem_append, List.not_mem_nil, or_false] at hpart
    rcases hpart with rfl | rfl | hpart | rfl
    · simp [hlawful.comma_notMem]
    · simp [hnonce, hserver]
    · exact hextensions part hpart
    · simp [hlawful.comma_notMem]
  have hnone : h.finalExtensions.find? (isAttribute 'p') = none :=
    List.find?_eq_none.mpr fun part hpart => by simp [h.no_proof part hpart]
  constructor
  · exact h.gs2
  · exact ⟨h.clientNonce, h.field_bare, rfl⟩
  · rw [clientFinal_eq, field_appended hcomma, List.find?_cons, isAttribute_self]
    rfl
  · rw [clientFinal_eq, field_appended hcomma, List.find?_cons, isAttribute_ne (by decide),
      List.find?_cons, isAttribute_self]
    rfl
  · refine ⟨_, _, ?_, hlawful.decode_encode _, Digest.ofBytes_bytes _⟩
    rw [clientFinal_eq, field_appended hcomma, List.find?_cons, isAttribute_ne (by decide),
      List.find?_cons, isAttribute_ne (by decide), List.find?_append, hnone, List.find?_cons,
      isAttribute_self]
    rfl

/-- The key comes out of a proof for the text that was signed. -/
theorem proofFor (h : HonestClient) (crypto : Crypto) (password : Text) (salt : List UInt8)
    (iterations : Nat) (serverNonce : Text) :
    ProofFor crypto (.fromPassword crypto password salt iterations) h.bare
      (h.clientNonce ++ serverNonce) (h.signed serverNonce)
      (h.proof crypto password salt iterations serverNonce) := by
  rw [ProofFor, HonestClient.proof, Digest.xor_cancel]
  rfl

/-- In front of the proof of a regular message there is no extension. -/
theorem signed_of_regular
    (hregular : Regular (h.clientFinal crypto password salt iterations serverNonce) h.header
      (h.clientNonce ++ serverNonce) (Base64.encode (bytesOf h.header))) :
    h.signed serverNonce =
      withoutProof (Base64.encode (bytesOf h.header)) (h.clientNonce ++ serverNonce) := by
  have hprefix := hregular.2
  rw [clientFinal, signed, List.append_assoc, List.append_assoc,
    List.prefix_append_right_inj] at hprefix
  cases hextensions : h.finalExtensions with
  | nil => simp [signed, hextensions, appended]
  | cons part parts =>
      rw [hextensions, appended, List.flatMap_cons] at hprefix
      have hpart := h.no_proof part (by simp [hextensions])
      -- The first extension would have to begin with `p=`.
      rcases part with _ | ⟨a, _ | ⟨b, part⟩⟩
      · cases parts with
        | nil => simp at hprefix
        | cons next parts => simp at hprefix
      · cases parts with
        | nil => simp at hprefix
        | cons next parts => simp at hprefix
      · simp only [List.cons_append, List.cons_prefix_cons, String.reduceToList, true_and]
          at hprefix
        obtain ⟨rfl, rfl, -⟩ := hprefix
        rw [isAttribute_self] at hpart
        cases hpart

end HonestClient

/-- The server follows the protocol exactly on the messages it refuses before it
looks at the proof, and on those whose channel binding is the header and whose
text in front of the proof is the two attributes. -/
theorem followsRfc_iff (hlawful : Base64.Lawful) (nonceBytes : List UInt8)
    (clientFirst clientFinal : Text) :
    FollowsRfc (Base64.encode nonceBytes) clientFirst clientFinal ↔
      ∀ header bare nonce channelBinding proof,
        Presents (Base64.encode nonceBytes) clientFirst clientFinal header bare nonce
            channelBinding proof →
          Regular clientFinal header nonce channelBinding := by
  constructor
  · intro hfollows header bare nonce channelBinding proof hpresents
    exact regular_of_sound hfollows.sound hpresents
  · intro hregular
    refine ⟨fun crypto v answer => sound_of_regular hregular, ?_⟩
    rintro crypto password salt iterations h rfl rfl
    have hpresents := h.presents hlawful (hlawful.comma_notMem nonceBytes) crypto password salt
      iterations
    have hfor := h.proofFor crypto password salt iterations (Base64.encode nonceBytes)
    rw [HonestClient.signed_of_regular (hregular _ _ _ _ _ hpresents)] at hfor
    exact exchange_ok_iff.mpr ⟨_, _, _, _, _, hpresents, hfor⟩

end

/-! ## Three exchanges -/

@[reducible] def Base64.standard : Base64 where
  encode := PgBrakes.Verified.Base64.encode
  decode := PgBrakes.Verified.Base64.decode

theorem lawful_standard : @Base64.Lawful Base64.standard :=
  letI := Base64.standard
  ⟨PgBrakes.Verified.Base64.decode_encode, PgBrakes.Verified.Base64.comma_notMem_encode⟩

/-- Keyed hashes that tell the length of a text only. -/
def lengths : Crypto where
  hmac _ data := fun _ => .ofNat data.length
  hash d := d
  hi _ _ _ := fun _ => 0

def agentFirst : Text := "n,,n=agent,r=abc".toList

/-- The proof is 32 zero bytes. -/
def zeroProof : Text := List.replicate 43 'A' ++ ['=']

/-- The header, the combined nonce and a proof. -/
def agentFinal : Text := "c=biws,r=abcAQID,p=".toList ++ zeroProof

/-- The same with another channel binding. -/
def unboundFinal : Text := "c=AAAA,r=abcAQID,p=".toList ++ zeroProof

theorem gs2_agentFirst : Gs2 agentFirst "n,,".toList "n=agent,r=abc".toList :=
  ⟨by decide, ['n'], [], by decide, by decide, by decide⟩

/-- What the two attributes are in a message to this first one. -/
theorem presents_agentFirst [Base64]
    {serverNonce clientFinal header bare nonce channelBinding : Text} {proof : Digest}
    (h : Presents serverNonce agentFirst clientFinal header bare nonce channelBinding proof) :
    header = "n,,".toList := by
  have hbare : bare = "n=agent,r=abc".toList := by
    have hstrip := stripGs2Header_ok_iff.mpr ⟨header, h.gs2⟩
    rw [stripGs2Header_ok_iff.mpr ⟨_, gs2_agentFirst⟩] at hstrip
    exact (Except.ok.inj hstrip).symm
  subst hbare
  exact h.gs2.unique gs2_agentFirst

theorem followsRfc_iff_agent :
    letI := Base64.standard
    FollowsRfc (Base64.encode [1, 2, 3]) agentFirst agentFinal := by
  let _ := Base64.standard
  refine (followsRfc_iff lawful_standard [1, 2, 3] agentFirst agentFinal).mpr ?_
  intro header bare nonce channelBinding proof h
  have hbinding : channelBinding = "biws".toList :=
    Option.some.inj (h.binding.symm.trans (by decide))
  have hnonce : nonce = "abcAQID".toList :=
    Option.some.inj (h.repeated.symm.trans (by decide))
  rw [presents_agentFirst h, hbinding, hnonce]
  exact ⟨by decide, by decide⟩

/-- A verifier whose key is the length of what the server checks of
`unboundFinal`. -/
def fiftyKeys : ScramVerifier := ⟨[], 4096, fun _ => 50, fun _ => 0⟩

/-- A client that adds an extension to its final message. -/
def extending : HonestClient where
  flag := ['n']
  authzid := []
  user := "agent".toList
  clientNonce := "abc".toList
  firstExtensions := []
  finalExtensions := ["x=1".toList]
  comma_notMem := by decide
  no_proof := by decide

/-- A channel binding that is not the header is accepted, and an honest client
with an extension is refused. -/
theorem unbound_accepted_and_extension_refused :
    letI := Base64.standard
    (∃ answer, exchange lengths fiftyKeys (Base64.encode [1, 2, 3]) agentFirst unboundFinal =
        .ok answer) ∧
      ¬ Verifies lengths fiftyKeys (Base64.encode [1, 2, 3]) agentFirst unboundFinal ∧
      exchange lengths (.fromPassword lengths "pw".toList [] 4096) (Base64.encode [1, 2, 3])
          extending.clientFirst
          (extending.clientFinal lengths "pw".toList [] 4096 (Base64.encode [1, 2, 3])) =
        .error .badProof := by
  let _ := Base64.standard
  refine ⟨⟨_, rfl⟩, ?_, by decide +kernel⟩
  rintro ⟨header, bare, nonce, channelBinding, before, proof, h, hdecode, -⟩
  have hbinding : channelBinding = "AAAA".toList :=
    Option.some.inj (h.binding.symm.trans (by decide))
  rw [presents_agentFirst h, hbinding] at hdecode
  exact absurd hdecode (by decide)

end PgBrakes.Ports.Scram
