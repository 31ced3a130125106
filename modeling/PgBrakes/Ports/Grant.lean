import Mathlib.Data.Finset.Insert
import PgBrakes.Verified.Effect
import PgBrakes.Ports.GuardedApply

/-!
# The signed, single-use grant

A port of `crates/policy/src/grant.rs`.  A grant is a record of bound fields and
a signature over the hash of their byte stream.  Verifying it at apply time
checks the signature, compares the live fields with the signed ones through
their hashes, reads the clock, and consumes the nonce last.

Ed25519 comes from a third-party crate and enters as the class `Ed25519`, three
arbitrary functions.

## Main results

* `encode_injective` — the byte stream determines every field.
* `verifyForApply_ok` — what an accepted grant has passed, and what
  accepting it changed.
* `verifyForApply_error` — a rejected grant leaves the nonces alone.
-/

namespace PgBrakes.Ports.Grant

open PgBrakes.Verified.Effect
open PgBrakes.Verified.SelfDelimiting
open PgBrakes.Ports.KeyChecksum
open PgBrakes.Ports.BlastRecord
open PgBrakes.Ports.GuardedApply

/-- The exact fields a grant's signature binds. -/
structure GrantBinding where
  statementText : String
  normalizedParams : List String
  role : String
  sessionId : String
  proposalId : String
  dryRunLsn : String
  cap : WriteCap
  nonce : String
  expiryUnixMillis : Nat
deriving DecidableEq

namespace GrantBinding

def bindingDomain : List UInt8 := utf8 "pg_brakes.grant.binding.v2"

/-- `absorb_str`: the length in eight big-endian bytes, then the bytes. -/
def absorbStr (s : String) : List UInt8 := beBytes 8 (utf8 s).length ++ utf8 s

/-- A `u64` in eight big-endian bytes. -/
def absorbU64 (n : Nat) : List UInt8 := beBytes 8 n

/-- The byte stream fed to the hash. -/
def encode (b : GrantBinding) : List UInt8 :=
  bindingDomain ++ absorbStr b.statementText ++
    (absorbU64 b.normalizedParams.length ++ b.normalizedParams.flatMap absorbStr) ++
    absorbStr b.role ++ absorbStr b.sessionId ++ absorbStr b.proposalId ++
    absorbStr b.dryRunLsn ++ absorbU64 b.cap.maxRows ++ absorbU64 b.cap.maxWalBytes ++
    absorbStr b.nonce ++ absorbU64 b.expiryUnixMillis

def bindingHash [Sha256] (b : GrantBinding) : List UInt8 := Sha256.digest b.encode

/-- The bounds of the source's types: a string has fewer than `2 ^ 64` bytes, a
list fewer than `2 ^ 64` items, and the numbers are `u64`. -/
structure Fits (b : GrantBinding) : Prop where
  statementText : b.statementText.utf8ByteSize < 2 ^ 64
  params : b.normalizedParams.length < 2 ^ 64
  param : ∀ p ∈ b.normalizedParams, p.utf8ByteSize < 2 ^ 64
  role : b.role.utf8ByteSize < 2 ^ 64
  sessionId : b.sessionId.utf8ByteSize < 2 ^ 64
  proposalId : b.proposalId.utf8ByteSize < 2 ^ 64
  dryRunLsn : b.dryRunLsn.utf8ByteSize < 2 ^ 64
  maxRows : b.cap.maxRows < 2 ^ 64
  maxWalBytes : b.cap.maxWalBytes < 2 ^ 64
  nonce : b.nonce.utf8ByteSize < 2 ^ 64
  expiryUnixMillis : b.expiryUnixMillis < 2 ^ 64

private theorem u64_width : (256 : Nat) ^ 8 = 2 ^ 64 := by decide

theorem selfDelimiting_absorbU64 : IsSelfDelimiting (· < 2 ^ 64) absorbU64 := by
  have h := selfDelimiting_beBytes 8
  rw [u64_width] at h
  exact h

theorem selfDelimiting_absorbStr :
    IsSelfDelimiting (fun s : String => s.utf8ByteSize < 2 ^ 64) absorbStr :=
  selfDelimiting_lengthPrefixed selfDelimiting_absorbU64 (fun _ h => h)
    fun _ _ _ _ h => utf8_injective h

/-- The byte stream determines every field. -/
theorem encode_injective {a b : GrantBinding} (ha : a.Fits) (hb : b.Fits)
    (h : a.encode = b.encode) : a = b := by
  unfold encode at h
  simp only [List.append_assoc] at h
  have h₀ := List.append_cancel_left h
  obtain ⟨hstatement, h₁⟩ := selfDelimiting_absorbStr ha.statementText hb.statementText h₀
  obtain ⟨hlength, h₂⟩ := selfDelimiting_absorbU64 ha.params hb.params h₁
  obtain ⟨hparams, h₃⟩ := flatMap_cut selfDelimiting_absorbStr hlength ha.param hb.param h₂
  obtain ⟨hrole, h₄⟩ := selfDelimiting_absorbStr ha.role hb.role h₃
  obtain ⟨hsession, h₅⟩ := selfDelimiting_absorbStr ha.sessionId hb.sessionId h₄
  obtain ⟨hproposal, h₆⟩ := selfDelimiting_absorbStr ha.proposalId hb.proposalId h₅
  obtain ⟨hlsn, h₇⟩ := selfDelimiting_absorbStr ha.dryRunLsn hb.dryRunLsn h₆
  obtain ⟨hrows, h₈⟩ := selfDelimiting_absorbU64 ha.maxRows hb.maxRows h₇
  obtain ⟨hwal, h₉⟩ := selfDelimiting_absorbU64 ha.maxWalBytes hb.maxWalBytes h₈
  obtain ⟨hnonce, h₁₀⟩ := selfDelimiting_absorbStr ha.nonce hb.nonce h₉
  have hexpiry := (selfDelimiting_absorbU64 ha.expiryUnixMillis hb.expiryUnixMillis
    (congrArg (· ++ []) h₁₀)).1
  obtain ⟨_, _, _, _, _, _, ⟨_, _⟩, _, _⟩ := a
  obtain ⟨_, _, _, _, _, _, ⟨_, _⟩, _, _⟩ := b
  simp_all

end GrantBinding

/-! ## Tokens -/

structure SigningKey where
  bytes : List UInt8
deriving DecidableEq

structure VerifyingKey where
  bytes : List UInt8
deriving DecidableEq

/-- The Ed25519 functions of the `ed25519-dalek` crate. -/
class Ed25519 where
  sign : SigningKey → List UInt8 → List UInt8
  verifyingKey : SigningKey → VerifyingKey
  verifyStrict : VerifyingKey → List UInt8 → List UInt8 → Bool

/-- Why a grant did not verify. -/
inductive GrantError where
  | malformedSignature
  | badSignature
  | bindingMismatch
  | replayedNonce
  | expired (nowUnixMillis expiryUnixMillis : Nat)
deriving DecidableEq, Repr

def GrantError.toString : GrantError → String
  | .malformedSignature => "malformed signature encoding"
  | .badSignature => "signature does not verify"
  | .bindingMismatch =>
      "grant binding mismatch: the live request differs from what was approved"
  | .replayedNonce => "grant nonce already used (single-use violated)"
  | .expired now expiry => s!"grant expired (now={now}ms >= expiry={expiry}ms)"

/-- The value of a hexadecimal digit. -/
def hexValue (c : Char) : Option Nat :=
  if '0' ≤ c ∧ c ≤ '9' then some (c.toNat - 48)
  else if 'a' ≤ c ∧ c ≤ 'f' then some (c.toNat - 87)
  else if 'A' ≤ c ∧ c ≤ 'F' then some (c.toNat - 55)
  else none

/-- `hex::decode`: pairs of digits, nothing for an odd length or another
character. -/
def hexDecode : List Char → Option (List UInt8)
  | [] => some []
  | [_] => none
  | hi :: lo :: rest =>
      match hexValue hi, hexValue lo, hexDecode rest with
      | some h, some l, some bytes => some (UInt8.ofNat (h * 16 + l) :: bytes)
      | _, _, _ => none

theorem hexValue_hexDigit {n : Nat} (h : n < 16) : hexValue (hexDigit n) = some n := by
  have hall : ∀ m : Fin 16, hexValue (hexDigit m.val) = some m.val := by decide
  exact hall ⟨n, h⟩

/-- `hex::decode` undoes `hex::encode`. -/
theorem hexDecode_hexEncode (bs : List UInt8) : hexDecode (hexEncode bs).toList = some bs := by
  unfold hexEncode
  rw [String.toList_ofList]
  induction bs with
  | nil => rfl
  | cons b bs ih =>
      have hb : b.toNat < 256 := b.toNat_lt
      have hhi := hexValue_hexDigit (n := b.toNat / 16) (by omega)
      have hlo := hexValue_hexDigit (n := b.toNat % 16) (by omega)
      have hbyte : b.toNat / 16 * 16 + b.toNat % 16 = b.toNat := by omega
      simp only [List.flatMap_cons, List.cons_append, List.nil_append, hexDecode, hhi, hlo, ih,
        hbyte, UInt8.ofNat_toNat]

theorem hexEncode_injective {as bs : List UInt8} (h : hexEncode as = hexEncode bs) :
    as = bs := by
  have hdecoded := hexDecode_hexEncode as
  rw [h, hexDecode_hexEncode] at hdecoded
  exact (Option.some.inj hdecoded).symm

/-- A signed grant. -/
structure GrantToken where
  binding : GrantBinding
  signatureHex : String
deriving DecidableEq

namespace GrantToken

variable [Sha256] [Ed25519]

def sign (binding : GrantBinding) (key : SigningKey) : GrantToken :=
  { binding := binding
    signatureHex := hexEncode (Ed25519.sign key binding.bindingHash) }

/-- The signature over the current binding. -/
def verifySignature (token : GrantToken) (key : VerifyingKey) : Except GrantError Unit :=
  match hexDecode token.signatureHex.toList with
  | none => .error .malformedSignature
  | some bytes =>
      if bytes.length ≠ 64 then .error .malformedSignature
      else if Ed25519.verifyStrict key token.binding.bindingHash bytes then .ok ()
      else .error .badSignature

end GrantToken

/-! ## Nonces and the gate's state -/

/-- The in-memory nonce store: the nonces consumed so far. -/
structure NonceStore where
  used : Finset String
deriving DecidableEq

namespace NonceStore

def new : NonceStore := ⟨∅⟩

/-- Mark a nonce used; the answer is whether it was unused. -/
def consume (store : NonceStore) (nonce : String) : Bool × NonceStore :=
  (decide (nonce ∉ store.used), ⟨insert nonce store.used⟩)

end NonceStore

/-- What the grant gate runs over: the nonce store, and the apply's world with
its calls. -/
structure GateState (ω : Type) where
  nonces : NonceStore
  calls : Logged ω ApplyCall

variable {ω α ε ε' : Type}

/-- Run a program of the apply engine inside the gate. -/
def onCalls (g : ε → ε') (m : Eff (Logged ω ApplyCall) ε α) : Eff (GateState ω) ε' α :=
  fun s => ((m s.calls).1.mapError g, { s with calls := (m s.calls).2 })

/-- Consume a nonce inside the gate. -/
def consumeNonce (nonce : String) : Eff (GateState ω) ε Bool := fun s =>
  (.ok (s.nonces.consume nonce).1, { s with nonces := (s.nonces.consume nonce).2 })

variable [Sha256] [Ed25519]

/-- Re-verify a grant at apply time.  The nonce is consumed last, so that a
rejected grant never burns it. -/
def verifyForApply (token : GrantToken) (live : GrantBinding) (key : VerifyingKey)
    (clock : Clock ω) : Eff (GateState ω) GrantError Unit := do
  Eff.lift (token.verifySignature key)
  if live.bindingHash ≠ token.binding.bindingHash then
    Eff.fail .bindingMismatch
  else do
    let now ← onCalls id (consult clock.nowUnixMillis .clockRead)
    if now ≥ token.binding.expiryUnixMillis then
      Eff.fail (.expired now token.binding.expiryUnixMillis)
    else do
      let fresh ← consumeNonce token.binding.nonce
      if fresh then pure () else Eff.fail .replayedNonce

/-- The state after the gate has read the clock. -/
def afterClock (clock : Clock ω) (s : GateState ω) : GateState ω :=
  { s with calls :=
      ⟨(clock.nowUnixMillis s.calls.world).2,
        s.calls.log ++ [.clockRead (clock.nowUnixMillis s.calls.world).1]⟩ }

/-- The state after the gate has accepted a grant. -/
def afterGrant (clock : Clock ω) (nonce : String) (s : GateState ω) : GateState ω :=
  { afterClock clock s with nonces := ⟨insert nonce s.nonces.used⟩ }

/-- The verification, as the order of its five outcomes. -/
theorem verifyForApply_eq (token : GrantToken) (live : GrantBinding) (key : VerifyingKey)
    (clock : Clock ω) (s : GateState ω) :
    verifyForApply token live key clock s =
      match token.verifySignature key with
      | .error e => (.error e, s)
      | .ok () =>
          if live.bindingHash ≠ token.binding.bindingHash then (.error .bindingMismatch, s)
          else if (clock.nowUnixMillis s.calls.world).1 ≥ token.binding.expiryUnixMillis then
            (.error (.expired (clock.nowUnixMillis s.calls.world).1
              token.binding.expiryUnixMillis), afterClock clock s)
          else if token.binding.nonce ∈ s.nonces.used then
            (.error .replayedNonce, afterGrant clock token.binding.nonce s)
          else (.ok (), afterGrant clock token.binding.nonce s) := by
  unfold verifyForApply
  rcases token.verifySignature key with e | ⟨⟩
  · rfl
  rw [Eff.bind_of_ok (Eff.lift_apply _ _)]
  simp only
  by_cases hhash : live.bindingHash ≠ token.binding.bindingHash
  · rw [if_pos hhash, if_pos hhash]
    rfl
  rw [if_neg hhash, if_neg hhash]
  have hread : onCalls id (consult clock.nowUnixMillis .clockRead) s =
      ((.ok (clock.nowUnixMillis s.calls.world).1 : Except GrantError Nat),
        afterClock clock s) := rfl
  rw [Eff.bind_of_ok hread]
  by_cases hnow : (clock.nowUnixMillis s.calls.world).1 ≥ token.binding.expiryUnixMillis
  · rw [if_pos hnow, if_pos hnow]
    rfl
  rw [if_neg hnow, if_neg hnow]
  have hconsume : (consumeNonce token.binding.nonce : Eff (GateState ω) GrantError Bool)
      (afterClock clock s) = (.ok (decide (token.binding.nonce ∉ s.nonces.used)),
        afterGrant clock token.binding.nonce s) := rfl
  rw [Eff.bind_of_ok hconsume]
  by_cases hused : token.binding.nonce ∈ s.nonces.used
  · simp [hused]
  · simp [hused]

/-- What an accepted grant has passed: its signature, the comparison with the
live fields, one reading of the clock before its expiry, and an unused nonce.
Accepting it reads the clock once and consumes the nonce. -/
theorem verifyForApply_ok {token : GrantToken} {live : GrantBinding} {key : VerifyingKey}
    {clock : Clock ω} {s s' : GateState ω}
    (h : verifyForApply token live key clock s = (.ok (), s')) :
    token.verifySignature key = .ok () ∧
      live.bindingHash = token.binding.bindingHash ∧
      (clock.nowUnixMillis s.calls.world).1 < token.binding.expiryUnixMillis ∧
      token.binding.nonce ∉ s.nonces.used ∧
      s' = afterGrant clock token.binding.nonce s := by
  rw [verifyForApply_eq] at h
  split at h
  · cases h
  next hsig =>
    split at h
    · cases h
    split at h
    · cases h
    split at h
    · cases h
    next hhash hnow hused =>
      refine ⟨hsig, not_not.mp hhash, by omega, hused, ?_⟩
      cases h
      rfl

/-- A grant that passes them is accepted. -/
theorem verifyForApply_accepts {token : GrantToken} {live : GrantBinding} {key : VerifyingKey}
    {clock : Clock ω} {s : GateState ω} (hsig : token.verifySignature key = .ok ())
    (hhash : live.bindingHash = token.binding.bindingHash)
    (hlive : (clock.nowUnixMillis s.calls.world).1 < token.binding.expiryUnixMillis)
    (hfresh : token.binding.nonce ∉ s.nonces.used) :
    verifyForApply token live key clock s = (.ok (), afterGrant clock token.binding.nonce s) := by
  rw [verifyForApply_eq, hsig]
  simp only
  rw [if_neg (not_not.mpr hhash), if_neg (by omega), if_neg hfresh]

/-- A rejected grant leaves the nonces as they were, and at most reads the
clock. -/
theorem verifyForApply_error {token : GrantToken} {live : GrantBinding} {key : VerifyingKey}
    {clock : Clock ω} {s s' : GateState ω} {e : GrantError}
    (h : verifyForApply token live key clock s = (.error e, s')) :
    s'.nonces = s.nonces ∧ (s' = s ∨ s' = afterClock clock s) := by
  rw [verifyForApply_eq] at h
  split at h
  · cases h
    exact ⟨rfl, .inl rfl⟩
  split at h
  · cases h
    exact ⟨rfl, .inl rfl⟩
  split at h
  · cases h
    exact ⟨rfl, .inr rfl⟩
  split at h
  · next hused =>
      -- Consuming a used nonce again changes nothing.
      have hsame : afterGrant clock token.binding.nonce s = afterClock clock s := by
        have hinsert : insert token.binding.nonce s.nonces.used = s.nonces.used :=
          Finset.insert_eq_of_mem hused
        simp only [afterGrant, afterClock, hinsert]
      cases h
      rw [hsame]
      exact ⟨rfl, .inr rfl⟩
  · cases h

end PgBrakes.Ports.Grant
