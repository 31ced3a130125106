import PgBrakes.Ports.WireRoundTrip

/-!
# The bytes behind a message

The proxy judges the message a frame decodes to and passes the frame on as it came, so
the two should have the same bytes.  Each reader is inverted here: what it has taken off
the front of the body is what its writer writes for the value it yields.  For the frames
on the stream that is all there is to say.  A message is written at the front of the body
it was read from, but nothing asks that the body ends there; `EndsWithLayout` says, from
the bytes alone, when it does.

## Main results

* `readTaggedFrame_iff` — a frame is read where its own bytes stand, and nowhere else.
* `readFrontend_split` — a body that decodes is the message's own body and what decoding
  leaves.
* `decode_canonical_iff` — encoding gives the frame back when its body ends where the
  layout of its tag ends.
-/

namespace PgBrakes.Ports.Wire

open PgBrakes.Verified.Effect
open PgBrakes.Verified.Readback

/-! ## What the small readers take -/

theorem takes_u8 : Takes (fun ys b => ys = [b]) getU8 := by
  intro xs b rest hread
  cases xs with
  | nil => cases hread
  | cons c xs =>
      cases hread
      exact ⟨[_], rfl, rfl⟩

theorem putI16_bytes (a b : UInt8) : putI16 (.ofBitVec (a.toBitVec ++ b.toBitVec)) = [a, b] := by
  rw [putI16, Int16.toBitVec_ofBitVec, BitVec.extractLsb'_append_eq_left,
    BitVec.extractLsb'_append_eq_right]

theorem putI32_bytes (a b c d : UInt8) :
    putI32 (.ofBitVec (a.toBitVec ++ b.toBitVec ++ c.toBitVec ++ d.toBitVec)) = [a, b, c, d] := by
  have hfirst : (a.toBitVec ++ b.toBitVec ++ c.toBitVec ++ d.toBitVec).extractLsb' 24 8 =
      a.toBitVec := by
    rw [BitVec.extractLsb'_append_eq_of_le (by decide),
      BitVec.extractLsb'_append_eq_of_le (by decide)]
    exact BitVec.extractLsb'_append_eq_left
  have hsecond : (a.toBitVec ++ b.toBitVec ++ c.toBitVec ++ d.toBitVec).extractLsb' 16 8 =
      b.toBitVec := by
    rw [BitVec.extractLsb'_append_eq_of_le (by decide),
      BitVec.extractLsb'_append_eq_of_le (by decide)]
    exact BitVec.extractLsb'_append_eq_right
  have hthird : (a.toBitVec ++ b.toBitVec ++ c.toBitVec ++ d.toBitVec).extractLsb' 8 8 =
      c.toBitVec := by
    rw [BitVec.extractLsb'_append_eq_of_le (by decide)]
    exact BitVec.extractLsb'_append_eq_right
  rw [putI32, Int32.toBitVec_ofBitVec, hfirst, hsecond, hthird, BitVec.extractLsb'_append_eq_right]

theorem takes_i16 : Takes (fun ys v => ys = putI16 v) getI16 := by
  intro xs v rest hread
  rcases xs with _ | ⟨a, _ | ⟨b, xs⟩⟩
  · cases hread
  · cases hread
  · cases hread
    exact ⟨[a, b], rfl, (putI16_bytes a b).symm⟩

theorem takes_i32 : Takes (fun ys v => ys = putI32 v) getI32 := by
  intro xs v rest hread
  rcases xs with _ | ⟨a, _ | ⟨b, _ | ⟨c, _ | ⟨d, xs⟩⟩⟩⟩
  · cases hread
  · cases hread
  · cases hread
  · cases hread
  · cases hread
    exact ⟨[a, b, c, d], rfl, (putI32_bytes a b c d).symm⟩

theorem takes_cstr : Takes (fun ys s => ys = putCstr s ∧ NoNul s) getCstr := by
  intro xs s rest hread
  obtain ⟨hnul, hsplit⟩ := getCstr_split hread
  exact ⟨putCstr s, hsplit, rfl, hnul⟩

theorem takes_rest : Takes (fun ys bytes => ys = bytes) getRest := by
  intro xs bytes rest hread
  cases hread
  exact ⟨xs, (List.append_nil xs).symm, rfl⟩

theorem takes_many {α : Type} {read : Reader α} {put : α → Bytes}
    (h : Takes (fun ys a => ys = put a) read) (n : Nat) :
    Takes (fun ys as => as.length = n ∧ ys = as.flatMap put) (getMany read n) :=
  Takes.many rfl (fun _ => rfl) h n

/-- A count that is not negative is written as the length it stands for. -/
theorem ofNat_count {n : Int16} (h : ¬ n < 0) :
    n.toInt.toNat ≤ maxCount ∧ Int16.ofNat n.toInt.toNat = n := by
  rw [Int16.lt_iff_toInt_lt, Int16.toInt_zero] at h
  have hmax := n.toInt_lt
  have hcount : n.toInt.toNat ≤ maxCount := by
    simp only [maxCount]
    omega
  refine ⟨hcount, Int16.toInt_inj.mp ?_⟩
  rw [toInt_ofNat16 hcount]
  omega

/-! ## What the decoder takes -/

/-- The bytes are those of the message, which can be written and is no part of a SASL
exchange: the decoder reads the tag `p` as a password. -/
def Writes (ys : Bytes) (msg : FrontendMessage) : Prop :=
  ys = msg.encodeBody ∧ msg.Encodable ∧ msg.phase = .password

/-- A message that is its string. -/
theorem takes_string {message : String → FrontendMessage}
    (h : ∀ s, NoNul s → Writes (putCstr s) (message s)) :
    Takes Writes (getCstr >>= fun s => pure (message s)) := by
  refine takes_cstr.bind fun s ys hys => .pure ?_
  rw [List.append_nil, hys.1]
  exact h s hys.2

theorem takes_parse : Takes Writes readParse := by
  refine takes_cstr.bind fun statement ys hys => takes_cstr.bind fun sql zs hzs =>
    takes_i16.bind fun n ws hws => .ite (fun _ => .fail _) fun hn =>
      (takes_many takes_i32 _).bind fun paramTypes vs hvs => .pure ?_
  obtain ⟨hcount, hofNat⟩ := ofNat_count hn
  obtain ⟨hlength, htypes⟩ := hvs
  rw [← hlength] at hcount hofNat
  refine ⟨?_, ⟨hys.2, hzs.2, hcount⟩, rfl⟩
  rw [FrontendMessage.encodeBody, hofNat, hys.1, hzs.1, hws, htypes, List.append_nil]

theorem takes_bind : Takes Writes readBind := by
  refine takes_cstr.bind fun portal ys hys => takes_cstr.bind fun statement zs hzs =>
    takes_rest.bind fun rest ws hws => .pure ⟨?_, ⟨hys.2, hzs.2⟩, rfl⟩
  rw [FrontendMessage.encodeBody, hys.1, hzs.1, hws, List.append_nil]

theorem takes_kind (b : UInt8) :
    Takes (fun ys kind => ys = [] ∧ b = kind.tag)
      (Eff.lift (TargetKind.fromTag b) : Reader TargetKind) := by
  refine .lift fun kind hkind => ⟨rfl, ?_⟩
  unfold TargetKind.fromTag at hkind
  split at hkind
  · cases hkind
    assumption
  · split at hkind
    · cases hkind
      assumption
    · cases hkind

theorem takes_target {message : TargetKind → String → FrontendMessage}
    (h : ∀ kind name, NoNul name → Writes (kind.tag :: putCstr name) (message kind name)) :
    Takes Writes (readTarget message) := by
  refine takes_u8.bind fun b ys hys => (takes_kind b).bind fun kind zs hzs =>
    takes_cstr.bind fun name ws hws => .pure ?_
  rw [hys, hzs.1, hzs.2, hws.1, List.nil_append, List.append_nil]
  exact h kind name hws.2

theorem takes_execute : Takes Writes readExecute := by
  refine takes_cstr.bind fun portal ys hys => takes_i32.bind fun maxRows zs hzs =>
    .pure ⟨?_, hys.2, rfl⟩
  rw [FrontendMessage.encodeBody, hys.1, hzs, List.append_nil]

theorem takes_copyData : Takes Writes readCopyData := by
  refine takes_rest.bind fun data ys hys => .pure ⟨?_, trivial, rfl⟩
  rw [FrontendMessage.encodeBody, hys, List.append_nil]

/-- Whatever the tag, the decoder takes the bytes of the message it yields. -/
theorem takes_frontend (tag : UInt8) : Takes Writes (readFrontend tag) := by
  refine .ite (fun _ => takes_string fun s hs => ⟨rfl, hs, rfl⟩) fun _ => ?_
  refine .ite (fun _ => takes_parse) fun _ => ?_
  refine .ite (fun _ => takes_bind) fun _ => ?_
  refine .ite (fun _ => takes_target fun kind name hname => ⟨rfl, hname, rfl⟩) fun _ => ?_
  refine .ite (fun _ => takes_execute) fun _ => ?_
  refine .ite (fun _ => .pure ⟨rfl, trivial, rfl⟩) fun _ => ?_
  refine .ite (fun _ => .pure ⟨rfl, trivial, rfl⟩) fun _ => ?_
  refine .ite (fun _ => takes_target fun kind name hname => ⟨rfl, hname, rfl⟩) fun _ => ?_
  refine .ite (fun _ => .pure ⟨rfl, trivial, rfl⟩) fun _ => ?_
  refine .ite (fun _ => takes_string fun s hs => ⟨rfl, hs, rfl⟩) fun _ => ?_
  refine .ite (fun _ => takes_copyData) fun _ => ?_
  refine .ite (fun _ => .pure ⟨rfl, trivial, rfl⟩) fun _ => ?_
  exact .ite (fun _ => takes_string fun s hs => ⟨rfl, hs, rfl⟩) fun _ => .fail _

/-- A body that decodes is the message's own body and what decoding leaves. -/
theorem readFrontend_split {tag : UInt8} {body rest : Bytes} {msg : FrontendMessage}
    (h : readFrontend tag body = (.ok msg, rest)) :
    tag = msg.tag ∧ body = msg.encodeBody ++ rest ∧ msg.Encodable ∧ msg.phase = .password := by
  have htag : tag = msg.tag := (readFrontend_tag tag body msg (by rw [h])).symm
  obtain ⟨ys, hbody, hys, hmsg⟩ := takes_frontend tag body msg rest h
  exact ⟨htag, hys ▸ hbody, hmsg⟩

/-! ## Where the layout of a tag ends -/

/-- The bytes behind the first NUL. -/
def behindNul (bytes : Bytes) : Bytes := (bytes.dropWhile (· ≠ 0)).drop 1

/-- The 16-bit count in front. -/
def announced : Bytes → Nat
  | a :: b :: _ => 256 * a.toNat + b.toNat
  | _ => 0

/-- The body ends where the layout of its tag does: with the NUL of its only string, with
as many parameter types as announced, with the four bytes of a row limit, or at once.  The
values of a `Bind` and the data of a copy have no end of their own. -/
def EndsWithLayout (tag : UInt8) (body : Bytes) : Prop :=
  if tag = tagQuery ∨ tag = tagPassword ∨ tag = tagCopyFail then behindNul body = []
  else if tag = tagDescribe ∨ tag = tagClose then behindNul (body.drop 1) = []
  else if tag = tagExecute then (behindNul body).length = 4
  else if tag = tagParse then
    (behindNul (behindNul body)).length = 2 + 4 * announced (behindNul (behindNul body))
  else if tag = tagBind ∨ tag = tagCopyData then True
  else body = []
deriving Decidable

theorem behindNul_putCstr {s : String} (hs : NoNul s) (rest : Bytes) :
    behindNul (putCstr s ++ rest) = rest := by
  rw [behindNul, dropWhile_putCstr hs, List.drop_one, List.tail_cons]

theorem length_putI16 (v : Int16) : (putI16 v).length = 2 := rfl

theorem length_putI32 (v : Int32) : (putI32 v).length = 4 := rfl

theorem length_flatMap_putI32 (values : List Int32) :
    (values.flatMap putI32).length = 4 * values.length := by
  induction values with
  | nil => rfl
  | cons v values ih =>
      rw [List.flatMap_cons, List.length_append, length_putI32, ih, List.length_cons]
      omega

theorem announced_putI16 {n : Nat} (h : n ≤ maxCount) (rest : Bytes) :
    announced (putI16 (.ofNat n) ++ rest) = n := by
  simp only [maxCount] at h
  have hbits : (Int16.ofNat n).toBitVec.toNat = n := by
    show n % 2 ^ 16 = n
    omega
  show 256 * ((Int16.ofNat n).toBitVec.extractLsb' 8 8).toNat +
    ((Int16.ofNat n).toBitVec.extractLsb' 0 8).toNat = n
  rw [BitVec.extractLsb'_toNat, BitVec.extractLsb'_toNat, hbits, Nat.shiftRight_eq_div_pow,
    Nat.shiftRight_zero]
  omega

/-- A `Bind` takes everything behind its two names. -/
theorem readBind_leaves {portal statement : String} {values rest : Bytes}
    (hportal : NoNul portal) (hstatement : NoNul statement)
    (h : readBind ((FrontendMessage.bind portal statement values).encodeBody ++ rest) =
      (.ok (.bind portal statement values), rest)) : rest = [] := by
  have hbody : (FrontendMessage.bind portal statement values).encodeBody ++ rest =
      (FrontendMessage.bind portal statement (values ++ rest)).encodeBody := by
    simp only [FrontendMessage.encodeBody, List.append_assoc]
  rw [hbody, readBind_encodeBody hportal hstatement] at h
  exact (congrArg Prod.snd h).symm

/-- Decoding leaves nothing where the body ends with the layout. -/
theorem endsWithLayout_iff {tag : UInt8} {body rest : Bytes} {msg : FrontendMessage}
    (h : readFrontend tag body = (.ok msg, rest)) : EndsWithLayout tag body ↔ rest = [] := by
  obtain ⟨rfl, rfl, hencodable, hphase⟩ := readFrontend_split h
  cases msg with
  | query sql =>
      show behindNul (putCstr sql ++ rest) = [] ↔ rest = []
      rw [behindNul_putCstr hencodable]
  | parse statement sql paramTypes =>
      obtain ⟨hstatement, hsql, hcount⟩ := hencodable
      have hbehind : behindNul (behindNul
          ((FrontendMessage.parse statement sql paramTypes).encodeBody ++ rest)) =
            putI16 (.ofNat paramTypes.length) ++ (paramTypes.flatMap putI32 ++ rest) := by
        simp only [FrontendMessage.encodeBody, List.append_assoc, behindNul_putCstr hstatement,
          behindNul_putCstr hsql]
      show (behindNul (behindNul _)).length = 2 + 4 * announced (behindNul (behindNul _)) ↔ _
      rw [hbehind, announced_putI16 hcount, List.length_append, length_putI16,
        List.length_append, length_flatMap_putI32, ← List.length_eq_zero_iff]
      omega
  | bind portal statement values =>
      have hrest : rest = [] := readBind_leaves hencodable.1 hencodable.2 h
      exact iff_of_true trivial hrest
  | describe kind name =>
      show behindNul (putCstr name ++ rest) = [] ↔ rest = []
      rw [behindNul_putCstr hencodable]
  | execute portal maxRows =>
      show (behindNul (putCstr portal ++ putI32 maxRows ++ rest)).length = 4 ↔ rest = []
      rw [List.append_assoc, behindNul_putCstr hencodable, List.length_append, length_putI32,
        ← List.length_eq_zero_iff]
      omega
  | sync => exact Iff.rfl
  | flush => exact Iff.rfl
  | close kind name =>
      show behindNul (putCstr name ++ rest) = [] ↔ rest = []
      rw [behindNul_putCstr hencodable]
  | terminate => exact Iff.rfl
  | saslInitialResponse response => cases hphase
  | saslResponse data => cases hphase
  | passwordMessage password =>
      show behindNul (putCstr password ++ rest) = [] ↔ rest = []
      rw [behindNul_putCstr hencodable]
  | copyData data =>
      have hrest : rest = [] := (congrArg Prod.snd h).symm
      exact iff_of_true trivial hrest
  | copyDone => exact Iff.rfl
  | copyFail message =>
      show behindNul (putCstr message ++ rest) = [] ↔ rest = []
      rw [behindNul_putCstr hencodable]

/-! ## Frames on the stream -/

theorem takes_streamI32 : Takes (fun ys v => ys = putI32 v) streamI32 := by
  intro xs v rest hread
  have hbody : getI32 xs = (.ok v, rest) := by
    unfold streamI32 at hread
    split at hread
    · exact hread
    · cases hread
  exact takes_i32 xs v rest hbody

theorem takes_exact (n : Nat) :
    Takes (fun ys bytes => ys = bytes ∧ bytes.length = n) (readExact n) := by
  intro xs bytes rest hread
  unfold readExact at hread
  split at hread
  · cases hread
  · cases hread
    refine ⟨xs.take n, (List.take_append_drop n xs).symm, rfl, ?_⟩
    rw [List.length_take]
    omega

/-- A checked length is the length field of a body that long, which fits. -/
theorem lengthField_of_checked {len : Int32} {n : Nat} {body : Bytes}
    (h : checkedBodyLen len = .ok n) (hbody : body.length = n) :
    lengthField body = len ∧ Fits body := by
  unfold checkedBodyLen at h
  split at h
  · next hrange =>
      cases h
      have hfits : Fits body := by
        simp only [Fits]
        omega
      refine ⟨Int32.toInt_inj.mp ?_, hfits⟩
      rw [lengthField, toInt_ofNat32 (by simp only [Fits, maxFrameLen] at hfits; omega)]
      omega
  · cases h

theorem takes_body : Takes (fun ys body => ys = frameUntagged body ∧ Fits body)
    readStartupBody := by
  refine takes_streamI32.bind fun len ys hys =>
    (Takes.lift (P := fun zs n => zs = [] ∧ checkedBodyLen len = .ok n)
      fun n hn => ⟨rfl, hn⟩).bind fun n zs hzs => (takes_exact n).mono fun ws body hws => ?_
  obtain ⟨hlen, hfits⟩ := lengthField_of_checked hzs.2 hws.2
  refine ⟨?_, hfits⟩
  rw [hys, hzs.1, hws.1, frameUntagged, hlen, List.nil_append]

/-- A frame read off the stream is one that fits, and its bytes stood in front. -/
theorem readTaggedFrame_iff {bytes rest : Bytes} {frame : RawFrame} :
    readTaggedFrame bytes = (.ok (some frame), rest) ↔
      bytes = frameTagged frame ++ rest ∧ Fits frame.body := by
  constructor
  · intro hread
    cases bytes with
    | nil => cases hread
    | cons tag bytes =>
        obtain ⟨body, rest', hbody, hframe⟩ := Eff.bind_ok_iff.mp hread
        cases hframe
        obtain ⟨ys, hbytes, hys, hfits⟩ := takes_body bytes body rest hbody
        rw [hbytes, hys]
        exact ⟨rfl, hfits⟩
  · rintro ⟨rfl, hfits⟩
    exact readTaggedFrame_frame hfits rest

/-! ## The frame of a message -/

/-- The bytes of a frame say which frame it is. -/
theorem frameTagged_injective : Function.Injective frameTagged := by
  intro frame frame' h
  obtain ⟨tag, body⟩ := frame
  obtain ⟨tag', body'⟩ := frame'
  obtain ⟨rfl, hbytes⟩ := List.cons.inj h
  obtain ⟨-, rfl⟩ := List.append_inj hbytes rfl
  rfl

/-- Encoding gives the frame back where decoding has left nothing of it. -/
theorem frameTagged_encode_iff {frame : RawFrame} {msg : FrontendMessage} {rest : Bytes}
    (h : readFrontend frame.tag frame.body = (.ok msg, rest)) :
    frameTagged msg.encode = frameTagged frame ↔ rest = [] := by
  obtain ⟨htag, hbody, -⟩ := readFrontend_split h
  constructor
  · intro hbytes
    have hframe : msg.encodeBody = frame.body :=
      congrArg RawFrame.body (frameTagged_injective hbytes)
    rw [hbody] at hframe
    exact List.append_right_eq_self.mp hframe.symm
  · intro hrest
    rw [hrest, List.append_nil] at hbody
    rw [frameTagged, frameTagged, htag, hbody]
    rfl

/-- A frame that decodes has the bytes of its message, and decoding has left nothing of
it, when its body ends where the layout of its tag ends. -/
theorem decode_canonical_iff {frame : RawFrame} {msg : FrontendMessage}
    (h : FrontendMessage.decode frame = .ok msg) :
    (frameTagged msg.encode = frameTagged frame ↔ EndsWithLayout frame.tag frame.body) ∧
      ((readFrontend frame.tag frame.body).2 = [] ↔ EndsWithLayout frame.tag frame.body) := by
  obtain ⟨rest, hread⟩ := decode_read h
  rw [endsWithLayout_iff hread, hread]
  exact ⟨frameTagged_encode_iff hread, Iff.rfl⟩

end PgBrakes.Ports.Wire
