import PgBrakes.Verified.Effect

/-!
# Reading and writing message bodies

A body is a list of bytes.  A reader is a fallible program over the bytes still to
be read; a writer is the list of the bytes it emits.  Integers are big-endian, and
a string is its UTF-8 bytes up to a NUL.

## Main results

* `getCstr_append` — a string without NUL is read back from its own bytes.
* `getCstr_split` — what was read is the bytes up to the first NUL.
-/

namespace PgBrakes.Ports.Wire

open PgBrakes.Verified.Effect

/-- The bytes of a body. -/
abbrev Bytes := List UInt8

/-- Errors of the codec. -/
inductive ProtocolError where
  | io
  | invalidLength (len : Int32)
  | malformed (what : String)
  | unterminatedCString
  | invalidUtf8
  | unknownTag (tag : UInt8)
deriving DecidableEq

/-- A tagged frame, without its length prefix. -/
structure RawFrame where
  tag : UInt8
  body : Bytes
deriving DecidableEq

/-- A reader over the rest of a body. -/
abbrev Reader := Eff Bytes ProtocolError

/-! ## Readers -/

def getU8 : Reader UInt8
  | a :: rest => (.ok a, rest)
  | bytes => (.error (.malformed "unexpected end of message"), bytes)

def getI16 : Reader Int16
  | a :: b :: rest => (.ok (.ofBitVec (a.toBitVec ++ b.toBitVec)), rest)
  | bytes => (.error (.malformed "unexpected end of message"), bytes)

def getI32 : Reader Int32
  | a :: b :: c :: d :: rest =>
      (.ok (.ofBitVec (a.toBitVec ++ b.toBitVec ++ c.toBitVec ++ d.toBitVec)), rest)
  | bytes => (.error (.malformed "unexpected end of message"), bytes)

/-- Exactly `n` bytes. -/
def getBytes (n : Nat) : Reader Bytes := fun bytes =>
  if bytes.length < n then (.error (.malformed "unexpected end of message"), bytes)
  else (.ok (bytes.take n), bytes.drop n)

/-- Everything that is left. -/
def getRest : Reader Bytes := fun bytes => (.ok bytes, [])

/-- The bytes up to the first NUL, which is consumed. -/
def getCstrBytes : Reader Bytes := fun bytes =>
  match bytes.dropWhile (· ≠ 0) with
  | [] => (.error .unterminatedCString, bytes)
  | _ :: rest => (.ok (bytes.takeWhile (· ≠ 0)), rest)

/-- The string with these bytes, where they are UTF-8. -/
def fromUtf8 (bytes : Bytes) : Option String := String.fromUTF8? ⟨bytes.toArray⟩

def getCstr : Reader String := do
  let bytes ← getCstrBytes
  match fromUtf8 bytes with
  | some s => pure s
  | none => Eff.fail .invalidUtf8

/-- The same reader `n` times. -/
def getMany {α : Type} (read : Reader α) : Nat → Reader (List α)
  | 0 => pure []
  | n + 1 => do
      let a ← read
      let as ← getMany read n
      pure (a :: as)

/-! ## Writers -/

def putI16 (v : Int16) : Bytes :=
  [.ofBitVec (v.toBitVec.extractLsb' 8 8), .ofBitVec (v.toBitVec.extractLsb' 0 8)]

def putI32 (v : Int32) : Bytes :=
  [.ofBitVec (v.toBitVec.extractLsb' 24 8), .ofBitVec (v.toBitVec.extractLsb' 16 8),
    .ofBitVec (v.toBitVec.extractLsb' 8 8), .ofBitVec (v.toBitVec.extractLsb' 0 8)]

/-- The UTF-8 bytes of a string. -/
def utf8 (s : String) : Bytes := s.toUTF8.data.toList

def putCstr (s : String) : Bytes := utf8 s ++ [0]

/-! ## Strings on the wire -/

theorem utf8_fromUtf8 {bytes : Bytes} {s : String} (h : fromUtf8 bytes = some s) :
    utf8 s = bytes := by
  simp only [fromUtf8, String.fromUTF8?] at h
  split at h
  · cases h
    simp [utf8, String.fromUTF8]
  · cases h

theorem utf8_append (a b : String) : utf8 (a ++ b) = utf8 a ++ utf8 b := by
  show (a ++ b).toByteArray.data.toList = _
  rw [String.toByteArray_append, ByteArray.data_append, Array.toList_append]
  rfl

theorem fromUtf8_utf8 (s : String) : fromUtf8 (utf8 s) = some s := by
  have hbytes : (⟨(utf8 s).toArray⟩ : ByteArray) = s.toUTF8 := by simp [utf8]
  have hvalid : s.toUTF8.IsValidUTF8 := s.isValidUTF8
  rw [fromUtf8, hbytes, String.fromUTF8?, dif_pos hvalid]
  rfl

/-- No byte of a string without NUL ends it. -/
theorem utf8_ne_nul {s : String} (hs : 0 ∉ utf8 s) : ∀ b ∈ utf8 s, decide (b ≠ 0) = true := by
  intro b hb
  have : b ≠ 0 := fun h => hs (h ▸ hb)
  simpa using this

/-- A string that holds no NUL ends at the one behind it. -/
theorem dropWhile_putCstr {s : String} (hs : 0 ∉ utf8 s) (rest : Bytes) :
    (putCstr s ++ rest).dropWhile (· ≠ 0) = 0 :: rest := by
  rw [putCstr, List.append_assoc, List.dropWhile_append_of_pos (utf8_ne_nul hs)]
  simp

/-- A string that holds no NUL is read back from its own bytes. -/
theorem getCstr_append {s : String} (hs : 0 ∉ utf8 s) (rest : Bytes) :
    getCstr (putCstr s ++ rest) = (.ok s, rest) := by
  have htake : (putCstr s ++ rest).takeWhile (· ≠ 0) = utf8 s := by
    rw [putCstr, List.append_assoc, List.takeWhile_append_of_pos (utf8_ne_nul hs)]
    simp
  have hread : getCstrBytes (putCstr s ++ rest) = (.ok (utf8 s), rest) := by
    rw [getCstrBytes, dropWhile_putCstr hs, htake]
  rw [getCstr, Eff.bind_of_ok hread, fromUtf8_utf8]
  rfl

/-- The bytes that were read hold no NUL, and one stood behind them. -/
theorem getCstrBytes_ok {bytes read rest : Bytes} (h : getCstrBytes bytes = (.ok read, rest)) :
    0 ∉ read ∧ bytes = read ++ 0 :: rest := by
  rw [getCstrBytes] at h
  split at h
  · cases h
  · rename_i b rest' hdrop
    cases h
    refine ⟨fun hmem => ?_, ?_⟩
    · have hall := List.all_eq_true.mp (List.all_takeWhile (p := (· ≠ 0)) (l := bytes))
      simpa using hall 0 hmem
    · have hnul : b = 0 := by
        have hhead := List.head?_dropWhile_not (· ≠ 0) bytes
        rw [hdrop] at hhead
        simpa using hhead
      rw [hnul] at hdrop
      rw [← hdrop, List.takeWhile_append_dropWhile]

/-- A string that was read holds no NUL, and stood in front with one behind it. -/
theorem getCstr_split {bytes rest : Bytes} {s : String} (h : getCstr bytes = (.ok s, rest)) :
    0 ∉ utf8 s ∧ bytes = putCstr s ++ rest := by
  obtain ⟨read, rest', hread, hdecode⟩ := Eff.bind_ok_iff.mp h
  obtain ⟨hnul, hbytes⟩ := getCstrBytes_ok hread
  cases hutf : fromUtf8 read with
  | none =>
      rw [hutf] at hdecode
      cases hdecode
  | some s' =>
      rw [hutf] at hdecode
      cases hdecode
      rw [putCstr, utf8_fromUtf8 hutf, List.append_assoc]
      exact ⟨hnul, hbytes⟩

/-- A string that was read holds no NUL. -/
theorem getCstr_ok {bytes rest : Bytes} {s : String} (h : getCstr bytes = (.ok s, rest)) :
    0 ∉ utf8 s :=
  (getCstr_split h).1

theorem getI16_put (v : Int16) (rest : Bytes) : getI16 (putI16 v ++ rest) = (.ok v, rest) := by
  have hbits : (v.toBitVec.extractLsb' 8 8 ++ v.toBitVec.extractLsb' 0 8 : BitVec 16) =
      v.toBitVec := BitVec.extractLsb'_append_extractLsb'
  show ((.ok (.ofBitVec (v.toBitVec.extractLsb' 8 8 ++ v.toBitVec.extractLsb' 0 8)), rest) :
    Except ProtocolError Int16 × Bytes) = (.ok v, rest)
  rw [hbits]
  rfl

theorem getI32_put (v : Int32) (rest : Bytes) : getI32 (putI32 v ++ rest) = (.ok v, rest) := by
  have hupper : (v.toBitVec.extractLsb' 24 8 ++ v.toBitVec.extractLsb' 16 8 : BitVec 16) =
      v.toBitVec.extractLsb' 16 16 := BitVec.extractLsb'_append_extractLsb'_eq_extractLsb' rfl
  have hmiddle : (v.toBitVec.extractLsb' 16 16 ++ v.toBitVec.extractLsb' 8 8 : BitVec 24) =
      v.toBitVec.extractLsb' 8 24 := BitVec.extractLsb'_append_extractLsb'_eq_extractLsb' rfl
  have hbits : (v.toBitVec.extractLsb' 24 8 ++ v.toBitVec.extractLsb' 16 8 ++
      v.toBitVec.extractLsb' 8 8 ++ v.toBitVec.extractLsb' 0 8 : BitVec 32) = v.toBitVec := by
    rw [hupper, hmiddle]
    exact BitVec.extractLsb'_append_extractLsb'
  show ((.ok (.ofBitVec (v.toBitVec.extractLsb' 24 8 ++ v.toBitVec.extractLsb' 16 8 ++
    v.toBitVec.extractLsb' 8 8 ++ v.toBitVec.extractLsb' 0 8)), rest) :
    Except ProtocolError Int32 × Bytes) = (.ok v, rest)
  rw [hbits]
  rfl

end PgBrakes.Ports.Wire
