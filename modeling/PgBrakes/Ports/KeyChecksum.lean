import Mathlib.Algebra.Group.Int.Defs
import Mathlib.Data.List.Sort
import Mathlib.Data.List.Lex
import Mathlib.Data.Prod.Lex
import Mathlib.Data.String.Basic
import PgBrakes.Verified.Sha256

/-!
# Typed primary-key values and the affected-key-set checksum

A port of `crates/core/src/pk_checksum.rs`.  A key tuple is a non-empty list of
typed values (`PkTuple::new` refuses an empty one, so the tuple carries the
proof), a builder collects the tuples of one relation, and `finalize` hashes
the sorted, length-delimited encoding.

SHA-256 comes from a third-party crate.  It enters as the class `Sha256`, an
arbitrary function from byte strings to digests; a result that needs it to be
collision-free says so, and a concrete run uses `Sha256.standard`.
-/

namespace PgBrakes.Ports.KeyChecksum

open PgBrakes.Verified.SelfDelimiting

/-- The SHA-256 function of the `sha2` crate. -/
class Sha256 where
  digest : List UInt8 → List UInt8

/-- The function the crate implements. -/
@[reducible] def Sha256.standard : Sha256 := ⟨PgBrakes.Verified.Sha256.digest⟩

/-- The bytes of a string, `s.as_bytes()`. -/
def utf8 (s : String) : List UInt8 := s.toUTF8.data.toList

theorem utf8_injective {s t : String} (h : utf8 s = utf8 t) : s = t := by
  apply String.toByteArray_inj.mp
  apply ByteArray.ext
  exact Array.toList_inj.mp h

theorem utf8_length (s : String) : (utf8 s).length = s.utf8ByteSize := rfl

/-- Rust's `Debug` form of a character in a text.  Beyond ASCII a character stands for itself:
which of those Rust escapes is not modelled. -/
def debugChar (c : Char) : String :=
  if c = '"' then "\\\""
  else if c = '\\' then "\\\\"
  else if c = '\n' then "\\n"
  else if c = '\r' then "\\r"
  else if c = '\t' then "\\t"
  else if c.toNat = 0 then "\\0"
  else if c.toNat < 32 ∨ c.toNat = 127 then
    "\\u\x7b" ++ String.ofList (Nat.toDigits 16 c.toNat) ++ "\x7d"
  else String.singleton c

def debugText (s : String) : String := "\"" ++ String.join (s.toList.map debugChar) ++ "\""

def debugList (items : List String) : String := "[" ++ String.intercalate ", " items ++ "]"

/-- One lower-case hexadecimal digit. -/
def hexDigit (n : Nat) : Char :=
  if n < 10 then Char.ofNat (48 + n) else Char.ofNat (87 + n)

/-- `hex::encode`. -/
def hexEncode (bs : List UInt8) : String :=
  String.ofList (bs.flatMap fun b =>
    [hexDigit (b.toNat / 16), hexDigit (b.toNat % 16)])

/-! ## Values and tuples -/

/-- A single typed primary-key column value. -/
inductive PkValue where
  | int (v : Int)
  | text (s : String)
  | bytes (b : List UInt8)
  | null
deriving DecidableEq, Repr

namespace PkValue

/-- One-byte type tag used in the canonical encoding. -/
def tag : PkValue → UInt8
  | .int _ => 0x01
  | .text _ => 0x02
  | .bytes _ => 0x03
  | .null => 0x00

/-- The bytes the length prefix measures.  An `i64` is its eight big-endian
two's-complement bytes. -/
def payload : PkValue → List UInt8
  | .int v => beBytes 8 (v % 2 ^ 64).toNat
  | .text s => utf8 s
  | .bytes b => b
  | .null => []

/-- `tag ‖ u32_le(len) ‖ payload`. -/
def encodeInto (v : PkValue) : List UInt8 :=
  v.tag :: (leBytes 4 v.payload.length ++ v.payload)

/-- The derived `Ord`: variants in declaration order, then their content.
Strings compare by their code points, which is the order of their UTF-8
bytes. -/
def sortKey : PkValue → ℕ ×ₗ List ℤ
  | .int v => toLex (0, [v])
  | .text s => toLex (1, s.toList.map fun c => (c.toNat : ℤ))
  | .bytes b => toLex (2, b.map fun x => (x.toNat : ℤ))
  | .null => toLex (3, [])

/-- Rust's `Debug` rendering, used in diagnostics only. -/
def debug : PkValue → String
  | .int v => "Int(" ++ toString v ++ ")"
  | .text s => "Text(" ++ debugText s ++ ")"
  | .bytes b => "Bytes(" ++ toString (b.map UInt8.toNat) ++ ")"
  | .null => "Null"

end PkValue

/-- An ordered, typed primary-key tuple for one row.  `PkTuple::new` refuses an
empty list of columns, so the tuple carries that it is not. -/
structure PkTuple where
  values : List PkValue
  nonempty : values ≠ []
deriving DecidableEq

/-- The tuple of a single-column key. -/
def PkTuple.single (v : PkValue) : PkTuple := ⟨[v], by simp⟩

/-- The number of key columns. -/
def PkTuple.arity (t : PkTuple) : Nat := t.values.length

/-- A count-prefixed sequence of the component encodings. -/
def PkTuple.encodeInto (t : PkTuple) : List UInt8 :=
  leBytes 4 t.values.length ++ t.values.flatMap PkValue.encodeInto

/-- Rust's `Debug` rendering of the key columns. -/
def PkTuple.debug (t : PkTuple) : String :=
  debugList (t.values.map PkValue.debug)

/-- The lowercase hexadecimal digest of an affected-key set. -/
structure PkChecksum where
  hex : String
deriving DecidableEq, Repr

/-- The `sha256:<hex>` form used in the blast-radius record. -/
def PkChecksum.asPrefixed (c : PkChecksum) : String := "sha256:" ++ c.hex

/-- Reasons a key-set checksum cannot be computed. -/
inductive ChecksumError where
  | refused (relation : String)
  | emptyTuple
  | inconsistentArity (expected actual : Nat)
deriving DecidableEq, Repr

def ChecksumError.toString : ChecksumError → String
  | .refused relation =>
      "refused: relation `" ++ relation ++
        "` has no usable primary key / replica identity; writes to PK-less " ++
        "tables are refused (no ctid fallback)"
  | .emptyTuple => "a primary-key tuple must have at least one column"
  | .inconsistentArity expected actual =>
      s!"inconsistent PK arity: expected {expected} columns, got {actual}"

/-! ## The builder -/

/-- Accumulates the affected key tuples of one relation. -/
structure PkSetBuilder where
  relation : String
  /-- The arity of the first tuple pushed. -/
  arity : Option Nat
  tuples : List PkTuple
  /-- The relation is known to have no primary key; `finalize` then refuses. -/
  pkLess : Bool

namespace PkSetBuilder

def forRelation (relation : String) : PkSetBuilder :=
  { relation := relation, arity := none, tuples := [], pkLess := false }

/-- Add one affected row's tuple; its arity must be that of the first one. -/
def push (b : PkSetBuilder) (tuple : PkTuple) : Except ChecksumError PkSetBuilder :=
  match b.arity with
  | none => .ok { b with arity := some tuple.arity, tuples := b.tuples ++ [tuple] }
  | some expected =>
      if expected ≠ tuple.arity then
        .error (.inconsistentArity expected tuple.arity)
      else
        .ok { b with tuples := b.tuples ++ [tuple] }

/-- The byte stream `finalize` feeds to the hash: a domain tag, the number of
tuples, and each tuple behind its own length, in sorted order. -/
def hashInput (tuples : List PkTuple) : List UInt8 :=
  let sorted := tuples.insertionSort fun a b =>
    a.values.map PkValue.sortKey ≤ b.values.map PkValue.sortKey
  utf8 "pgb-pkset-v1" ++ [0] ++ leBytes 8 sorted.length ++
    sorted.flatMap fun t => leBytes 8 t.encodeInto.length ++ t.encodeInto

/-- Canonicalize the tuple set and hash it. -/
def finalize [Sha256] (b : PkSetBuilder) : Except ChecksumError PkChecksum :=
  if b.pkLess then
    .error (.refused b.relation)
  else
    .ok ⟨hexEncode (Sha256.digest (hashInput b.tuples))⟩

/-- The loop of `written_checksum` and of the rehearsal: push every tuple, stop
at the first refusal. -/
def pushAll (b : PkSetBuilder) : List PkTuple → Except ChecksumError PkSetBuilder
  | [] => .ok b
  | t :: ts =>
      match b.push t with
      | .ok b' => b'.pushAll ts
      | .error e => .error e

@[simp] theorem push_pkLess {b b' : PkSetBuilder} {t : PkTuple}
    (h : b.push t = .ok b') : b'.pkLess = b.pkLess := by
  unfold push at h
  split at h
  · cases h; rfl
  · split at h
    · cases h
    · cases h; rfl

theorem pushAll_pkLess {b b' : PkSetBuilder} {ts : List PkTuple}
    (h : b.pushAll ts = .ok b') : b'.pkLess = b.pkLess := by
  induction ts generalizing b with
  | nil => cases h; rfl
  | cons t ts ih =>
      simp only [pushAll] at h
      split at h
      · next b₁ hpush => rw [ih h, push_pkLess hpush]
      · cases h

/-- Once an arity is established, pushing succeeds exactly on the tuples that
have it. -/
private theorem pushAll_ok_iff_of_arity {n : Nat} :
    ∀ (ts : List PkTuple) (b : PkSetBuilder), b.arity = some n →
      ((∃ b', b.pushAll ts = .ok b') ↔ ∀ t ∈ ts, t.arity = n) := by
  intro ts
  induction ts with
  | nil => intro b _; simp [pushAll]
  | cons t ts ih =>
      intro b hb
      by_cases ht : t.arity = n
      · have hpush : b.push t = .ok { b with tuples := b.tuples ++ [t] } := by
          simp [push, hb, ht]
        simp only [pushAll, hpush]
        rw [ih { b with tuples := b.tuples ++ [t] } hb]
        simp [ht]
      · have hpush : b.push t = .error (.inconsistentArity n t.arity) := by
          simp only [push, hb, ne_eq]
          rw [if_pos (fun h => ht h.symm)]
        simp [pushAll, hpush, ht]

/-- Every tuple has as many columns as every other. -/
def UniformArity (ts : List PkTuple) : Prop :=
  ∀ t ∈ ts, ∀ u ∈ ts, t.arity = u.arity

instance (ts : List PkTuple) : Decidable (UniformArity ts) := by
  unfold UniformArity
  infer_instance

/-- A fresh builder takes a list of tuples exactly when they share one
arity. -/
theorem pushAll_ok_iff (relation : String) (ts : List PkTuple) :
    (∃ b, (forRelation relation).pushAll ts = .ok b) ↔ UniformArity ts := by
  cases ts with
  | nil => simp [pushAll, UniformArity]
  | cons t ts =>
      have hpush : (forRelation relation).push t = .ok
          { forRelation relation with arity := some t.arity, tuples := [t] } := rfl
      simp only [pushAll, hpush]
      rw [pushAll_ok_iff_of_arity (n := t.arity) ts _ rfl]
      constructor
      · intro h a ha b hb
        have hof : ∀ c ∈ t :: ts, c.arity = t.arity := by
          intro c hc
          rcases List.mem_cons.mp hc with rfl | hc
          · rfl
          · exact h c hc
        rw [hof a ha, hof b hb]
      · intro h a ha
        exact h a (by simp [ha]) t (by simp)

end PkSetBuilder

end PgBrakes.Ports.KeyChecksum
