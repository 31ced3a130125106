import Mathlib.Algebra.Group.Nat.Defs

/-!
# Self-delimiting byte encodings

A record is hashed by feeding its fields to the hash one after the other.  The
hash only pins the record down when the byte stream does, that is when no two
records give the same stream.  Field by field that is the property here: an
encoding is *self-delimiting* when a decoder that stands at its first byte can
tell where it ends, whatever follows.

`IsSelfDelimiting S enc` carries a domain `S`: a fixed-width number only reads
back when it fits its width, and a length prefix only when the length does.

## Main results

* `selfDelimiting_beBytes` — fixed-width numbers.
* `selfDelimiting_lengthPrefixed` — a length prefix followed by the bytes of
  any injective body.
* `flatMap_cut` — as many self-delimiting items on both sides read back one by
  one.
* `flatMap_injective` — where no item is empty, the end of the stream says how
  many there are.
-/

namespace PgBrakes.Verified.SelfDelimiting

/-- `enc` is self-delimiting on `S`: equal streams start with equal values, and
what follows them is equal too. -/
def IsSelfDelimiting {α : Type} (S : α → Prop) (enc : α → List UInt8) : Prop :=
  ∀ ⦃a b : α⦄, S a → S b → ∀ ⦃x y : List UInt8⦄,
    enc a ++ x = enc b ++ y → a = b ∧ x = y

/-! ## Fixed-width numbers -/

/-- The `width` low bytes of `n`, least significant first (`to_le_bytes`). -/
def leBytes : Nat → Nat → List UInt8
  | 0, _ => []
  | width + 1, n => UInt8.ofNat n :: leBytes width (n / 256)

/-- The `width` low bytes of `n`, most significant first (`to_be_bytes`). -/
def beBytes (width n : Nat) : List UInt8 := (leBytes width n).reverse

@[simp] theorem leBytes_length (width n : Nat) :
    (leBytes width n).length = width := by
  induction width generalizing n with
  | zero => rfl
  | succ width ih => simp [leBytes, ih]

@[simp] theorem beBytes_length (width n : Nat) :
    (beBytes width n).length = width := by
  simp [beBytes]

theorem leBytes_injective {width n m : Nat} (hn : n < 256 ^ width)
    (hm : m < 256 ^ width) (h : leBytes width n = leBytes width m) : n = m := by
  induction width generalizing n m with
  | zero => simp only [Nat.pow_zero] at hn hm; omega
  | succ width ih =>
      simp only [leBytes, List.cons.injEq] at h
      have hlow : n % 256 = m % 256 := by
        have := congrArg UInt8.toNat h.1
        simpa using this
      have hhigh : n / 256 = m / 256 := by
        rw [Nat.pow_succ] at hn hm
        exact ih (by omega) (by omega) h.2
      omega

/-- Encodings of one fixed length that are injective are self-delimiting: the
length says where to cut. -/
theorem selfDelimiting_of_length {α : Type} {S : α → Prop} {enc : α → List UInt8}
    (n : Nat) (hlen : ∀ a, (enc a).length = n)
    (hinj : ∀ a b, S a → S b → enc a = enc b → a = b) :
    IsSelfDelimiting S enc := by
  intro a b ha hb x y h
  obtain ⟨henc, hrest⟩ := List.append_inj h (by rw [hlen, hlen])
  exact ⟨hinj a b ha hb henc, hrest⟩

theorem selfDelimiting_beBytes (width : Nat) :
    IsSelfDelimiting (· < 256 ^ width) (beBytes width) :=
  selfDelimiting_of_length width (beBytes_length width)
    fun _ _ ha hb h => leBytes_injective ha hb (List.reverse_inj.mp h)

theorem selfDelimiting_leBytes (width : Nat) :
    IsSelfDelimiting (· < 256 ^ width) (leBytes width) :=
  selfDelimiting_of_length width (leBytes_length width)
    fun _ _ ha hb h => leBytes_injective ha hb h

/-! ## Length prefixes and lists -/

/-- A length prefix followed by the body it measures. -/
theorem selfDelimiting_lengthPrefixed {α : Type} {S : α → Prop}
    {size : Nat → List UInt8} {bound : Nat} {body : α → List UInt8}
    (hsize : IsSelfDelimiting (· < bound) size)
    (hfits : ∀ a, S a → (body a).length < bound)
    (hbody : ∀ a b, S a → S b → body a = body b → a = b) :
    IsSelfDelimiting S (fun a => size (body a).length ++ body a) := by
  intro a b ha hb x y h
  simp only [List.append_assoc] at h
  obtain ⟨hlen, hrest⟩ := hsize (hfits a ha) (hfits b hb) h
  obtain ⟨hcut, htail⟩ := List.append_inj hrest hlen
  exact ⟨hbody a b ha hb hcut, htail⟩

/-- Two lists of the same length whose items are self-delimiting: the items
read back one by one. -/
theorem flatMap_cut {α : Type} {S : α → Prop} {enc : α → List UInt8}
    (henc : IsSelfDelimiting S enc) :
    ∀ {as bs : List α}, as.length = bs.length →
      (∀ a ∈ as, S a) → (∀ b ∈ bs, S b) →
      ∀ {x y : List UInt8}, as.flatMap enc ++ x = bs.flatMap enc ++ y →
        as = bs ∧ x = y := by
  intro as
  induction as with
  | nil =>
      intro bs hlen _ _ x y h
      cases bs with
      | nil => exact ⟨rfl, by simpa using h⟩
      | cons b bs => simp at hlen
  | cons a as ih =>
      intro bs hlen ha hb x y h
      cases bs with
      | nil => simp at hlen
      | cons b bs =>
          simp only [List.flatMap_cons, List.append_assoc] at h
          obtain ⟨hhead, htail⟩ := henc (ha a (by simp)) (hb b (by simp)) h
          obtain ⟨hrest, hxy⟩ := ih (by simpa using hlen)
            (fun c hc => ha c (by simp [hc])) (fun c hc => hb c (by simp [hc])) htail
          exact ⟨by rw [hhead, hrest], hxy⟩

/-- A stream of self-delimiting items that are never empty reads back without
being told how many there are. -/
theorem flatMap_injective {α : Type} {S : α → Prop} {enc : α → List UInt8}
    (henc : IsSelfDelimiting S enc) (hne : ∀ a, enc a ≠ []) :
    ∀ {as bs : List α}, (∀ a ∈ as, S a) → (∀ b ∈ bs, S b) →
      as.flatMap enc = bs.flatMap enc → as = bs := by
  intro as
  induction as with
  | nil =>
      intro bs _ _ h
      cases bs with
      | nil => rfl
      | cons b bs => exact absurd (List.append_eq_nil_iff.mp h.symm).1 (hne b)
  | cons a as ih =>
      intro bs ha hb h
      cases bs with
      | nil => exact absurd (List.append_eq_nil_iff.mp h).1 (hne a)
      | cons b bs =>
          obtain ⟨hhead, htail⟩ := henc (ha a (by simp)) (hb b (by simp)) h
          have hrest := ih (fun c hc => ha c (by simp [hc]))
            (fun c hc => hb c (by simp [hc])) htail
          rw [hhead, hrest]

end PgBrakes.Verified.SelfDelimiting
