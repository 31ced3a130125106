import Mathlib.Algebra.GroupWithZero.Nat
import Mathlib.Order.Bounds.Basic
import Mathlib.Order.MinMax
import Mathlib.Algebra.BigOperators.Group.List.Basic

/-!
# Levels that only fall and sums that stop at a cap

A level is lowered by a sequence of signals, each of which allows a highest level.
What is left at the end is the least of the first level and the levels allowed, so it
does not depend on the order of the signals.  A counter that saturates is the plain sum
cut off at the cap, and it does not depend on the order either.

## Main results

* `isLeast_lowered` — the end of a sequence of signals.
* `lowered_perm` — the order of the signals does not matter.
* `saturated_eq` — a saturating counter.
-/

namespace PgBrakes.Verified.Ratchet

variable {α β : Type}

section Levels

variable [LinearOrder β] (allowed : α → β)

/-- The level after the signals. -/
def lowered (level : β) (signals : List α) : β :=
  signals.foldl (fun b a => min b (allowed a)) level

theorem lowered_cons (level : β) (a : α) (signals : List α) :
    lowered allowed level (a :: signals) = lowered allowed (min level (allowed a)) signals := rfl

theorem lowered_append (level : β) (xs ys : List α) :
    lowered allowed level (xs ++ ys) = lowered allowed (lowered allowed level xs) ys :=
  List.foldl_append

/-- A bound on the first level is a bound to the end. -/
theorem lowered_min (b level : β) (signals : List α) :
    lowered allowed (min b level) signals = min b (lowered allowed level signals) := by
  induction signals generalizing level with
  | nil => rfl
  | cons a signals ih => rw [lowered_cons, min_assoc, ih, lowered_cons]

theorem lowered_le (level : β) (signals : List α) : lowered allowed level signals ≤ level := by
  induction signals generalizing level with
  | nil => exact le_refl level
  | cons a signals ih => exact (ih _).trans (min_le_left _ _)

theorem lowered_le_of_mem (level : β) {a : α} {signals : List α} (ha : a ∈ signals) :
    lowered allowed level signals ≤ allowed a := by
  obtain ⟨xs, ys, rfl⟩ := List.append_of_mem ha
  rw [lowered_append, lowered_cons]
  exact (lowered_le allowed _ ys).trans (min_le_right _ _)

/-- The end is the first level or the level some signal allows. -/
theorem lowered_attained (level : β) (signals : List α) :
    lowered allowed level signals = level ∨
      ∃ a ∈ signals, lowered allowed level signals = allowed a := by
  induction signals generalizing level with
  | nil => exact .inl rfl
  | cons a signals ih =>
      rw [lowered_cons]
      rcases ih (min level (allowed a)) with h | ⟨b, hb, h⟩
      · rcases min_choice level (allowed a) with hmin | hmin
        · exact .inl (h.trans hmin)
        · exact .inr ⟨a, by simp, h.trans hmin⟩
      · exact .inr ⟨b, by simp [hb], h⟩

/-- What is left is the least of the first level and the levels allowed. -/
theorem isLeast_lowered (level : β) (signals : List α) :
    IsLeast {b | b = level ∨ ∃ a ∈ signals, b = allowed a} (lowered allowed level signals) := by
  refine ⟨lowered_attained allowed level signals, ?_⟩
  rintro b (rfl | ⟨a, ha, rfl⟩)
  · exact lowered_le allowed b signals
  · exact lowered_le_of_mem allowed level ha

/-- The order of the signals does not matter. -/
theorem lowered_perm (level : β) {xs ys : List α} (h : xs.Perm ys) :
    lowered allowed level xs = lowered allowed level ys := by
  have hsame : {b | b = level ∨ ∃ a ∈ xs, b = allowed a} =
      {b | b = level ∨ ∃ a ∈ ys, b = allowed a} := by
    ext b
    simp only [Set.mem_ofPred_eq, h.mem_iff]
  have hxs := isLeast_lowered allowed level xs
  rw [hsame] at hxs
  exact hxs.unique (isLeast_lowered allowed level ys)

end Levels

/-- A counter that stops at the cap is the sum cut off there. -/
theorem saturated_eq (cap : Nat) (amount : α → Nat) (n : Nat) (items : List α) (hn : n ≤ cap) :
    items.foldl (fun m a => min (m + amount a) cap) n = min (n + (items.map amount).sum) cap := by
  induction items generalizing n with
  | nil => simp [hn]
  | cons a items ih =>
      rw [List.foldl_cons, ih _ (by omega), List.map_cons, List.sum_cons]
      omega

end PgBrakes.Verified.Ratchet
