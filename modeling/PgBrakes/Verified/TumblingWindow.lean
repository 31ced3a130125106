import Mathlib.Algebra.Group.Nat.Defs
import Mathlib.Algebra.GroupWithZero.Nat

/-!
# Tumbling windows and the intervals they do not line up with

A meter that starts over when its window has passed bounds what falls into one
of its own windows.  An observer's interval of the same length starts where the
observer likes, and may take the end of one window and the beginning of the
next.  It never reaches a third one: between two windows there is at least one
full length, and the events of the first window lie before its end.

A `Slot` is an event with its time and the window it was counted in, by number
and by the instant the window was opened at.  `Spaced` says what a meter with
windows of one length owes about them.

## Main results

* `Spaced.cons` — how one more event, before the others, keeps the spacing.
* `Spaced.total_filter_le` — a bound on every window, doubled, bounds every
  interval of the windows' length.
-/

namespace PgBrakes.Verified.TumblingWindow

variable {α : Type}

/-- An event, the time it happened, and the window it was counted in. -/
structure Slot (α : Type) where
  item : α
  time : Nat
  window : Nat
  anchor : Nat

/-- The sum of a measure over the events. -/
def total (amount : α → Nat) (slots : List (Slot α)) : Nat :=
  (slots.map fun s => amount s.item).sum

/-- The events of one window. -/
def ofWindow (k : Nat) (slots : List (Slot α)) : List (Slot α) :=
  slots.filter fun s => s.window = k

/-- The events of an interval, both ends included. -/
def during (first last : Nat) (slots : List (Slot α)) : List (Slot α) :=
  slots.filter fun s => first ≤ s.time ∧ s.time ≤ last

@[simp] theorem total_nil (amount : α → Nat) : total amount [] = 0 := rfl

@[simp] theorem total_cons (amount : α → Nat) (s : Slot α) (slots : List (Slot α)) :
    total amount (s :: slots) = amount s.item + total amount slots := rfl

theorem ofWindow_cons (k : Nat) (s : Slot α) (slots : List (Slot α)) :
    ofWindow k (s :: slots) =
      if s.window = k then s :: ofWindow k slots else ofWindow k slots := by
  rw [ofWindow, List.filter_cons]
  simp only [decide_eq_true_eq]
  rfl

/-- Nothing was counted in a window before the first one. -/
theorem total_ofWindow_eq_zero (amount : α → Nat) {k : Nat} {slots : List (Slot α)}
    (h : ∀ s ∈ slots, k < s.window) : total amount (ofWindow k slots) = 0 := by
  have hnil : ofWindow k slots = [] := by
    rw [ofWindow, List.filter_eq_nil_iff]
    intro s hs
    have := h s hs
    simp only [decide_eq_true_eq]
    omega
  rw [hnil, total_nil]

/-! ## Spacing -/

/-- The events lie in windows of the given length, and two windows are at least
that length apart. -/
structure Spaced (length : Nat) (slots : List (Slot α)) : Prop where
  inside : ∀ s ∈ slots, s.anchor ≤ s.time ∧ (0 < length → s.time < s.anchor + length)
  apart : ∀ s ∈ slots, ∀ s' ∈ slots, s.window < s'.window → s.anchor + length ≤ s'.anchor

theorem Spaced.nil (length : Nat) : Spaced length ([] : List (Slot α)) :=
  ⟨fun _ hs => absurd hs List.not_mem_nil, fun _ hs => absurd hs List.not_mem_nil⟩

/-- One more event before the others. -/
theorem Spaced.cons {length : Nat} {slots : List (Slot α)} (h : Spaced length slots)
    {s : Slot α} (hinside : s.anchor ≤ s.time ∧ (0 < length → s.time < s.anchor + length))
    (hfirst : ∀ s' ∈ slots, s.window ≤ s'.window)
    (hapart : ∀ s' ∈ slots, s.window < s'.window → s.anchor + length ≤ s'.anchor) :
    Spaced length (s :: slots) := by
  constructor
  · intro s' hs'
    rcases List.mem_cons.mp hs' with rfl | hs'
    · exact hinside
    · exact h.inside s' hs'
  · intro a ha b hb hlt
    rcases List.mem_cons.mp ha with rfl | ha'
    · rcases List.mem_cons.mp hb with rfl | hb'
      · omega
      · exact hapart b hb' hlt
    · rcases List.mem_cons.mp hb with rfl | hb'
      · have := hfirst a ha'
        omega
      · exact h.apart a ha' b hb' hlt

/-- Events two windows apart are further apart than a window is long. -/
theorem Spaced.lt_of_two_windows {length : Nat} {slots : List (Slot α)}
    (h : Spaced length slots) (hpos : 0 < length) {a b c : Slot α} (ha : a ∈ slots)
    (hb : b ∈ slots) (hc : c ∈ slots) (hab : a.window < b.window)
    (hbc : b.window < c.window) : a.time + length < c.time := by
  have h₁ := (h.inside a ha).2 hpos
  have h₂ := h.apart a ha b hb hab
  have h₃ := h.apart b hb c hc hbc
  have h₄ := (h.inside c hc).1
  omega

/-! ## Intervals -/

/-- Events of two windows sum to no more than the two windows do. -/
theorem total_le_add {amount : α → Nat} {k k' : Nat} {p : Slot α → Bool} :
    ∀ {slots : List (Slot α)}, (∀ s ∈ slots, p s → s.window = k ∨ s.window = k') →
      total amount (slots.filter p) ≤
        total amount (ofWindow k slots) + total amount (ofWindow k' slots) := by
  intro slots
  induction slots with
  | nil =>
      intro _
      exact Nat.zero_le _
  | cons s slots ih =>
      intro h
      have hrest := ih fun s' hs' => h s' (List.mem_cons_of_mem s hs')
      have hhead := h s List.mem_cons_self
      rw [ofWindow_cons, ofWindow_cons, List.filter_cons]
      split
      · next hp =>
          rcases hhead hp with hk | hk
          · rw [if_pos hk]
            split <;> simp only [total_cons] <;> omega
          · rw [if_pos hk]
            split <;> simp only [total_cons] <;> omega
      · have hk : ∀ j, total amount (ofWindow j slots) ≤
            total amount (if s.window = j then s :: ofWindow j slots else ofWindow j slots) := by
          intro j
          split
          · exact Nat.le_add_left _ _
          · exact Nat.le_refl _
        exact Nat.le_trans hrest (Nat.add_le_add (hk k) (hk k'))

/-- The events of an interval of a window's length come from two windows. -/
theorem Spaced.two_windows {length : Nat} {slots : List (Slot α)} (h : Spaced length slots)
    (hpos : 0 < length) (first : Nat) :
    ∃ k k', ∀ s ∈ slots, first ≤ s.time ∧ s.time ≤ first + length →
      s.window = k ∨ s.window = k' := by
  by_cases hpair : ∃ a ∈ during first (first + length) slots,
      ∃ b ∈ during first (first + length) slots, a.window < b.window
  · obtain ⟨a, ha, b, hb, hab⟩ := hpair
    simp only [during, List.mem_filter, decide_eq_true_eq] at ha hb
    refine ⟨a.window, b.window, fun c hc hin => ?_⟩
    -- A third window would put its event more than a length away from another.
    rcases Nat.lt_trichotomy c.window a.window with hlt | heq | hgt
    · have := h.lt_of_two_windows hpos hc ha.1 hb.1 hlt hab
      omega
    · exact .inl heq
    · rcases Nat.lt_trichotomy c.window b.window with hlt' | heq' | hgt'
      · have := h.lt_of_two_windows hpos ha.1 hc hb.1 hgt hlt'
        omega
      · exact .inr heq'
      · have := h.lt_of_two_windows hpos ha.1 hb.1 hc hab hgt'
        omega
  · rcases hevents : during first (first + length) slots with _ | ⟨a, rest⟩
    · refine ⟨0, 0, fun s hs hin => ?_⟩
      have hmem : s ∈ during first (first + length) slots :=
        List.mem_filter.mpr ⟨hs, decide_eq_true hin⟩
      rw [hevents] at hmem
      cases hmem
    · refine ⟨a.window, a.window, fun s hs hin => ?_⟩
      have ha : a ∈ during first (first + length) slots := by
        rw [hevents]
        exact List.mem_cons_self
      have hmem : s ∈ during first (first + length) slots :=
        List.mem_filter.mpr ⟨hs, decide_eq_true hin⟩
      have h₁ : ¬ a.window < s.window := fun hlt => hpair ⟨a, ha, s, hmem, hlt⟩
      have h₂ : ¬ s.window < a.window := fun hlt => hpair ⟨s, hmem, a, ha, hlt⟩
      omega

/-- A bound on every window, doubled, bounds the events of every interval of their
length, however its ends are counted. -/
theorem Spaced.total_filter_le {length cap : Nat} {amount : α → Nat} {slots : List (Slot α)}
    (h : Spaced length slots) (hpos : 0 < length)
    (hcap : ∀ k, total amount (ofWindow k slots) ≤ cap) (first : Nat) {p : Slot α → Bool}
    (hp : ∀ s, p s → first ≤ s.time ∧ s.time ≤ first + length) :
    total amount (slots.filter p) ≤ 2 * cap := by
  obtain ⟨k, k', htwo⟩ := h.two_windows hpos first
  calc total amount (slots.filter p)
      ≤ total amount (ofWindow k slots) + total amount (ofWindow k' slots) :=
        total_le_add fun s hs hin => htwo s hs (hp s hin)
    _ ≤ cap + cap := Nat.add_le_add (hcap k) (hcap k')
    _ = 2 * cap := (Nat.two_mul cap).symm

end PgBrakes.Verified.TumblingWindow
