import Mathlib.Data.List.DropRight

/-!
# Texts with doubled quotes

A quoted name stands between quotes, and a quote of the name itself is written
twice.  Code that gets such a text often strips quotes from its two ends; that
gives back the doubled name where the name has no quote at an end, and loses
those quotes where it has one.

## Main results

* `trim_eq_iff` — the texts that become a given one when their outer quotes go.
* `doubled_injective`, `bare_doubled_iff` — doubling loses nothing and adds no
  quote at an end.
-/

namespace PgBrakes.Verified.QuotedText

variable {α : Type*} [DecidableEq α] {q : α} {cs ds : List α}

/-- The text with every quote written twice. -/
def doubled (q : α) (cs : List α) : List α :=
  cs.flatMap fun c => if c = q then [q, q] else [c]

/-- The text without the quotes at its two ends. -/
def trim (q : α) (cs : List α) : List α := (cs.dropWhile (· = q)).rdropWhile (· = q)

/-- No quote stands at an end of the text. -/
structure Bare (q : α) (cs : List α) : Prop where
  head : cs.head? ≠ some q
  last : cs.getLast? ≠ some q

/-! ## Doubling -/

theorem doubled_cons (c : α) (cs : List α) :
    doubled q (c :: cs) = (if c = q then [q, q] else [c]) ++ doubled q cs :=
  List.flatMap_cons

theorem doubled_of_notMem (h : q ∉ cs) : doubled q cs = cs := by
  induction cs with
  | nil => rfl
  | cons c cs ih =>
      rw [List.mem_cons, not_or] at h
      rw [doubled_cons, if_neg (Ne.symm h.1), ih h.2]
      rfl

theorem notMem_of_doubled (h : q ∉ doubled q cs) : q ∉ cs := by
  intro hmem
  exact h (List.mem_flatMap.mpr ⟨q, hmem, by simp⟩)

theorem doubled_injective : Function.Injective (doubled q) := by
  intro cs
  induction cs with
  | nil =>
      intro ds h
      cases ds with
      | nil => rfl
      | cons d ds =>
          rw [doubled_cons] at h
          split at h <;> cases h
  | cons c cs ih =>
      intro ds h
      cases ds with
      | nil =>
          rw [doubled_cons] at h
          split at h <;> cases h
      | cons d ds =>
          rw [doubled_cons, doubled_cons] at h
          -- The first character says how many to compare: two quotes or one other.
          by_cases hc : c = q
          · by_cases hd : d = q
            · rw [if_pos hc, if_pos hd, List.append_cancel_left_eq] at h
              rw [hc, hd, ih h]
            · rw [if_pos hc, if_neg hd] at h
              exact absurd (List.cons.inj h).1.symm hd
          · by_cases hd : d = q
            · rw [if_neg hc, if_pos hd] at h
              exact absurd (List.cons.inj h).1 hc
            · rw [if_neg hc, if_neg hd] at h
              obtain ⟨hhead, htail⟩ := List.cons.inj h
              rw [hhead, ih htail]

theorem head?_doubled : (doubled q cs).head? = cs.head? := by
  cases cs with
  | nil => rfl
  | cons c cs =>
      rw [doubled_cons]
      split
      · next hc => rw [hc]; rfl
      · rfl

theorem doubled_concat (cs : List α) (c : α) :
    doubled q (cs ++ [c]) = doubled q cs ++ (if c = q then [q, q] else [c]) := by
  rw [doubled, List.flatMap_append, List.flatMap_singleton]
  rfl

theorem getLast?_doubled : (doubled q cs).getLast? = cs.getLast? := by
  rcases List.eq_nil_or_concat' cs with rfl | ⟨init, c, rfl⟩
  · rfl
  · rw [doubled_concat, List.getLast?_concat]
    split
    · next hc => simp [hc]
    · simp

theorem bare_doubled_iff : Bare q (doubled q cs) ↔ Bare q cs := by
  constructor
  · rintro ⟨hhead, hlast⟩
    rw [head?_doubled] at hhead
    rw [getLast?_doubled] at hlast
    exact ⟨hhead, hlast⟩
  · rintro ⟨hhead, hlast⟩
    rw [← head?_doubled (q := q)] at hhead
    rw [← getLast?_doubled (q := q)] at hlast
    exact ⟨hhead, hlast⟩

/-! ## Trimming -/

theorem dropWhile_of_head (h : cs.head? ≠ some q) : cs.dropWhile (· = q) = cs := by
  cases cs with
  | nil => rfl
  | cons c cs =>
      have hc : c ≠ q := fun heq => h (by rw [heq]; rfl)
      rw [List.dropWhile_cons_of_neg (by simpa using hc)]

theorem rdropWhile_of_last (h : cs.getLast? ≠ some q) : cs.rdropWhile (· = q) = cs := by
  rw [List.rdropWhile, dropWhile_of_head (by rwa [List.head?_reverse]), List.reverse_reverse]

theorem dropWhile_replicate_append (m : Nat) (cs : List α) :
    (List.replicate m q ++ cs).dropWhile (· = q) = cs.dropWhile (· = q) := by
  induction m with
  | zero => rfl
  | succ m ih =>
      rw [List.replicate_succ, List.cons_append, List.dropWhile_cons_of_pos (by simp), ih]

/-- Every quote is dropped, and nothing else is there. -/
theorem dropWhile_replicate (m : Nat) : (List.replicate m q).dropWhile (· = q) = [] := by
  have h := dropWhile_replicate_append (q := q) m []
  rwa [List.append_nil] at h

/-- What was dropped is a run of quotes. -/
theorem eq_replicate_append_dropWhile (cs : List α) :
    ∃ m, cs = List.replicate m q ++ cs.dropWhile (· = q) := by
  refine ⟨(cs.takeWhile (· = q)).length, ?_⟩
  have hrun : cs.takeWhile (· = q) = List.replicate (cs.takeWhile (· = q)).length q :=
    List.eq_replicate_length.mpr fun c hc => by simpa using List.mem_takeWhile_imp hc
  rw [← hrun, List.takeWhile_append_dropWhile]

theorem head?_dropWhile_ne : (cs.dropWhile (· = q)).head? ≠ some q := by
  intro h
  have hnot := List.head?_dropWhile_not (· = q) cs
  rw [h] at hnot
  simp at hnot

theorem bare_trim : Bare q (trim q cs) := by
  refine ⟨fun h => ?_, fun h => ?_⟩
  · obtain ⟨rest, hrest⟩ := List.rdropWhile_prefix (· = q) (cs.dropWhile (· = q))
    have hne : (cs.dropWhile (· = q)).head? ≠ some q := head?_dropWhile_ne
    refine hne ?_
    rw [← hrest]
    rw [trim] at h
    rw [List.head?_append, h]
    rfl
  · rw [trim, List.rdropWhile, List.getLast?_reverse] at h
    exact head?_dropWhile_ne h

/-- A text trims to another exactly when it is that text between quotes, however
many, and that text has no quote at an end. -/
theorem trim_eq_iff : trim q cs = ds ↔
    Bare q ds ∧ ∃ m n, cs = List.replicate m q ++ ds ++ List.replicate n q := by
  constructor
  · rintro rfl
    obtain ⟨m, hfront⟩ := eq_replicate_append_dropWhile (q := q) cs
    obtain ⟨n, hback⟩ := eq_replicate_append_dropWhile (q := q) (cs.dropWhile (· = q)).reverse
    have hback' := congrArg List.reverse hback
    rw [List.reverse_reverse, List.reverse_append, List.reverse_replicate] at hback'
    refine ⟨bare_trim, m, n, ?_⟩
    rw [List.append_assoc, trim, List.rdropWhile, ← hback', ← hfront]
  · rintro ⟨hbare, m, n, rfl⟩
    rw [trim, List.append_assoc, dropWhile_replicate_append]
    cases ds with
    | nil =>
        rw [List.nil_append, dropWhile_replicate]
        rfl
    | cons d ds =>
        rw [dropWhile_of_head (by simpa using hbare.head), List.rdropWhile, List.reverse_append,
          List.reverse_replicate, dropWhile_replicate_append]
        exact rdropWhile_of_last hbare.last

end PgBrakes.Verified.QuotedText
