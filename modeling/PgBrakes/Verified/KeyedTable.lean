import Std.Data.TreeMap
import Mathlib.Data.List.Perm.Subperm
import Mathlib.Data.List.Nodup

/-!
# Tables keyed by an ordered type

A table is a finite map from keys to rows.  A statement selects rows, replaces
each by a row that may carry another key, and puts the replacements back all at
once.  The facts here are about the keys: what is at a key after rows were put
into a table, and that replacements which collide with nothing and stay on keys
of the table permute the selected keys.

## Main results

* `putAll_of_mem`, `putAll_of_notMem` — what is at a key after rows were put.
* `putAll_toList_perm_iff` — an empty table holds exactly the rows put into it
  when no two of them share a key, and only then.
* `landing_perm` — replacements that stay within the table permute the selected
  keys.
-/

namespace PgBrakes.Verified.KeyedTable

variable {κ β : Type} [Ord κ] [Std.TransOrd κ] [Std.LawfulEqOrd κ]

/-! ## Selecting -/

/-- The rows of a table that satisfy a condition, in key order. -/
def selected (t : Std.TreeMap κ β) (p : κ → β → Bool) : List (κ × β) :=
  t.toList.filter fun row => p row.1 row.2

theorem mem_selected {t : Std.TreeMap κ β} {p : κ → β → Bool} {k : κ} {b : β} :
    (k, b) ∈ selected t p ↔ t[k]? = some b ∧ p k b = true := by
  unfold selected
  rw [List.mem_filter, Std.TreeMap.mem_toList_iff_getElem?_eq_some]

/-! ## Putting -/

/-- Put rows into a table, one after the other. -/
def putAll (t : Std.TreeMap κ β) (rows : List (κ × β)) : Std.TreeMap κ β :=
  rows.foldl (fun t row => t.insert row.1 row.2) t

theorem putAll_of_notMem {rows : List (κ × β)} {k : κ} (t : Std.TreeMap κ β)
    (h : k ∉ rows.map Prod.fst) : (putAll t rows)[k]? = t[k]? := by
  induction rows generalizing t with
  | nil => rfl
  | cons row rows ih =>
      have hne : row.1 ≠ k := fun heq => h (by simp [heq])
      have hrest : k ∉ rows.map Prod.fst := fun hmem => h (by simp [hmem])
      have hput : putAll t (row :: rows) = putAll (t.insert row.1 row.2) rows := rfl
      rw [hput, ih _ hrest, Std.TreeMap.getElem?_insert]
      simp [hne]

theorem putAll_of_mem {rows : List (κ × β)} {k : κ} {b : β} (t : Std.TreeMap κ β)
    (hnodup : (rows.map Prod.fst).Nodup) (h : (k, b) ∈ rows) :
    (putAll t rows)[k]? = some b := by
  induction rows generalizing t with
  | nil => simp at h
  | cons row rows ih =>
      have hput : putAll t (row :: rows) = putAll (t.insert row.1 row.2) rows := rfl
      rw [List.map_cons, List.nodup_cons] at hnodup
      rw [hput]
      rcases List.mem_cons.mp h with heq | hmem
      · subst heq
        rw [putAll_of_notMem _ hnodup.1, Std.TreeMap.getElem?_insert]
        simp
      · exact ih _ hnodup.2 hmem

/-- The keys of a table rows were put into. -/
theorem mem_putAll {rows : List (κ × β)} {t : Std.TreeMap κ β} {k : κ} :
    k ∈ putAll t rows ↔ k ∈ rows.map Prod.fst ∨ k ∈ t := by
  induction rows generalizing t with
  | nil => simp [putAll]
  | cons row rows ih =>
      have hput : putAll t (row :: rows) = putAll (t.insert row.1 row.2) rows := rfl
      rw [hput, ih, Std.TreeMap.mem_insert, Std.LawfulEqCmp.compare_eq_iff_eq, List.map_cons,
        List.mem_cons, eq_comm (a := k)]
      exact or_left_comm.trans or_assoc.symm

/-! ## Holding what was put -/

omit [Std.TransOrd κ] [Std.LawfulEqOrd κ] in
theorem values_eq_map_snd (t : Std.TreeMap κ β) : t.values = t.toList.map Prod.snd := by
  show t.inner.inner.values =
    (Std.DTreeMap.Internal.Impl.Const.toList t.inner.inner).map Prod.snd
  rw [Std.DTreeMap.Internal.Impl.values_eq_map_snd,
    Std.DTreeMap.Internal.Impl.Const.toList_eq_toListModel_map]
  simp

omit [Std.LawfulEqOrd κ] in
theorem nodup_toList_keys (t : Std.TreeMap κ β) : (t.toList.map Prod.fst).Nodup := by
  rw [Std.TreeMap.map_fst_toList_eq_keys]
  exact Std.TreeMap.nodup_keys

/-- Rows with keys of their own end up beside what was there. -/
theorem putAll_toList_perm {rows : List (κ × β)} (t : Std.TreeMap κ β)
    (hnodup : (rows.map Prod.fst).Nodup) (hfresh : ∀ k ∈ rows.map Prod.fst, k ∉ t) :
    (putAll t rows).toList.Perm (rows ++ t.toList) := by
  induction rows generalizing t with
  | nil => exact List.Perm.refl _
  | cons row rows ih =>
      rw [List.map_cons, List.nodup_cons] at hnodup
      have hput : putAll t (row :: rows) = putAll (t.insert row.1 row.2) rows := rfl
      have hrest : ∀ k ∈ rows.map Prod.fst, k ∉ t.insert row.1 row.2 := by
        intro k hk hmem
        rcases Std.TreeMap.mem_insert.mp hmem with heq | hold
        · rw [Std.LawfulEqCmp.eq_of_compare heq] at hnodup
          exact hnodup.1 hk
        · exact hfresh k (List.mem_cons_of_mem _ hk) hold
      have hinsert : (t.insert row.1 row.2).toList.Perm (row :: t.toList) := by
        classical
        refine Std.TreeMap.toList_insert_perm.trans (List.Perm.cons row ?_)
        rw [List.filter_eq_self.mpr]
        intro other hother
        have hnotMem : row.1 ∉ t := hfresh row.1 List.mem_cons_self
        have hne : row.1 ≠ other.1 := by
          intro heq
          apply hnotMem
          rw [heq, Std.TreeMap.mem_iff_isSome_getElem?,
            Std.TreeMap.mem_toList_iff_getElem?_eq_some.mp hother]
          rfl
        simpa using hne
      rw [hput]
      exact (ih _ hnodup.2 hrest).trans
        ((hinsert.append_left rows).trans List.perm_middle)

/-- A table filled from nothing holds exactly its rows when no two of them share
a key, and only then. -/
theorem putAll_toList_perm_iff (rows : List (κ × β)) :
    (putAll (∅ : Std.TreeMap κ β) rows).toList.Perm rows ↔ (rows.map Prod.fst).Nodup := by
  constructor
  · intro h
    exact (h.map Prod.fst).nodup_iff.mp (nodup_toList_keys _)
  · intro h
    have hperm := putAll_toList_perm (∅ : Std.TreeMap κ β) h
      (fun k _ => Std.TreeMap.not_mem_emptyc)
    have hnil : (∅ : Std.TreeMap κ β).toList = [] := rfl
    rwa [hnil, List.append_nil] at hperm

/-! ## Landing -/

/-- Distinct keys, at least as many as were selected, none of them on an
unselected row and all of them keys of the table, are the selected keys in some
order. -/
theorem landing_perm {t : Std.TreeMap κ β} {p : κ → β → Bool} {keys : List κ}
    (hnodup : keys.Nodup) (hlength : (selected t p).length ≤ keys.length)
    (hfree : ∀ k ∈ keys, ∀ b, t[k]? = some b → p k b = true)
    (hkeys : ∀ k ∈ keys, ∃ b, t[k]? = some b) :
    keys.Perm ((selected t p).map Prod.fst) := by
  have hsubset : keys ⊆ (selected t p).map Prod.fst := by
    intro k hk
    obtain ⟨b, hb⟩ := hkeys k hk
    exact List.mem_map.mpr ⟨(k, b), mem_selected.mpr ⟨hb, hfree k hk b hb⟩, rfl⟩
  have hsub : keys.Subperm ((selected t p).map Prod.fst) :=
    List.subperm_of_subset hnodup hsubset
  apply hsub.perm_of_length_le
  rw [List.length_map]
  exact hlength

end PgBrakes.Verified.KeyedTable
