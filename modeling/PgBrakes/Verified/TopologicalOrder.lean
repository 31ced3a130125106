import Mathlib.Data.List.Sort
import Mathlib.Logic.Relation

/-!
# Lists that put what is referenced first

A list of nodes is a topological order of a reference relation when every node
stands behind the nodes it references.  Two facts are needed of it: walking the
list from the front never meets a node before what it references, and for one
node followed by the others in ascending order the property is a condition on
each reference alone.

## Main results

* `Topological.of_walk` — the walk from the front, stopped anywhere.
* `topological_cons_iff` — a first node and a sorted rest.
-/

namespace PgBrakes.Verified.TopologicalOrder

variable {α : Type} [DecidableEq α]

/-- Every node of the list stands behind the nodes it references. -/
def Topological (refs : α → α → Prop) (order : List α) : Prop :=
  ∀ child ∈ order, ∀ parent ∈ order, refs child parent →
    order.idxOf parent < order.idxOf child

/-- No node reaches itself. -/
def Acyclic (refs : α → α → Prop) : Prop := ∀ a, ¬ Relation.TransGen refs a a

omit [DecidableEq α] in
/-- A reference that always descends in rank is acyclic. -/
theorem acyclic_of_rank {refs : α → α → Prop} (rank : α → Nat)
    (h : ∀ child parent, refs child parent → rank parent < rank child) : Acyclic refs := by
  intro a ha
  have hlt : ∀ b c, Relation.TransGen refs b c → rank c < rank b := by
    intro b c hbc
    induction hbc with
    | single hstep => exact h _ _ hstep
    | tail _ hstep ih => exact lt_trans (h _ _ hstep) ih
  exact lt_irrefl _ (hlt a a ha)

/-- Walking a topological order from the front and stopping anywhere, whatever
was met had its references met before. -/
theorem Topological.of_walk {refs : α → α → Prop} {order met : List α}
    (h : Topological refs order) (hmet : met <+: order) {child parent : α}
    (hchild : child ∈ met) (hparent : parent ∈ order) (href : refs child parent) :
    parent ∈ met ∧ met.idxOf parent < met.idxOf child := by
  obtain ⟨rest, rfl⟩ := hmet
  have hlt := h child (List.mem_append_left _ hchild) parent hparent href
  rw [List.idxOf_append_of_mem hchild] at hlt
  have hmem : parent ∈ met := by
    by_contra hno
    rw [List.idxOf_append_of_notMem hno] at hlt
    have := List.idxOf_lt_length_of_mem hchild
    omega
  rw [List.idxOf_append_of_mem hmem] at hlt
  exact ⟨hmem, hlt⟩

/-- In a strictly ascending list the positions follow the order. -/
theorem idxOf_lt_idxOf_iff [LinearOrder α] {l : List α} (hsorted : l.Pairwise (· < ·))
    {a b : α} (ha : a ∈ l) (hb : b ∈ l) : l.idxOf a < l.idxOf b ↔ a < b := by
  induction l with
  | nil => cases ha
  | cons x l ih =>
      obtain ⟨hx, hl⟩ := List.pairwise_cons.mp hsorted
      by_cases hax : a = x
      · subst hax
        rw [List.idxOf_cons_self]
        by_cases hbx : b = a
        · subst hbx
          simp
        · have hb' : b ∈ l := (List.mem_cons.mp hb).resolve_left hbx
          rw [List.idxOf_cons_ne _ (Ne.symm hbx)]
          exact ⟨fun _ => hx b hb', fun _ => Nat.succ_pos _⟩
      · have ha' : a ∈ l := (List.mem_cons.mp ha).resolve_left hax
        rw [List.idxOf_cons_ne _ (Ne.symm hax)]
        by_cases hbx : b = x
        · subst hbx
          rw [List.idxOf_cons_self]
          have hlt := hx a ha'
          exact ⟨fun h => absurd h (Nat.not_lt_zero _), fun h => absurd h (lt_asymm hlt)⟩
        · have hb' : b ∈ l := (List.mem_cons.mp hb).resolve_left hbx
          rw [List.idxOf_cons_ne _ (Ne.symm hbx)]
          exact Nat.succ_lt_succ_iff.trans (ih hl ha' hb')

/-- For a first node and a sorted rest, the order is topological exactly when
nothing is referenced by the first node and every other reference goes to the
first node or downwards. -/
theorem topological_cons_iff [LinearOrder α] {refs : α → α → Prop} {top : α} {rest : List α}
    (hsorted : rest.Pairwise (· < ·)) (htop : top ∉ rest) :
    Topological refs (top :: rest) ↔
      ∀ child ∈ top :: rest, ∀ parent ∈ top :: rest, refs child parent →
        child ≠ top ∧ (parent = top ∨ parent < child) := by
  have hpos : ∀ child ∈ top :: rest, ∀ parent ∈ top :: rest,
      ((top :: rest).idxOf parent < (top :: rest).idxOf child ↔
        child ≠ top ∧ (parent = top ∨ parent < child)) := by
    intro child hchild parent hparent
    by_cases hct : child = top
    · subst hct
      simp
    have hc : child ∈ rest := (List.mem_cons.mp hchild).resolve_left hct
    rw [List.idxOf_cons_ne _ (Ne.symm hct)]
    by_cases hpt : parent = top
    · subst hpt
      simp [hct]
    have hp : parent ∈ rest := (List.mem_cons.mp hparent).resolve_left hpt
    rw [List.idxOf_cons_ne _ (Ne.symm hpt), Nat.succ_lt_succ_iff,
      idxOf_lt_idxOf_iff hsorted hp hc]
    simp [hct, hpt]
  unfold Topological
  constructor
  · intro h child hc parent hp href
    exact (hpos child hc parent hp).mp (h child hc parent hp href)
  · intro h child hc parent hp href
    exact (hpos child hc parent hp).mpr (h child hc parent hp href)

end PgBrakes.Verified.TopologicalOrder
