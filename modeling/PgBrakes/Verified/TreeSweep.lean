/-!
# Sweeping part of a tree

A tree whose nodes have children of two kinds: those a traversal goes on to, and
those it leaves out.  A *sweep* checks a node and goes on to the followed children
only.  Nothing is said about what the nodes are; a size that falls towards the
children is all that makes it a tree.

## Main results

* `Shape.sweep_of_forall` — where every node passes the check, the sweep passes.
* `Shape.forall_iff` — every node of the tree passes the check exactly when the
  sweep passes at the root and at every child that some node leaves out.
-/

namespace PgBrakes.Verified.TreeSweep

universe u

/-- The children of each node, and the size that falls towards them. -/
structure Shape (N : Type u) where
  followed : N → List N
  skipped : N → List N
  size : N → Nat
  size_followed : ∀ n, ∀ c ∈ followed n, size c < size n
  size_skipped : ∀ n, ∀ c ∈ skipped n, size c < size n

variable {N : Type u} (T : Shape N)

/-- `T.Within n m`: the node `m` is `n` or stands somewhere below it. -/
inductive Shape.Within : N → N → Prop where
  | self (n : N) : Within n n
  | followed {n c m : N} (hc : c ∈ T.followed n) (h : Within c m) : Within n m
  | skipped {n c m : N} (hc : c ∈ T.skipped n) (h : Within c m) : Within n m

/-- `sweep` checks a node and goes on to its followed children. -/
def Shape.IsSweep (check sweep : N → Bool) : Prop :=
  ∀ n, sweep n = (check n && (T.followed n).all sweep)

variable {T} {check sweep : N → Bool}

/-- Induction over the children. -/
theorem Shape.induction {P : N → Prop} (T : Shape N)
    (h : ∀ n, (∀ c ∈ T.followed n, P c) → (∀ c ∈ T.skipped n, P c) → P n) (n : N) : P n :=
  h n (fun c _ => Shape.induction T h c) (fun c _ => Shape.induction T h c)
termination_by T.size n
decreasing_by
  · exact T.size_followed n c ‹_›
  · exact T.size_skipped n c ‹_›

theorem Shape.IsSweep.check_of_sweep (hs : T.IsSweep check sweep) {n : N} (h : sweep n = true) :
    check n = true := by
  rw [hs n, Bool.and_eq_true] at h
  exact h.1

theorem Shape.IsSweep.sweep_followed (hs : T.IsSweep check sweep) {n c : N}
    (h : sweep n = true) (hc : c ∈ T.followed n) : sweep c = true := by
  rw [hs n, Bool.and_eq_true] at h
  exact List.all_eq_true.mp h.2 c hc

/-- Where every node passes the check, the sweep passes. -/
theorem Shape.sweep_of_forall (hs : T.IsSweep check sweep) (n : N)
    (h : ∀ m, T.Within n m → check m = true) : sweep n = true := by
  induction n using Shape.induction T with
  | h n ihfollowed _ =>
      have hall : (T.followed n).all sweep = true := by
        rw [List.all_eq_true]
        intro c hc
        exact ihfollowed c hc fun m hm => h m (.followed hc hm)
      rw [hs n, h n (.self n), hall]
      rfl

/-- A sweep that passes at the root and wherever it was left out passes at every
node. -/
theorem Shape.sweep_within (hs : T.IsSweep check sweep) {root : N} (hroot : sweep root = true)
    (hskipped : ∀ n, T.Within root n → ∀ c ∈ T.skipped n, sweep c = true) {m : N}
    (hm : T.Within root m) : sweep m = true := by
  induction hm with
  | self n => exact hroot
  | followed hc _ ih =>
      exact ih (hs.sweep_followed hroot hc) fun n hn => hskipped n (.followed hc hn)
  | skipped hc _ ih =>
      exact ih (hskipped _ (.self _) _ hc) fun n hn => hskipped n (.skipped hc hn)

theorem Shape.Within.trans {n c m : N} (h : T.Within n c) (hm : T.Within c m) : T.Within n m := by
  induction h with
  | self n => exact hm
  | followed hc _ ih => exact .followed hc (ih hm)
  | skipped hc _ ih => exact .skipped hc (ih hm)

/-- Every node passes the check exactly when the sweep passes at the root and at
every child that some node leaves out. -/
theorem Shape.forall_iff (hs : T.IsSweep check sweep) (root : N) :
    (∀ m, T.Within root m → check m = true) ↔
      sweep root = true ∧ ∀ n, T.Within root n → ∀ c ∈ T.skipped n, sweep c = true := by
  constructor
  · intro h
    have hbelow : ∀ n, T.Within root n → sweep n = true := fun n hn =>
      sweep_of_forall hs n fun m hm => h m (hn.trans hm)
    exact ⟨hbelow root (.self root), fun n hn c hc =>
      hbelow c (hn.trans (.skipped hc (.self c)))⟩
  · rintro ⟨hroot, hskipped⟩ m hm
    exact hs.check_of_sweep (sweep_within hs hroot hskipped hm)

end PgBrakes.Verified.TreeSweep
