import PgBrakes.Verified.TopologicalOrder
import PgBrakes.Ports.GuardedApplyAtomicity
import PgBrakes.Ports.InverseShape
import PgBrakes.Ports.RevertRouting

/-!
# When the inverse's relation order is a foreign-key order

The revert re-inserts relation by relation, in the order the inverse lists
them, and a child row needs its parent row first.  The order is the target
followed by the predicted cascades, and those come out of a map in the order of
their names.  Nothing on the way looks at a foreign key, so the order is right
when the names happen to be.

## Main results

* `fkOrder_topological_iff` — the order puts every referenced relation first,
  and every revert inserts parents before children, exactly when each reference
  goes to the target or to a cascade with a smaller name.
-/

namespace PgBrakes.Ports.InverseOrder

open PgBrakes.Verified.TopologicalOrder
open PgBrakes.Ports.KeyChecksum
open PgBrakes.Ports.TypedInverse
open PgBrakes.Ports.BlastRecord
open PgBrakes.Ports.GuardedApply
open PgBrakes.Ports.InverseShape
open PgBrakes.Ports.Revert
open PgBrakes.Ports.RevertRouting

/-- In a log of restores, whatever relation was restored had every relation it
references restored before. -/
def RestoresParentsFirst (refs : String → String → Prop) (order : List String)
    (log : List RevertCall) : Prop :=
  ∀ child ∈ (restores log).map Prod.fst, ∀ parent ∈ order, refs child parent →
    parent ∈ (restores log).map Prod.fst ∧
      ((restores log).map Prod.fst).idxOf parent < ((restores log).map Prod.fst).idxOf child

/-- Each reference among the relations goes from a cascade to the target, or to
a cascade whose name is smaller. -/
def NamesFollowReferences (refs : String → String → Prop) (target : String)
    (cascades : List String) : Prop :=
  ∀ child ∈ target :: cascades, ∀ parent ∈ target :: cascades, refs child parent →
    child ≠ target ∧ (parent = target ∨ parent < child)

/-- The inverse's order is a foreign-key order, for the list and for every
revert, exactly when the names follow the references. -/
theorem fkOrder_topological_iff {dryRun : BlastRadius} {target : String}
    {predicted : PredictedBlastRadius}
    (h : PredictedBlastRadius.fromGrant dryRun target = .ok predicted)
    (kind : WriteKind) (forward : ForwardResult) (refs : String → String → Prop) :
    (Topological refs (buildInverse kind target predicted forward).fkOrder ∧
      ∀ (ω : Type) (conn : RevertConn ω) (w : ω),
        RestoresParentsFirst refs (buildInverse kind target predicted forward).fkOrder
          (revert (buildInverse kind target predicted forward) conn ⟨w, []⟩).2.log) ↔
      NamesFollowReferences refs target (cascadeNames predicted) := by
  have hiff : Topological refs (buildInverse kind target predicted forward).fkOrder ↔
      NamesFollowReferences refs target (cascadeNames predicted) := by
    rw [buildInverse_eq]
    exact topological_cons_iff (cascades_sorted h) (target_notMem_cascades h)
  constructor
  · rintro ⟨htop, -⟩
    exact hiff.mp htop
  · intro hnames
    have htop := hiff.mpr hnames
    refine ⟨htop, fun ω conn w child hchild parent hparent href => ?_⟩
    exact htop.of_walk (restores_order _ conn w) hchild hparent href

/-! ## Cascades that reference one another -/

/-- The dry-run of a `DELETE` on `public.users` that cascades to its children
`public.orders` and `public.items`. -/
def cascadeRadius : BlastRadius :=
  { proposalId := "p1"
    cloneLsn := "0/1"
    stalenessLsnBytes := 0
    affected :=
      { byTable := .ofList [("public.users", 1)]
        cascadeByTable := .ofList [("public.items", 1), ("public.orders", 1)]
        pkSetChecksum := .ofList [("public.users", "sha256:00"), ("public.items", "sha256:01"),
          ("public.orders", "sha256:02")]
        effectByTable := .ofList [("public.users", (⟨0, 0, 1⟩ : OpCounts)),
          ("public.items", ⟨0, 0, 1⟩), ("public.orders", ⟨0, 0, 1⟩)]
        totalRows := 3 }
    triggersFired := []
    locks := []
    maxLockMode := .rowExclusiveLock
    durationMs := 1
    walBytes := 0
    constraintViolations := []
    reversible := true
    inverseKind := .insert
    predicateVolatile := false }

/-- The foreign keys, child first: an item belongs to a user and to an order. -/
def cascadeRefs (child parent : String) : Prop :=
  (child, parent) ∈ [("public.orders", "public.users"), ("public.items", "public.users"),
    ("public.items", "public.orders")]

theorem cascadeRefs_acyclic : Acyclic cascadeRefs := by
  apply acyclic_of_rank fun rel =>
    if rel = "public.users" then 0 else if rel = "public.orders" then 1 else 2
  intro child parent h
  simp only [cascadeRefs, List.mem_cons, Prod.mk.injEq, List.not_mem_nil, or_false] at h
  rcases h with ⟨rfl, rfl⟩ | ⟨rfl, rfl⟩ | ⟨rfl, rfl⟩
  · decide
  · decide
  · decide

/-- The condition applied to that dry-run. -/
theorem fkOrder_topological_iff_cascade :
    ∃ predicted, PredictedBlastRadius.fromGrant cascadeRadius "public.users" = .ok predicted ∧
      ((Topological cascadeRefs
          (buildInverse .delete "public.users" predicted (.new [])).fkOrder ∧
        ∀ (ω : Type) (conn : RevertConn ω) (w : ω),
          RestoresParentsFirst cascadeRefs
            (buildInverse .delete "public.users" predicted (.new [])).fkOrder
            (revert (buildInverse .delete "public.users" predicted (.new [])) conn
              ⟨w, []⟩).2.log) ↔
        NamesFollowReferences cascadeRefs "public.users" (cascadeNames predicted)) :=
  ⟨_, rfl, fkOrder_topological_iff
    (show PredictedBlastRadius.fromGrant cascadeRadius "public.users" = .ok _ from rfl)
    .delete (.new []) cascadeRefs⟩

/-- The graph has no cycle, and the inverse lists `public.items` before the
`public.orders` its rows reference. -/
theorem cascadeRadius_child_first :
    Acyclic cascadeRefs ∧
      ∃ predicted,
        PredictedBlastRadius.fromGrant cascadeRadius "public.users" = .ok predicted ∧
        ¬ Topological cascadeRefs
          (buildInverse .delete "public.users" predicted (.new [])).fkOrder := by
  refine ⟨cascadeRefs_acyclic, _, rfl, fun h => ?_⟩
  have hlt := h "public.items" (by decide) "public.orders" (by decide)
    (by simp [cascadeRefs])
  revert hlt
  decide

end PgBrakes.Ports.InverseOrder
