import PgBrakes.Ports.GuardedApplyRun

/-!
# What the captured inverse looks like

`build_inverse` is a pair of nested loops over a builder, and the prediction it
reads comes out of a map two modules earlier.  Here both are put in closed
form: the rows are the target's followed by each predicted cascade's, the order
is the target followed by the predicted cascades, and the predicted cascades
are the keys of the dry-run's cascade map, in key order, without the target.

## Main results

* `buildInverse_eq` — the inverse in closed form.
* `fromGrant_cascades` — the predicted cascades in closed form, with
  `cascades_sorted` and `target_notMem_cascades` as what the rest needs.
-/

namespace PgBrakes.Ports.InverseShape

open PgBrakes.Ports.KeyChecksum
open PgBrakes.Ports.TypedInverse
open PgBrakes.Ports.BlastRecord
open PgBrakes.Ports.GuardedApply
open PgBrakes.Ports.GuardedApplyRun

/-! ## The predicted cascades -/

/-- The names of the predicted cascade relations. -/
def cascadeNames (predicted : PredictedBlastRadius) : List String :=
  predicted.cascades.map Prod.fst

private theorem collectCascades_names {target : String}
    {checksums : Std.TreeMap String String} :
    ∀ {rels : List String} {cascades : List (String × String)},
      PredictedBlastRadius.collectCascades target checksums rels = .ok cascades →
      cascades.map Prod.fst = rels.filter (· ≠ target) := by
  intro rels
  induction rels with
  | nil =>
      intro cascades h
      cases h
      rfl
  | cons rel rels ih =>
      intro cascades h
      simp only [PredictedBlastRadius.collectCascades] at h
      split at h
      · next heq => simpa [heq] using ih h
      · next hne =>
          split at h
          · cases h
          · split at h
            · cases h
            · next rest hrest =>
                cases h
                simpa [hne] using ih hrest

/-- The predicted cascades are the keys of the dry-run's cascade map, in key
order, without the target. -/
theorem fromGrant_cascades {dryRun : BlastRadius} {target : String}
    {predicted : PredictedBlastRadius}
    (h : PredictedBlastRadius.fromGrant dryRun target = .ok predicted) :
    cascadeNames predicted =
      dryRun.affected.cascadeByTable.keys.filter (· ≠ target) := by
  unfold PredictedBlastRadius.fromGrant at h
  simp only at h
  split at h
  · cases h
  split at h
  · cases h
  split at h
  · cases h
  split at h
  · cases h
  · next cascades hcascades =>
      cases h
      exact collectCascades_names hcascades

theorem target_notMem_cascades {dryRun : BlastRadius} {target : String}
    {predicted : PredictedBlastRadius}
    (h : PredictedBlastRadius.fromGrant dryRun target = .ok predicted) :
    target ∉ cascadeNames predicted := by
  rw [fromGrant_cascades h]
  simp

/-- The cascades come in strictly ascending order of their names. -/
theorem cascades_sorted {dryRun : BlastRadius} {target : String}
    {predicted : PredictedBlastRadius}
    (h : PredictedBlastRadius.fromGrant dryRun target = .ok predicted) :
    (cascadeNames predicted).Pairwise (· < ·) := by
  rw [fromGrant_cascades h]
  apply List.Pairwise.filter
  have hkeys := Std.TreeMap.ordered_keys (t := dryRun.affected.cascadeByTable)
  refine hkeys.imp fun {a b} hab => ?_
  exact compare_lt_iff_lt.mp hab

theorem cascades_nodup {dryRun : BlastRadius} {target : String}
    {predicted : PredictedBlastRadius}
    (h : PredictedBlastRadius.fromGrant dryRun target = .ok predicted) :
    (cascadeNames predicted).Nodup :=
  (cascades_sorted h).imp fun hab => ne_of_lt hab

/-- An apply that passed its checks carries a prediction assembled from the
grant. -/
theorem fromGrant_of_preflight {proposalId : String} {kind : WriteKind}
    {relation : String} {dryRun : BlastRadius} {cap : WriteCap}
    {predicted : PredictedBlastRadius}
    (h : preflight proposalId kind relation dryRun cap = .ok predicted) :
    PredictedBlastRadius.fromGrant dryRun relation = .ok predicted := by
  unfold preflight at h
  split at h
  · cases h
  split at h
  · cases h
  · next p hp =>
      split at h
      · cases h
      split at h
      · cases h
      split at h
      · cases h
      · cases h
        exact hp

/-! ## The inverse -/

/-- The captured rows of the predicted cascades, as the inverse carries them. -/
def cascadeInverseRows (predicted : PredictedBlastRadius) (forward : ForwardResult) :
    List InverseRow :=
  (cascadeNames predicted).flatMap fun rel => (forward.cascadeRows rel).map (stampRow rel)

private theorem pushCascade_eq (forward : ForwardResult) (b : InversePlanBuilder)
    (order : List String) (rel : String) :
    pushCascade forward (b, order) rel =
      ({ b with rows := b.rows ++ (forward.cascadeRows rel).map (stampRow rel) },
        order ++ [rel]) := by
  unfold pushCascade
  rw [ForwardResult.cascadeRows, Std.TreeMap.getD_eq_getD_getElem?]
  rcases hget : forward.cascadePreimages.get? rel with _ | rows
  · simp [show forward.cascadePreimages[rel]? = none from hget]
  · simp [show forward.cascadePreimages[rel]? = some rows from hget,
      InversePlanBuilder.pushRows_eq]

/-- The loop over the cascades, from any builder and any order so far. -/
private theorem foldl_pushCascade (forward : ForwardResult) (rels : List String) :
    ∀ (b : InversePlanBuilder) (order : List String),
      rels.foldl (pushCascade forward) (b, order) =
        ({ b with rows := b.rows ++
            rels.flatMap fun rel => (forward.cascadeRows rel).map (stampRow rel) },
          order ++ rels) := by
  induction rels with
  | nil => intro b order; simp
  | cons rel rels ih =>
      intro b order
      rw [List.foldl_cons, pushCascade_eq, ih]
      simp

/-- The inverse, in closed form. -/
theorem buildInverse_eq (kind : WriteKind) (relation : String)
    (predicted : PredictedBlastRadius) (forward : ForwardResult) :
    buildInverse kind relation predicted forward =
      { relation := relation
        kind := match kind with
          | .update => .preimageUpsert
          | .delete => .insert
        rows := forward.written.map targetRow ++ cascadeInverseRows predicted forward
        fkOrder := relation :: cascadeNames predicted
        notRestored := NotRestored.all } := by
  unfold buildInverse
  simp only [foldl_pushCascade, InversePlanBuilder.pushRows_eq]
  cases kind <;> rfl

end PgBrakes.Ports.InverseShape
