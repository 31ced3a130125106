import PgBrakes.Ports.InverseCoverage

/-!
# What a committed apply is held to

A call that returns `Ok` has passed every guard, so each guard can be read back
as a fact about what the connection reported.  Three of them bound the effect:
the reconciliation holds every relation to the prediction, channel by channel,
and the two ceilings hold the whole transaction to the approved cap.  A fourth
one asks for the old value of every assigned column.

The reconciliation leaves one channel out on purpose, the target's own, which
the cap bounds.  The column check leaves a column out by its name: it takes the
key of every table to be called `id`.

## Main results

* `run_bounded` — what a committed apply reported stays within the cap and the
  prediction.
* `columnsCovered_iff` — the inverse carries every assigned column outside the
  key exactly when an assigned column named `id` is part of the key or was
  captured all the same.
-/

namespace PgBrakes.Ports.CommitGuards

open PgBrakes.Verified.Effect
open PgBrakes.Ports.KeyChecksum
open PgBrakes.Ports.TypedInverse
open PgBrakes.Ports.BlastRecord
open PgBrakes.Ports.GuardedApply
open PgBrakes.Ports.GuardedApplyRun
open PgBrakes.Ports.GuardedApplyAtomicity
open PgBrakes.Ports.InverseShape
open PgBrakes.Ports.InverseCoverage

variable {ω : Type}

/-! ## The runs that return an applied write -/

/-- A call that returns an applied write reached the commit point, the commit
succeeded, and the checksum after it exists. -/
theorem commitPoint_of_ok [Sha256] {i : Invocation ω} {w : ω} {a : AppliedWrite}
    (h : (i.run ⟨w, []⟩).1 = .ok a) :
    ∃ t, CommitPoint i w t ∧ (i.conn.commit t.final).1 = .ok () ∧
      PkSetBuilder.UniformArity (t.forward.written.map (·.pk)) := by
  rcases run_cases i ⟨w, []⟩ with ⟨e, w', es, hrun, -⟩ |
    ⟨e, w', before, body, answer, hrun, -, -⟩ | ⟨t, ht⟩
  · rw [hrun] at h
    cases h
  · rw [hrun] at h
    cases h
  · rw [run_of_commitPoint ht []] at h
    refine ⟨t, ht, ?_⟩
    rw [← writtenChecksum_ok_iff t.forward i.relation]
    rcases hcommit : (i.conn.commit t.final).1 with e | ⟨⟩
    · rw [hcommit] at h
      cases h
    · rcases hsum : t.forward.writtenChecksum i.relation with e | checksum
      · simp [hcommit, Transcript.result, hsum] at h
      · exact ⟨rfl, checksum, rfl⟩

/-- Such a call, computed: the rows of the inverse begin with the written
ones. -/
theorem run_of_committed [Sha256] {i : Invocation ω} {w : ω} {t : Transcript ω}
    (ht : CommitPoint i w t) (hcommit : (i.conn.commit t.final).1 = .ok ())
    (harity : PkSetBuilder.UniformArity (t.forward.written.map (·.pk))) :
    ∃ a, (i.run ⟨w, []⟩).1 = .ok a ∧
      (i.run ⟨w, []⟩).2.log = t.calls i ++ [.commit (.ok ())] ∧
      a.inverse.rows.take a.rowsWritten = t.forward.written.map targetRow := by
  obtain ⟨checksum, hsum⟩ := (writtenChecksum_ok_iff t.forward i.relation).mpr harity
  have hrun := run_of_commitPoint ht []
  rw [hcommit, List.nil_append] at hrun
  rw [hrun]
  refine ⟨_, by rw [Transcript.result, hsum], rfl, ?_⟩
  rw [buildInverse_eq]
  exact List.take_left' (List.length_map targetRow)

/-! ## The effect -/

/-- The tuple deltas and the WAL volumes a run was told. -/
def reportedDeltas (log : List ApplyCall) : List (List RelationChange) :=
  log.filterMap fun c => match c with
    | .xactTupleDeltas (.ok deltas) => some deltas
    | _ => none

def reportedWalBytes (log : List ApplyCall) : List Nat :=
  log.filterMap fun c => match c with
    | .xactWalBytes (.ok n) => some n
    | _ => none

/-- A report within the cap and the prediction of a call. -/
structure Bounded (i : Invocation ω) (deltas : List RelationChange) (walBytes : Nat) :
    Prop where
  rows : liveRows deltas ≤ i.cap.maxRows
  wal : walBytes ≤ i.cap.maxWalBytes
  predicted : ∀ change ∈ deltas, change.asOpCounts ≠ {} →
    change.relation ∈ i.dryRun.affected.effectByTable
  channels : ∀ change ∈ deltas, ∀ ch : Channel,
    ¬ (change.relation = i.relation ∧ ch = primaryChannel i.kind) →
      ch.count change.asOpCounts ≤
        ch.count (i.dryRun.affected.effectByTable.getD change.relation {})

/-- The prediction is the footprint of the dry-run record. -/
theorem fromGrant_effectByTable {dryRun : BlastRadius} {target : String}
    {predicted : PredictedBlastRadius}
    (h : PredictedBlastRadius.fromGrant dryRun target = .ok predicted) :
    predicted.effectByTable = dryRun.affected.effectByTable := by
  unfold PredictedBlastRadius.fromGrant at h
  simp only at h
  split at h
  · cases h
  split at h
  · cases h
  split at h
  · cases h
  split at h
  · cases h
  · cases h
    rfl

/-- At the commit point the reported effect is bounded. -/
theorem bounded_at_commitPoint {i : Invocation ω} {w : ω} {t : Transcript ω}
    (h : CommitPoint i w t) : Bounded i t.deltas t.walBytes := by
  have hpredicted := fromGrant_effectByTable (fromGrant_of_preflight h.preflight)
  have hchange := reconcileFullEffect_ok h.reconciled
  exact
    { rows := enforceCap_ok_iff.mp h.rowCap
      wal := enforceCap_ok_iff.mp h.walCap
      predicted := fun change hmem hne => by
        rw [← hpredicted]
        exact (reconcileChange_ok (hchange change hmem)).1 hne
      channels := fun change hmem ch hexempt => by
        rw [← hpredicted]
        exact (reconcileChange_ok (hchange change hmem)).2 ch hexempt }

/-- A run that reaches the commit point was told its deltas and its WAL volume
once each. -/
theorem reported_calls {i : Invocation ω} {w : ω} {t : Transcript ω}
    (h : CommitPoint i w t) (answer : Except ApplyError Unit) :
    reportedDeltas (t.calls i ++ [.commit answer]) = [t.deltas] ∧
      reportedWalBytes (t.calls i ++ [.commit answer]) = [t.walBytes] := by
  have hdeltas : reportedDeltas t.fenceCalls = [] :=
    List.filterMap_eq_nil_iff.mpr (h.forall_fenceCalls (fun _ => rfl) (fun _ _ => rfl))
  have hwal : reportedWalBytes t.fenceCalls = [] :=
    List.filterMap_eq_nil_iff.mpr (h.forall_fenceCalls (fun _ => rfl) (fun _ _ => rfl))
  simp only [reportedDeltas, reportedWalBytes] at hdeltas hwal ⊢
  simp [Transcript.calls, Transcript.bodyCalls, List.filterMap_append, hdeltas, hwal]

/-- Whenever the call returns `Ok`, it was told one set of deltas and one WAL
volume, and both are within the cap and the prediction. -/
theorem run_bounded [Sha256] (i : Invocation ω) (w : ω) (a : AppliedWrite)
    (h : (i.run ⟨w, []⟩).1 = .ok a) :
    ∃ deltas walBytes,
      reportedDeltas (i.run ⟨w, []⟩).2.log = [deltas] ∧
        reportedWalBytes (i.run ⟨w, []⟩).2.log = [walBytes] ∧
        Bounded i deltas walBytes := by
  obtain ⟨t, ht, -, -⟩ := commitPoint_of_ok h
  obtain ⟨hdeltas, hwal⟩ := reported_calls ht (i.conn.commit t.final).1
  rw [run_of_commitPoint ht [], List.nil_append]
  exact ⟨t.deltas, t.walBytes, hdeltas, hwal, bounded_at_commitPoint ht⟩

/-- The apply of `triggeredRun`: three updates under a cap of three. -/
theorem run_bounded_triggered :
    letI := Sha256.standard
    ∃ deltas walBytes,
      reportedDeltas (triggeredRun.run ⟨(), []⟩).2.log = [deltas] ∧
        reportedWalBytes (triggeredRun.run ⟨(), []⟩).2.log = [walBytes] ∧
        Bounded triggeredRun deltas walBytes := by
  let _ := Sha256.standard
  have hsome : ((triggeredRun.run ⟨(), []⟩).1.toOption).isSome := by decide
  rcases hrun : (triggeredRun.run ⟨(), []⟩).1 with e | a
  · rw [hrun] at hsome
    cases hsome
  · exact run_bounded triggeredRun () a hrun

/-! ## The assigned columns -/

/-- The columns a run's statement declared as assigned. -/
def declaredColumns (log : List ApplyCall) : List String :=
  log.flatMap fun c => match c with
    | .applyForward _ _ (.ok forward) => forward.writtenColumns
    | _ => []

/-- The columns a pre-image carries. -/
def imageColumns (image : Image) : List String := image.map Prod.fst

/-- Every written row of the returned inverse carries every declared column that
is not part of the table's key. -/
def ColumnsCovered (pkColumns : List String) (r : Except ApplyError AppliedWrite)
    (log : List ApplyCall) : Prop :=
  ∀ a ∈ r.toOption, ∀ row ∈ a.inverse.rows.take a.rowsWritten,
    ∀ c ∈ declaredColumns log, c ∉ pkColumns → c ∈ imageColumns row.beforeImage

instance (pkColumns : List String) (r : Except ApplyError AppliedWrite)
    (log : List ApplyCall) : Decidable (ColumnsCovered pkColumns r log) :=
  inferInstanceAs (Decidable (∀ a ∈ r.toOption, ∀ row ∈ a.inverse.rows.take a.rowsWritten,
    ∀ c ∈ declaredColumns log, c ∉ pkColumns → c ∈ imageColumns row.beforeImage))

theorem mem_toOption {r : Except ApplyError AppliedWrite} {a : AppliedWrite} :
    a ∈ r.toOption ↔ r = .ok a := by
  cases r <;> simp [Except.toOption]

theorem coverColumns_ok {relation : String} {required : List String} :
    ∀ {rows : List CapturedRow}, coverColumns relation required rows = .ok () →
      ∀ row ∈ rows, missingColumns required row = [] := by
  intro rows
  induction rows with
  | nil =>
      intro _ row hmem
      cases hmem
  | cons head rows ih =>
      intro h row hmem
      simp only [coverColumns] at h
      split at h
      · next hnone =>
          rcases List.mem_cons.mp hmem with rfl | hmem
          · exact List.isEmpty_iff.mp hnone
          · exact ih h row hmem
      · cases h

/-- The required columns are the declared ones that are not named `id`. -/
theorem mem_requiredColumns {forward : ForwardResult} {c : String} :
    c ∈ requiredColumns forward ↔ c ∈ forward.writtenColumns ∧ c ≠ "id" := by
  rw [requiredColumns, Std.TreeSet.mem_toList, Std.TreeSet.mem_ofList]
  simp

/-- The check before the commit covers every assigned column but `id`. -/
theorem covered_of_ne_id {relation : String} {forward : ForwardResult}
    (h : assertWrittenColumnCoverage .update relation forward = .ok ())
    {row : CapturedRow} (hrow : row ∈ forward.written) {c : String}
    (hc : c ∈ forward.writtenColumns) (hne : c ≠ "id") :
    c ∈ imageColumns row.beforeImage := by
  have hreq : c ∈ requiredColumns forward := mem_requiredColumns.mpr ⟨hc, hne⟩
  have hmissing := coverColumns_ok h row hrow
  unfold missingColumns at hmissing
  rw [if_neg (by rw [List.isEmpty_iff]; exact List.ne_nil_of_mem hreq),
    List.filter_eq_nil_iff] at hmissing
  have hcaptured : c ∈ capturedColumns row := by simpa using hmissing c hreq
  exact (List.mem_filter.mp hcaptured).1

/-- A run that reaches the commit point declared the columns of its forward
result. -/
theorem declared_calls {i : Invocation ω} {w : ω} {t : Transcript ω}
    (h : CommitPoint i w t) (answer : Except ApplyError Unit) :
    declaredColumns (t.calls i ++ [.commit answer]) = t.forward.writtenColumns := by
  have hfence : declaredColumns t.fenceCalls = [] :=
    List.flatMap_eq_nil_iff.mpr (h.forall_fenceCalls (fun _ => rfl) (fun _ _ => rfl))
  simp only [declaredColumns] at hfence ⊢
  simp [Transcript.calls, Transcript.bodyCalls, hfence]

/-- A committed apply of an `UPDATE` covers every assigned column outside the
key exactly when an assigned column that is named `id` without being part of
the key was captured in every written row. -/
theorem columnsCovered_iff [Sha256] (i : Invocation ω) (w : ω) (pkColumns : List String)
    (hkind : i.kind = .update) :
    ColumnsCovered pkColumns (i.run ⟨w, []⟩).1 (i.run ⟨w, []⟩).2.log ↔
      ∀ t, CommitPoint i w t → (i.conn.commit t.final).1 = .ok () →
        PkSetBuilder.UniformArity (t.forward.written.map (·.pk)) →
          "id" ∈ t.forward.writtenColumns → "id" ∉ pkColumns →
            ∀ row ∈ t.forward.written, "id" ∈ imageColumns row.beforeImage := by
  constructor
  · intro hcovered t ht hcommit harity hid hpk row hrow
    obtain ⟨a, hok, hlog, hrows⟩ := run_of_committed ht hcommit harity
    have hall := hcovered a (mem_toOption.mpr hok) (targetRow row)
      (by rw [hrows]; exact List.mem_map_of_mem hrow) "id"
    rw [hlog, declared_calls ht] at hall
    exact hall hid hpk
  · intro h a hmem row hrow c hc hpk
    have hok := mem_toOption.mp hmem
    obtain ⟨t, ht, hcommit, harity⟩ := commitPoint_of_ok hok
    obtain ⟨a', hok', hlog, hrows⟩ := run_of_committed ht hcommit harity
    have ha : a = a' := Except.ok.inj (hok.symm.trans hok')
    rw [ha, hrows] at hrow
    rw [hlog, declared_calls ht] at hc
    obtain ⟨source, hsource, rfl⟩ := List.mem_map.mp hrow
    by_cases hname : c = "id"
    · subst hname
      exact h t ht hcommit harity hc hpk source hsource
    · have hcolumns := ht.columns
      rw [hkind] at hcolumns
      exact covered_of_ne_id hcolumns hsource hc hname

/-- A table keyed by `code` whose ordinary column `id` is assigned; the
connection captured the other assigned column only. -/
def renumberedRun : Invocation Unit :=
  { triggeredRun with
    conn := .scripted
      { written :=
          [ { pk := .single (.text "a"), beforeImage := [("owner", .text "ann")] }
          , { pk := .single (.text "b"), beforeImage := [("owner", .text "bob")] } ]
        cascadePreimages := ∅
        writtenColumns := ["id", "owner"] }
      [⟨"public.accounts", 0, 2, 0⟩] }

/-- Were the table keyed by `id`, the same run would be covered. -/
theorem columnsCovered_iff_keyed :
    letI := Sha256.standard
    renumberedRun.kind = .update ∧
      ColumnsCovered ["id"] (renumberedRun.run ⟨(), []⟩).1
        (renumberedRun.run ⟨(), []⟩).2.log := by
  let _ := Sha256.standard
  refine ⟨rfl, (columnsCovered_iff renumberedRun () ["id"] rfl).mpr ?_⟩
  intro t _ _ _ _ hpk
  exact absurd (List.mem_singleton_self "id") hpk

/-- The run commits, and the inverse cannot restore `id`. -/
theorem renumberedRun_not_covered :
    letI := Sha256.standard
    ¬ ColumnsCovered ["code"] (renumberedRun.run ⟨(), []⟩).1
        (renumberedRun.run ⟨(), []⟩).2.log := by
  decide

end PgBrakes.Ports.CommitGuards
