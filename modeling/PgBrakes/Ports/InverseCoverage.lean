import PgBrakes.Ports.InverseAgreement

/-!
# When every committed change has a captured pre-image

Two checks stand between a change and the commit.  The reconciliation compares
each channel with the prediction, except the target's own, which the cap
bounds.  The coverage check asks for as many pre-images as there are deleted
rows, and updated rows outside the target.  Neither looks at the target's
updates, neither adds the two channels up, and the coverage check counts
captured rows that the writer of the inverse then leaves out.

`GapsClosed` names these gaps and nothing else.  A relation outside the
prediction, one without captured rows, and one that lost rows through a single
channel are what the two checks do decide.

## Main results

* `reversible_of_gapsClosed` — the checks cover every change outside the gaps.
* `run_reversible_iff` — a committed run leaves no change without a pre-image
  exactly when the gaps are closed.
-/

namespace PgBrakes.Ports.InverseCoverage

open PgBrakes.Ports.KeyChecksum
open PgBrakes.Ports.TypedInverse
open PgBrakes.Ports.BlastRecord
open PgBrakes.Ports.GuardedApply
open PgBrakes.Ports.GuardedApplyRun
open PgBrakes.Ports.GuardedApplyAtomicity
open PgBrakes.Ports.InverseShape
open PgBrakes.Ports.InverseAgreement
open PgBrakes.Ports.RevertRouting

variable {ω : Type}

/-- The tuple deltas a run observed. -/
def observed (log : List ApplyCall) : List RelationChange :=
  log.flatMap fun c => match c with
    | .xactTupleDeltas (.ok deltas) => deltas
    | _ => []

/-- The tuples of a relation that were updated or deleted. -/
def destroyed (deltas : List RelationChange) (rel : String) : Nat :=
  ((deltas.filter fun change => change.relation = rel).map fun change =>
    change.upd + change.del).sum

/-- The pre-images an inverse holds for a relation: the rows the revert gives to
it. -/
def held (inverse : InversePlan) (rel : String) : Nat :=
  (rowsFor inverse.relation rel inverse.rows).length

/-- The pre-images the call returned.  An error returns none. -/
def returned (r : Except ApplyError AppliedWrite) (rel : String) : Nat :=
  match r with
  | .ok a => held a.inverse rel
  | .error _ => 0

/-- Whenever the run commits, every updated or deleted tuple has a pre-image in
the inverse it returned. -/
def Reversible (r : Except ApplyError AppliedWrite) (log : List ApplyCall) : Prop :=
  0 < commits log → ∀ rel, destroyed (observed log) rel ≤ returned r rel

/-- The written rows that the revert gives to a relation: their own `__relation`
column, when they have one, names it. -/
def writtenFor (target : String) (forward : ForwardResult) (rel : String) : Nat :=
  (forward.written.filter fun row => owner target row.beforeImage = rel).length

/-- The captured rows the writer keeps for a relation: target rows that are not
stamped for another relation, and the rows of a predicted cascade. -/
def kept (target : String) (predicted : PredictedBlastRadius) (forward : ForwardResult)
    (rel : String) : Nat :=
  writtenFor target forward rel +
    if rel ∈ cascadeNames predicted then (forward.cascadeRows rel).length else 0

theorem held_buildInverse {predicted : PredictedBlastRadius}
    (hnodup : (cascadeNames predicted).Nodup) (kind : WriteKind) (target : String)
    (forward : ForwardResult) (rel : String) :
    held (buildInverse kind target predicted forward) rel =
      kept target predicted forward rel := by
  rw [held, buildInverse_eq]
  simp only
  rw [rowsFor_append, cascadeInverseRows, rowsFor_cascades target rel forward _ hnodup,
    List.length_append, kept, writtenFor]
  congr 1
  · simp only [rowsFor, List.filter_map, List.length_map]
    rfl
  · split
    · rw [List.length_map]
    · rfl

theorem observed_append (l₁ l₂ : List ApplyCall) :
    observed (l₁ ++ l₂) = observed l₁ ++ observed l₂ :=
  List.flatMap_append

/-- A run that reaches the commit point observed exactly the connection's
deltas. -/
theorem observed_calls {i : Invocation ω} {w : ω} {t : Transcript ω}
    (h : CommitPoint i w t) (answer : Except ApplyError Unit) :
    observed (t.calls i ++ [.commit answer]) = t.deltas := by
  have hfence : observed t.fenceCalls = [] :=
    List.flatMap_eq_nil_iff.mpr (h.forall_fenceCalls (fun _ => rfl) (fun _ _ => rfl))
  rw [observed_append, Transcript.calls, observed_append, hfence]
  simp [observed, Transcript.bodyCalls]

/-- Every change of a run that reached the commit point has a pre-image: the
inverse exists, and the writer keeps enough rows for each relation. -/
def Covered (target : String) (t : Transcript ω) : Prop :=
  ∀ rel, 0 < destroyed t.deltas rel →
    PkSetBuilder.UniformArity (t.forward.written.map (·.pk)) ∧
      destroyed t.deltas rel ≤ kept target t.predicted t.forward rel

/-- The claim about the log and the result, said about the transcript. -/
private theorem reversible_iff_covered [Sha256] (i : Invocation ω) (w : ω) :
    Reversible (i.run ⟨w, []⟩).1 (i.run ⟨w, []⟩).2.log ↔
      ∀ t, CommitPoint i w t → (i.conn.commit t.final).1 = .ok () →
        Covered i.relation t := by
  constructor
  · intro hrev t ht hcommit rel hpos
    have hrun := run_of_commitPoint ht []
    rw [hcommit, List.nil_append] at hrun
    rw [hrun] at hrev
    have hone : 0 < commits (t.calls i ++ [.commit (.ok ())]) := by
      rw [commits_append]
      exact Nat.lt_of_lt_of_le Nat.zero_lt_one (Nat.le_add_left 1 _)
    have hrel := hrev hone rel
    rw [observed_calls ht] at hrel
    rw [← writtenChecksum_ok_iff t.forward i.relation]
    rcases hsum : t.forward.writtenChecksum i.relation with e | checksum
    · simp only [Transcript.result, hsum, returned] at hrel
      omega
    · simp only [Transcript.result, hsum, returned] at hrel
      rw [held_buildInverse (cascades_nodup (fromGrant_of_preflight ht.preflight))] at hrel
      exact ⟨⟨checksum, rfl⟩, hrel⟩
  · intro h hpos rel
    obtain ⟨t, ht⟩ := commitPoint_of_commits hpos
    have hrun := run_of_commitPoint ht []
    rw [List.nil_append] at hrun
    rw [hrun] at hpos ⊢
    have hcommit : (i.conn.commit t.final).1 = .ok () := by
      rcases hanswer : (i.conn.commit t.final).1 with e | ⟨⟩
      · rw [hanswer, commits_append, commits_of_quiet (calls_quiet ht)] at hpos
        simp [commits, ApplyCall.isCommit] at hpos
      · rfl
    rw [hcommit, observed_calls ht]
    by_cases hzero : destroyed t.deltas rel = 0
    · omega
    obtain ⟨huniform, hle⟩ := h t ht hcommit rel (by omega)
    obtain ⟨checksum, hsum⟩ := (writtenChecksum_ok_iff t.forward i.relation).mpr huniform
    simp only [Transcript.result, hsum, returned]
    rw [held_buildInverse (cascades_nodup (fromGrant_of_preflight ht.preflight))]
    exact hle

/-! ## What the two checks leave open -/

/-- The updates and the deletes that a relation's entries report, each channel
that is not zero for itself. -/
def channels (deltas : List RelationChange) (rel : String) : List Nat :=
  (deltas.filter fun change => change.relation = rel).flatMap fun change =>
    [change.upd, change.del].filter (0 < ·)

/-- The coverage check counts every returned row for the target, whatever its
stamp, never looks at an update of the target, and takes each entry for
itself. -/
def TargetOpen (target : String) (deltas : List RelationChange) (forward : ForwardResult) :
    Prop :=
  (∃ change ∈ deltas, change.relation = target ∧ 0 < change.upd) ∨
    1 < (channels deltas target).length ∨
    ∃ row ∈ forward.written, owner target row.beforeImage ≠ target

/-- The gaps of the two checks, each with what closes it. -/
structure GapsClosed (target : String) (t : Transcript ω) : Prop where
  /-- No check asks for keys of one arity before the commit. -/
  arity : (∃ rel, 0 < destroyed t.deltas rel) →
    PkSetBuilder.UniformArity (t.forward.written.map (·.pk))
  onTarget : TargetOpen target t.deltas t.forward →
    destroyed t.deltas target ≤ writtenFor target t.forward target
  /-- A cascade's updates and deletes are compared one by one. -/
  onCascades : ∀ rel ∈ cascadeNames t.predicted, 1 < (channels t.deltas rel).length →
    destroyed t.deltas rel ≤
      (t.forward.cascadeRows rel).length + writtenFor target t.forward rel
  /-- Captured rows of a relation that is in the measured footprint and no
  cascade are counted, and the writer drops them. -/
  elsewhere : ∀ rel ∈ t.predicted.effectByTable, rel ≠ target → rel ∉ cascadeNames t.predicted →
    t.forward.cascadeRows rel ≠ [] →
      destroyed t.deltas rel ≤ writtenFor target t.forward rel

theorem sum_channels (deltas : List RelationChange) (rel : String) :
    (channels deltas rel).sum = destroyed deltas rel := by
  induction deltas with
  | nil => rfl
  | cons change deltas ih =>
      by_cases hrel : change.relation = rel
      · have htail : (([change.upd, change.del].filter (0 < ·)).sum) =
            change.upd + change.del := by
          by_cases hupd : 0 < change.upd <;> by_cases hdel : 0 < change.del <;>
            simp [hupd, hdel] <;> omega
        simp only [channels, destroyed] at ih ⊢
        rw [List.filter_cons_of_pos (by simpa using hrel), List.flatMap_cons,
          List.sum_append, List.map_cons, List.sum_cons, ih, htail]
      · simp only [channels, destroyed] at ih ⊢
        rw [List.filter_cons_of_neg (by simpa using hrel), ih]

/-- Every channel belongs to an entry of its relation. -/
theorem mem_channels {deltas : List RelationChange} {rel : String} {n : Nat} :
    n ∈ channels deltas rel ↔
      ∃ change ∈ deltas, change.relation = rel ∧ 0 < n ∧
        (n = change.upd ∨ n = change.del) := by
  simp only [channels, List.mem_flatMap, List.mem_filter, decide_eq_true_eq, List.mem_cons,
    List.not_mem_nil, or_false]
  constructor
  · rintro ⟨change, ⟨hmem, hrel⟩, hn, hpos⟩
    exact ⟨change, hmem, hrel, hpos, hn⟩
  · rintro ⟨change, hmem, hrel, hpos, hn⟩
    exact ⟨change, ⟨hmem, hrel⟩, hn, hpos⟩

/-- Through a single channel a relation loses no more than a bound of each
channel. -/
theorem destroyed_le_of_single {deltas : List RelationChange} {rel : String} {bound : Nat}
    (hsingle : ¬ 1 < (channels deltas rel).length)
    (hbound : ∀ n ∈ channels deltas rel, n ≤ bound) : destroyed deltas rel ≤ bound := by
  rw [← sum_channels]
  match hchannels : channels deltas rel with
  | [] => simp
  | [n] =>
      rw [hchannels] at hbound
      simpa using hbound n
  | n :: m :: rest =>
      rw [hchannels] at hsingle
      simp at hsingle

section Checks

variable {i : Invocation ω} {w : ω} {t : Transcript ω}

/-- A relation with a change is in the measured footprint. -/
theorem predicted_of_destroyed (ht : CommitPoint i w t) {rel : String}
    (hpos : 0 < destroyed t.deltas rel) : rel ∈ t.predicted.effectByTable := by
  have hne : channels t.deltas rel ≠ [] := by
    intro hnone
    rw [← sum_channels, hnone] at hpos
    cases hpos
  obtain ⟨n, hn⟩ := List.exists_mem_of_ne_nil _ hne
  obtain ⟨change, hmem, rfl, hn, hchannel⟩ := mem_channels.mp hn
  apply (reconcileChange_ok (reconcileFullEffect_ok ht.reconciled change hmem)).1
  intro hzero
  rw [RelationChange.asOpCounts, OpCounts.mk.injEq] at hzero
  omega

/-- Outside the target every single channel is covered by the captured rows. -/
theorem channel_le_cascadeRows (ht : CommitPoint i w t) {rel : String}
    (hrel : rel ≠ i.relation) :
    ∀ n ∈ channels t.deltas rel, n ≤ (t.forward.cascadeRows rel).length := by
  intro n hn
  obtain ⟨change, hmem, rfl, -, hchannel⟩ := mem_channels.mp hn
  obtain ⟨hdel, hupd⟩ :=
    coverChange_ok (assertReversiblePreimageCoverage_ok ht.covered change hmem)
  rw [capturedFor, if_neg hrel] at hdel hupd
  rcases hchannel with rfl | rfl
  · exact hupd hrel
  · exact hdel

/-- Where the target is not open, its deletes are covered by its own rows. -/
theorem target_le_writtenFor (ht : CommitPoint i w t)
    (hclosed : ¬ TargetOpen i.relation t.deltas t.forward) :
    destroyed t.deltas i.relation ≤ writtenFor i.relation t.forward i.relation := by
  simp only [TargetOpen, not_or] at hclosed
  obtain ⟨hupd, hsingle, hstamp⟩ := hclosed
  apply destroyed_le_of_single hsingle
  intro n hn
  obtain ⟨change, hmem, hrel, hpos, rfl | rfl⟩ := mem_channels.mp hn
  · exact absurd ⟨change, hmem, hrel, hpos⟩ hupd
  · have hall : writtenFor i.relation t.forward i.relation = t.forward.written.length := by
      rw [writtenFor, List.filter_eq_self.mpr]
      intro row hrow
      by_contra hother
      exact hstamp ⟨row, hrow, by simpa using hother⟩
    have hdel := (coverChange_ok
      (assertReversiblePreimageCoverage_ok ht.covered change hmem)).1
    rwa [capturedFor, if_pos hrel, ← hall] at hdel

/-- With the gaps closed, the two checks leave no change without a pre-image. -/
theorem reversible_of_gapsClosed (ht : CommitPoint i w t) (h : GapsClosed i.relation t) :
    Covered i.relation t := by
  intro rel hpos
  refine ⟨h.arity ⟨rel, hpos⟩, ?_⟩
  unfold kept
  by_cases htarget : rel = i.relation
  · subst htarget
    by_cases hopen : TargetOpen i.relation t.deltas t.forward
    · exact Nat.le_add_right_of_le (h.onTarget hopen)
    · exact Nat.le_add_right_of_le (target_le_writtenFor ht hopen)
  by_cases hcascade : rel ∈ cascadeNames t.predicted
  · rw [if_pos hcascade]
    by_cases hsingle : 1 < (channels t.deltas rel).length
    · have hle := h.onCascades rel hcascade hsingle
      omega
    · have hle := destroyed_le_of_single hsingle (channel_le_cascadeRows ht htarget)
      omega
  · rw [if_neg hcascade]
    by_cases hnone : t.forward.cascadeRows rel = []
    · -- Nothing was captured, so the coverage check lets no channel pass.
      exfalso
      have hempty : channels t.deltas rel = [] := by
        rw [List.eq_nil_iff_forall_not_mem]
        intro n hn
        obtain ⟨-, -, -, hn', -⟩ := mem_channels.mp hn
        have hle := channel_le_cascadeRows ht htarget n hn
        rw [hnone, List.length_nil] at hle
        omega
      rw [← sum_channels, hempty] at hpos
      cases hpos
    · exact h.elsewhere rel (predicted_of_destroyed ht hpos) htarget hcascade hnone

theorem gapsClosed_of_covered (ht : CommitPoint i w t) (h : Covered i.relation t) :
    GapsClosed i.relation t := by
  have hle : ∀ rel, destroyed t.deltas rel ≤ kept i.relation t.predicted t.forward rel := by
    intro rel
    by_cases hzero : destroyed t.deltas rel = 0
    · omega
    · exact (h rel (by omega)).2
  have htarget := target_notMem_cascades (fromGrant_of_preflight ht.preflight)
  exact
    { arity := fun ⟨rel, hpos⟩ => (h rel hpos).1
      onTarget := fun _ => by
        have hrel := hle i.relation
        rwa [kept, if_neg htarget] at hrel
      onCascades := fun rel hmem _ => by
        have hrel := hle rel
        rw [kept, if_pos hmem] at hrel
        omega
      elsewhere := fun rel _ _ hmem _ => by
        have hrel := hle rel
        rwa [kept, if_neg hmem] at hrel }

end Checks

/-- A run leaves no committed change without a pre-image exactly when, at the
commit point, every gap of the two checks is closed. -/
theorem run_reversible_iff [Sha256] (i : Invocation ω) (w : ω) :
    Reversible (i.run ⟨w, []⟩).1 (i.run ⟨w, []⟩).2.log ↔
      ∀ t, CommitPoint i w t → (i.conn.commit t.final).1 = .ok () →
        GapsClosed i.relation t := by
  rw [reversible_iff_covered]
  constructor
  · intro h t ht hcommit
    exact gapsClosed_of_covered ht (h t ht hcommit)
  · intro h t ht hcommit
    exact reversible_of_gapsClosed ht (h t ht hcommit)

/-! ## A trigger that updates one more row of the target -/

/-- The statement returned two rows; a trigger updated a third one. -/
def triggeredRun : Invocation Unit :=
  { mixedArityRun with
    cap := { maxRows := 3, maxWalBytes := 0 }
    conn := .scripted
      (.new
        [ { pk := .single (.int 1), beforeImage := [("owner", .text "a")] }
        , { pk := .single (.int 2), beforeImage := [("owner", .text "b")] } ])
      [⟨"public.accounts", 0, 3, 0⟩] }

/-- The run commits three updates and returns two pre-images. -/
theorem triggeredRun_not_reversible :
    letI := Sha256.standard
    ¬ Reversible (triggeredRun.run ⟨(), []⟩).1 (triggeredRun.run ⟨(), []⟩).2.log := by
  intro h
  have hle := h (by decide) "public.accounts"
  revert hle
  decide

end PgBrakes.Ports.InverseCoverage
