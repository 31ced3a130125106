import PgBrakes.Ports.GuardedApply

/-!
# How a guarded apply ends

Every law about the engine is a law about the calls of one run, and every run
ends in one of three ways: it stops before a transaction is open, it rolls an
open transaction back, or it reaches the commit point.  This module says that
once.  `Transcript` is what the connection answered on the way to the commit
point, `CommitPoint` says that every guard accepted those answers, and
`run_cases` is the case distinction the other modules use.

## Main results

* `run_of_commitPoint` — a run that reaches the commit point, computed: its
  calls so far, and the arm that commits.
* `run_cases` — every run stops early, rolls back, or reaches the commit point.
-/

namespace PgBrakes.Ports.GuardedApplyRun

open PgBrakes.Verified.Effect
open PgBrakes.Ports.KeyChecksum
open PgBrakes.Ports.TypedInverse
open PgBrakes.Ports.BlastRecord
open PgBrakes.Ports.GuardedApply

variable {ω : Type}

/-- The arguments of one `guarded_apply` call. -/
structure Invocation (ω : Type) where
  proposalId : String
  kind : WriteKind
  relation : String
  dryRun : BlastRadius
  cap : WriteCap
  pitr : PitrConfig
  conn : ApplyConn ω
  barrier : ApplyBarrier ω
  clock : Clock ω

namespace Invocation

/-- The call itself. -/
def run [Sha256] (i : Invocation ω) : Apply ω AppliedWrite :=
  guardedApply i.proposalId i.kind i.relation i.dryRun i.cap i.pitr i.conn i.barrier
    i.clock

def timeoutMs (i : Invocation ω) : Nat := statementTimeoutMs i.dryRun.durationMs

end Invocation

/-! ## The way to the commit point -/

/-- What the connection answered on the way to the commit, with the worlds it
left behind. -/
structure Transcript (ω : Type) where
  predicted : PredictedBlastRadius
  fence : RecoveryFence
  fenceCalls : List ApplyCall
  fenced : ω
  opened : ω
  forward : ForwardResult
  written : ω
  deltas : List RelationChange
  measured : ω
  walBytes : Nat
  final : ω

/-- The answers of `t` are the connection's, and every guard accepts them. -/
structure CommitPoint (i : Invocation ω) (w : ω) (t : Transcript ω) : Prop where
  preflight : preflight i.proposalId i.kind i.relation i.dryRun i.cap = .ok t.predicted
  fence : recoveryFence i.proposalId i.pitr i.conn i.clock ⟨w, []⟩ =
    (.ok t.fence, ⟨t.fenced, t.fenceCalls⟩)
  begun : i.conn.begin i.timeoutMs t.fenced = (.ok (), t.opened)
  forward : i.conn.applyForward i.kind i.relation (t.predicted.cascades.map Prod.fst)
    (i.barrier.pausePoint "between dry_run and apply" t.opened) = (.ok t.forward, t.written)
  deltas : i.conn.xactTupleDeltas t.written = (.ok t.deltas, t.measured)
  reconciled : reconcileFullEffect t.predicted i.relation i.kind t.deltas = .ok ()
  rowCap : enforceCap i.relation .rows i.cap.maxRows (liveRows t.deltas) = .ok ()
  walBytes : i.conn.xactWalBytes t.measured = (.ok t.walBytes, t.final)
  walCap : enforceCap i.relation .walBytes i.cap.maxWalBytes t.walBytes = .ok ()
  covered : assertReversiblePreimageCoverage i.relation t.forward t.deltas = .ok ()
  columns : assertWrittenColumnCoverage i.kind i.relation t.forward = .ok ()

/-- The calls of the guarded body of a run that passes every guard. -/
def Transcript.bodyCalls (i : Invocation ω) (t : Transcript ω) : List ApplyCall :=
  [.applyForward i.kind i.relation (.ok t.forward), .xactTupleDeltas (.ok t.deltas),
    .xactWalBytes (.ok t.walBytes)]

/-- All calls before the commit. -/
def Transcript.calls (i : Invocation ω) (t : Transcript ω) : List ApplyCall :=
  t.fenceCalls ++ .begin i.timeoutMs (.ok ()) :: t.bodyCalls i

/-- What the call returns once the connection has answered the commit. -/
def Transcript.result [Sha256] (i : Invocation ω) (t : Transcript ω)
    (answer : Except ApplyError Unit) : Except ApplyError AppliedWrite :=
  match answer with
  | .error e => .error e
  | .ok () =>
      match t.forward.writtenChecksum i.relation with
      | .error e => .error e
      | .ok checksum =>
          .ok
            { proposalId := i.proposalId
              rowsWritten := t.forward.written.length
              applyChecksum := checksum
              inverse := buildInverse i.kind i.relation t.predicted t.forward
              fence := t.fence
              statementTimeoutMs := i.timeoutMs }

/-! ## The parts of the run -/

/-- A program's run from a longer log is its run from the empty one, behind that
log. -/
private theorem recoveryFence_log (proposalId : String) (pitr : PitrConfig)
    (conn : ApplyConn ω) (clock : Clock ω) (w : ω) (l : List ApplyCall) :
    recoveryFence proposalId pitr conn clock ⟨w, l⟩ =
      ((recoveryFence proposalId pitr conn clock ⟨w, []⟩).1,
        ⟨(recoveryFence proposalId pitr conn clock ⟨w, []⟩).2.world,
          l ++ (recoveryFence proposalId pitr conn clock ⟨w, []⟩).2.log⟩) := by
  unfold recoveryFence
  by_cases hp : pitr.enabled
  · rw [if_pos hp]
    simp only [Eff.bind_apply, consult, perform, List.nil_append, List.append_assoc,
      List.cons_append]
    rcases conn.createRestorePoint _ _ with ⟨r, w'⟩
    cases r with
    | ok lsn => simp
    | error e => simp
  · rw [if_neg hp]
    simp

private theorem recoveryFence_idle (proposalId : String) (pitr : PitrConfig)
    (conn : ApplyConn ω) (clock : Clock ω) :
    Appends ApplyCall.IsIdle (recoveryFence proposalId pitr conn clock) := by
  unfold recoveryFence
  refine Appends.ite (Appends.bind ?_ fun now => Appends.bind ?_ fun lsn => ?_) ?_
  · exact Appends.consult fun _ => ⟨⟨rfl, rfl⟩, rfl⟩
  · exact Appends.perform fun _ => ⟨⟨rfl, rfl⟩, rfl⟩
  · exact Appends.pure _
  · exact Appends.pure _

/-- The restore point reads the clock and asks for one label. -/
theorem CommitPoint.fenceCalls_shape {i : Invocation ω} {w : ω} {t : Transcript ω}
    (h : CommitPoint i w t) :
    ∀ c ∈ t.fenceCalls, (∃ now, c = .clockRead now) ∨
      ∃ label lsn, c = .createRestorePoint label lsn := by
  have hshape : Appends (fun c => (∃ now, c = .clockRead now) ∨
      ∃ label lsn, c = .createRestorePoint label lsn)
      (recoveryFence i.proposalId i.pitr i.conn i.clock) := by
    unfold recoveryFence
    refine Appends.ite (Appends.bind ?_ fun now => Appends.bind ?_ fun lsn => ?_) ?_
    · exact Appends.consult fun now => .inl ⟨now, rfl⟩
    · exact Appends.perform fun lsn => .inr ⟨_, lsn, rfl⟩
    · exact Appends.pure _
    · exact Appends.pure _
  obtain ⟨es, hes, hall⟩ := hshape.of_run h.fence
  simp only [List.nil_append] at hes
  rw [hes]
  exact hall

theorem CommitPoint.forall_fenceCalls {i : Invocation ω} {w : ω} {t : Transcript ω}
    {P : ApplyCall → Prop} (h : CommitPoint i w t) (hclock : ∀ now, P (.clockRead now))
    (hlabel : ∀ label lsn, P (.createRestorePoint label lsn)) : ∀ c ∈ t.fenceCalls, P c := by
  intro c hc
  rcases h.fenceCalls_shape c hc with ⟨now, rfl⟩ | ⟨label, lsn, rfl⟩
  · exact hclock now
  · exact hlabel label lsn

/-- The restore point settles nothing and opens nothing. -/
theorem CommitPoint.fenceCalls_idle {i : Invocation ω} {w : ω} {t : Transcript ω}
    (h : CommitPoint i w t) : ∀ c ∈ t.fenceCalls, ApplyCall.IsIdle c :=
  h.forall_fenceCalls (fun _ => ⟨⟨rfl, rfl⟩, rfl⟩) (fun _ _ => ⟨⟨rfl, rfl⟩, rfl⟩)

private theorem guardedBody_idle (kind : WriteKind) (relation : String)
    (predicted : PredictedBlastRadius) (cap : WriteCap) (conn : ApplyConn ω)
    (barrier : ApplyBarrier ω) :
    Appends ApplyCall.IsIdle (guardedBody kind relation predicted cap conn barrier) := by
  unfold guardedBody
  refine Appends.bind (Appends.disturb _) fun _ => ?_
  refine Appends.bind (Appends.perform fun _ => ⟨⟨rfl, rfl⟩, rfl⟩) fun forward => ?_
  refine Appends.bind (Appends.perform fun _ => ⟨⟨rfl, rfl⟩, rfl⟩) fun deltas => ?_
  refine Appends.bind (Appends.lift _) fun _ => ?_
  refine Appends.bind (Appends.lift _) fun _ => ?_
  refine Appends.bind (Appends.perform fun _ => ⟨⟨rfl, rfl⟩, rfl⟩) fun wal => ?_
  refine Appends.bind (Appends.lift _) fun _ => ?_
  refine Appends.bind (Appends.lift _) fun _ => ?_
  exact Appends.bind (Appends.lift _) fun _ => Appends.pure _

/-- The guarded body succeeds exactly on the answers every guard accepts. -/
private theorem guardedBody_ok_iff {kind : WriteKind} {relation : String}
    {predicted : PredictedBlastRadius} {cap : WriteCap} {conn : ApplyConn ω}
    {barrier : ApplyBarrier ω} {w : ω} {l : List ApplyCall} {forward : ForwardResult}
    {s' : Logged ω ApplyCall} :
    guardedBody kind relation predicted cap conn barrier ⟨w, l⟩ = (.ok forward, s') ↔
      ∃ written deltas measured walBytes final,
        conn.applyForward kind relation (predicted.cascades.map Prod.fst)
          (barrier.pausePoint "between dry_run and apply" w) = (.ok forward, written) ∧
        conn.xactTupleDeltas written = (.ok deltas, measured) ∧
        reconcileFullEffect predicted relation kind deltas = .ok () ∧
        enforceCap relation .rows cap.maxRows (liveRows deltas) = .ok () ∧
        conn.xactWalBytes measured = (.ok walBytes, final) ∧
        enforceCap relation .walBytes cap.maxWalBytes walBytes = .ok () ∧
        assertReversiblePreimageCoverage relation forward deltas = .ok () ∧
        assertWrittenColumnCoverage kind relation forward = .ok () ∧
        s' = ⟨final, l ++ [.applyForward kind relation (.ok forward),
          .xactTupleDeltas (.ok deltas), .xactWalBytes (.ok walBytes)]⟩ := by
  constructor
  · intro h
    unfold guardedBody at h
    simp only [Eff.bind_ok_iff, perform_eq_iff, disturb_apply, Eff.lift_apply, Eff.pure_apply,
      Prod.mk.injEq, Except.ok.injEq] at h
    obtain ⟨_, s₀, ⟨-, rfl⟩, f, s₁, ⟨hf, rfl⟩, deltas, s₂, ⟨hd, rfl⟩, _, s₃, ⟨hrec, rfl⟩,
      _, s₄, ⟨hrows, rfl⟩, wal, s₅, ⟨hwal, rfl⟩, _, s₆, ⟨hwalCap, rfl⟩, _, s₇, ⟨hcov, rfl⟩,
      _, s₈, ⟨hcol, rfl⟩, rfl, rfl⟩ := h
    exact ⟨_, deltas, _, wal, _, Prod.ext hf rfl, Prod.ext hd rfl, hrec, hrows,
      Prod.ext hwal rfl, hwalCap, hcov, hcol, by simp⟩
  · rintro ⟨written, deltas, measured, wal, final, hf, hd, hrec, hrows, hwal, hwalCap, hcov,
      hcol, rfl⟩
    unfold guardedBody
    rw [Eff.bind_of_ok (disturb_apply _ _),
      Eff.bind_of_ok (perform_of hf), Eff.bind_of_ok (perform_of hd),
      Eff.bind_of_ok (Eff.lift_of_ok hrec _), Eff.bind_of_ok (Eff.lift_of_ok hrows _),
      Eff.bind_of_ok (perform_of hwal), Eff.bind_of_ok (Eff.lift_of_ok hwalCap _),
      Eff.bind_of_ok (Eff.lift_of_ok hcov _), Eff.bind_of_ok (Eff.lift_of_ok hcol _)]
    simp

/-- The arm that commits, computed from the connection's answer. -/
private theorem finish_run [Sha256] (i : Invocation ω) (t : Transcript ω)
    (s : Logged ω ApplyCall) :
    finish i.proposalId i.kind i.relation t.predicted t.fence i.timeoutMs t.forward i.conn s =
      (t.result i (i.conn.commit s.world).1,
        ⟨(i.conn.commit s.world).2, s.log ++ [.commit (i.conn.commit s.world).1]⟩) := by
  unfold finish Transcript.result
  simp only [Eff.bind_apply, perform]
  rcases (i.conn.commit s.world).1 with e | ⟨⟩
  · rfl
  · rcases hc : t.forward.writtenChecksum i.relation with e | checksum
    · simp
    · simp

/-- The arm that rolls back always asks for the rollback and keeps the guard's
error. -/
private theorem abandon_run (e : ApplyError) (conn : ApplyConn ω)
    (s : Logged ω ApplyCall) :
    abandon e conn s = (.error e, ⟨(conn.rollback s.world).2,
      s.log ++ [.rollback (conn.rollback s.world).1]⟩) := rfl

/-- A run that reaches the commit point, computed. -/
theorem run_of_commitPoint [Sha256] {i : Invocation ω} {w : ω} {t : Transcript ω}
    (h : CommitPoint i w t) (l : List ApplyCall) :
    i.run ⟨w, l⟩ =
      (t.result i (i.conn.commit t.final).1,
        ⟨(i.conn.commit t.final).2,
          l ++ t.calls i ++ [.commit (i.conn.commit t.final).1]⟩) := by
  have hfence : recoveryFence i.proposalId i.pitr i.conn i.clock ⟨w, l⟩ =
      (.ok t.fence, ⟨t.fenced, l ++ t.fenceCalls⟩) := by
    rw [recoveryFence_log, h.fence]
  have hbody : guardedBody i.kind i.relation t.predicted i.cap i.conn i.barrier
      ⟨t.opened, l ++ t.fenceCalls ++ [.begin i.timeoutMs (.ok ())]⟩ =
      (.ok t.forward, ⟨t.final, l ++ t.fenceCalls ++ [.begin i.timeoutMs (.ok ())] ++
        t.bodyCalls i⟩) :=
    guardedBody_ok_iff.mpr ⟨t.written, t.deltas, t.measured, t.walBytes, t.final, h.forward,
      h.deltas, h.reconciled, h.rowCap, h.walBytes, h.walCap, h.covered, h.columns, rfl⟩
  have hfin := finish_run i t ⟨t.final, l ++ t.fenceCalls ++
    [.begin i.timeoutMs (.ok ())] ++ t.bodyCalls i⟩
  unfold Invocation.run guardedApply
  refine (Eff.bind_of_ok (Eff.lift_of_ok h.preflight _)).trans ?_
  refine (Eff.bind_of_ok hfence).trans ?_
  refine (Eff.bind_of_ok (perform_of h.begun)).trans ?_
  refine (Eff.bind_of_ok (Eff.attempt_of hbody)).trans (hfin.trans ?_)
  simp [Transcript.calls]

/-! ## The three ways a run ends -/

/-- The run stopped before a transaction was open. -/
def StopsEarly [Sha256] (i : Invocation ω) (s : Logged ω ApplyCall) : Prop :=
  ∃ e w' es, i.run s = (.error e, ⟨w', s.log ++ es⟩) ∧ ∀ c ∈ es, ApplyCall.IsIdle c

/-- The run opened a transaction and rolled it back. -/
def RollsBack [Sha256] (i : Invocation ω) (s : Logged ω ApplyCall) : Prop :=
  ∃ e w' before body answer,
    i.run s = (.error e, ⟨w', s.log ++ (before ++ .begin i.timeoutMs (.ok ()) ::
      (body ++ [.rollback answer]))⟩) ∧
    (∀ c ∈ before, ApplyCall.IsIdle c) ∧ ∀ c ∈ body, ApplyCall.IsIdle c

/-- Every run stops early, rolls back, or reaches the commit point. -/
theorem run_cases [Sha256] (i : Invocation ω) (s : Logged ω ApplyCall) :
    StopsEarly i s ∨ RollsBack i s ∨ ∃ t, CommitPoint i s.world t := by
  obtain ⟨w, l⟩ := s
  unfold StopsEarly RollsBack Invocation.run guardedApply
  rcases hpre : preflight i.proposalId i.kind i.relation i.dryRun i.cap with e | predicted
  · left
    refine ⟨e, w, [], ?_, by simp⟩
    rw [Eff.bind_of_error (Eff.lift_apply _ _)]
    simp
  rcases hfence : recoveryFence i.proposalId i.pitr i.conn i.clock ⟨w, []⟩ with
    ⟨e | fence, fenced, fenceCalls⟩
  all_goals
    have hlog := recoveryFence_log i.proposalId i.pitr i.conn i.clock w l
    rw [hfence] at hlog
    obtain ⟨es, hes, hidle⟩ :=
      (recoveryFence_idle i.proposalId i.pitr i.conn i.clock).of_run hfence
    simp only [List.nil_append] at hes
    subst hes
  · left
    refine ⟨e, fenced, fenceCalls, ?_, hidle⟩
    exact (Eff.bind_of_ok (Eff.lift_apply _ _)).trans (Eff.bind_of_error hlog)
  rcases hbegin : i.conn.begin i.timeoutMs fenced with ⟨e | _, opened⟩
  · left
    refine ⟨e, opened, fenceCalls ++ [.begin i.timeoutMs (.error e)], ?_, ?_⟩
    · refine (Eff.bind_of_ok (Eff.lift_apply _ _)).trans ((Eff.bind_of_ok hlog).trans ?_)
      refine (Eff.bind_of_error (perform_of hbegin)).trans ?_
      simp [Invocation.timeoutMs]
    · intro c hc
      rcases List.mem_append.mp hc with hc | hc
      · exact hidle c hc
      · rw [List.mem_singleton.mp hc]
        exact ⟨⟨rfl, rfl⟩, rfl⟩
  right
  rcases hbody : guardedBody i.kind i.relation predicted i.cap i.conn i.barrier
    ⟨opened, l ++ fenceCalls ++ [.begin i.timeoutMs (.ok ())]⟩ with ⟨e | forward, w', l'⟩
  · left
    obtain ⟨body, hlogBody, hbodyIdle⟩ :=
      (guardedBody_idle i.kind i.relation predicted i.cap i.conn i.barrier).of_run hbody
    simp only at hlogBody
    subst hlogBody
    refine ⟨e, (i.conn.rollback w').2, fenceCalls, body, (i.conn.rollback w').1, ?_, hidle,
      hbodyIdle⟩
    refine (Eff.bind_of_ok (Eff.lift_apply _ _)).trans ((Eff.bind_of_ok hlog).trans ?_)
    refine (Eff.bind_of_ok (perform_of hbegin)).trans ?_
    refine (Eff.bind_of_ok (Eff.attempt_of hbody)).trans ((abandon_run e i.conn _).trans ?_)
    simp
  · right
    obtain ⟨written, deltas, measured, wal, final, hf, hd, hrec, hrows, hwal, hwalCap, hcov,
      hcol, -⟩ := guardedBody_ok_iff.mp hbody
    exact ⟨⟨predicted, fence, fenceCalls, fenced, opened, forward, written, deltas, measured,
      wal, final⟩, hpre, hfence, hbegin, hf, hd, hrec, hrows, hwal, hwalCap, hcov, hcol⟩

/-- A run only ever extends the log. -/
theorem run_log_extends [Sha256] (i : Invocation ω) (s : Logged ω ApplyCall) :
    ∃ es, (i.run s).2.log = s.log ++ es := by
  rcases run_cases i s with ⟨e, w', es, hrun, -⟩ | ⟨e, w', before, body, answer, hrun, -, -⟩ |
    ⟨t, ht⟩
  · exact ⟨es, by rw [hrun]⟩
  · exact ⟨_, by rw [hrun]⟩
  · have hrun := run_of_commitPoint ht s.log
    exact ⟨t.calls i ++ [.commit (i.conn.commit t.final).1], by
      rw [show s = ⟨s.world, s.log⟩ from rfl, hrun]
      simp⟩

end PgBrakes.Ports.GuardedApplyRun
