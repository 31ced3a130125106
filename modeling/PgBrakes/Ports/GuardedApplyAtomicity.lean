import PgBrakes.Ports.GuardedApplyRun

/-!
# When a guarded apply is atomic

The engine promises that an error means that nothing was committed and that an
open transaction was rolled back, and that a success means one commit and no
rollback.  Up to the commit it keeps the promise on every path.  Two steps come
after it: the answer of the commit itself, whose error is returned without a
rollback, and the checksum of the written keys, which is computed when the
commit has already happened and fails on tuples of different arity.

## Main results

* `run_atomic_iff` — the engine is atomic on exactly the runs where, once every
  guard has passed, the commit succeeds and the written keys share one arity.
-/

namespace PgBrakes.Ports.GuardedApplyAtomicity

open PgBrakes.Verified.Effect
open PgBrakes.Ports.KeyChecksum
open PgBrakes.Ports.TypedInverse
open PgBrakes.Ports.BlastRecord
open PgBrakes.Ports.GuardedApply
open PgBrakes.Ports.GuardedApplyRun

variable {ω : Type}

/-- Successful commits in a log. -/
def commits (log : List ApplyCall) : Nat := log.countP ApplyCall.isCommit

/-- Rollbacks asked for in a log. -/
def rollbacks (log : List ApplyCall) : Nat := log.countP ApplyCall.isRollback

/-- What the engine promises about a result and the calls that led to it. -/
def Atomic (r : Except ApplyError AppliedWrite) (log : List ApplyCall) : Prop :=
  match r with
  | .error _ => commits log = 0 ∧ ((∃ c ∈ log, c.isBegin) → 0 < rollbacks log)
  | .ok _ => commits log = 1 ∧ rollbacks log = 0

instance (r : Except ApplyError AppliedWrite) (log : List ApplyCall) :
    Decidable (Atomic r log) :=
  match r with
  | .error _ =>
      inferInstanceAs
        (Decidable (commits log = 0 ∧ ((∃ c ∈ log, c.isBegin) → 0 < rollbacks log)))
  | .ok _ => inferInstanceAs (Decidable (commits log = 1 ∧ rollbacks log = 0))

/-! ## Counting calls -/

theorem commits_append (l₁ l₂ : List ApplyCall) :
    commits (l₁ ++ l₂) = commits l₁ + commits l₂ :=
  List.countP_append

theorem ne_nil_of_commits {l : List ApplyCall} (h : 0 < commits l) : l ≠ [] := by
  rintro rfl
  exact absurd h (Nat.lt_irrefl 0)

theorem rollbacks_append (l₁ l₂ : List ApplyCall) :
    rollbacks (l₁ ++ l₂) = rollbacks l₁ + rollbacks l₂ :=
  List.countP_append

theorem commits_of_quiet {l : List ApplyCall} (h : ∀ c ∈ l, c.IsQuiet) : commits l = 0 := by
  rw [commits, List.countP_eq_zero]
  intro c hc
  simp [(h c hc).isCommit]

theorem rollbacks_of_quiet {l : List ApplyCall} (h : ∀ c ∈ l, c.IsQuiet) :
    rollbacks l = 0 := by
  rw [rollbacks, List.countP_eq_zero]
  intro c hc
  simp [(h c hc).2]

/-! ## The commit point -/

/-- The checksum after the commit exists exactly when the written keys share one
arity. -/
theorem writtenChecksum_ok_iff [Sha256] (f : ForwardResult) (relation : String) :
    (∃ checksum, f.writtenChecksum relation = .ok checksum) ↔
      PkSetBuilder.UniformArity (f.written.map (·.pk)) := by
  rw [← PkSetBuilder.pushAll_ok_iff relation]
  unfold ForwardResult.writtenChecksum
  rcases hpush : (PkSetBuilder.forRelation relation).pushAll (f.written.map (·.pk)) with e | b
  · simp [hpush]
  · have hkey : b.pkLess = false := PkSetBuilder.pushAll_pkLess hpush
    simp [hpush, PkSetBuilder.finalize, hkey]

/-- The calls before the commit settle nothing. -/
theorem calls_quiet {i : Invocation ω} {w : ω} {t : Transcript ω}
    (h : CommitPoint i w t) : ∀ c ∈ t.calls i, c.IsQuiet := by
  intro c hc
  simp only [Transcript.calls, Transcript.bodyCalls, List.mem_append, List.mem_cons,
    List.not_mem_nil, or_false] at hc
  rcases hc with hc | rfl | rfl | rfl | rfl
  · exact (h.fenceCalls_idle c hc).1
  all_goals exact ⟨rfl, rfl⟩

/-- At the commit point the engine is atomic exactly when the commit succeeds
and the checksum after it exists. -/
theorem atomic_at_commitPoint [Sha256] {i : Invocation ω} {w : ω} {t : Transcript ω}
    (h : CommitPoint i w t) :
    Atomic (i.run ⟨w, []⟩).1 (i.run ⟨w, []⟩).2.log ↔
      (i.conn.commit t.final).1 = .ok () ∧
        PkSetBuilder.UniformArity (t.forward.written.map (·.pk)) := by
  have hquiet := calls_quiet h
  rw [run_of_commitPoint h []]
  simp only [List.nil_append]
  rcases hcommit : (i.conn.commit t.final).1 with e | ⟨⟩
  · -- The commit failed: the transaction was open and nothing rolled it back.
    have hbegin : ∃ c ∈ t.calls i ++ [.commit (.error e)], c.isBegin :=
      ⟨.begin i.timeoutMs (.ok ()), by simp [Transcript.calls], rfl⟩
    have hroll : rollbacks (t.calls i ++ [.commit (.error e)]) = 0 := by
      rw [rollbacks_append, rollbacks_of_quiet hquiet]
      rfl
    constructor
    · intro hatomic
      have := hatomic.2 hbegin
      omega
    · rintro ⟨hok, -⟩
      cases hok
  · have hone : commits (t.calls i ++ [.commit (.ok ())]) = 1 := by
      rw [commits_append, commits_of_quiet hquiet]
      rfl
    have hroll : rollbacks (t.calls i ++ [.commit (.ok ())]) = 0 := by
      rw [rollbacks_append, rollbacks_of_quiet hquiet]
      rfl
    rw [← writtenChecksum_ok_iff t.forward i.relation]
    rcases hsum : t.forward.writtenChecksum i.relation with e | checksum
    · simp [Transcript.result, hsum, Atomic, hone]
    · simp [Transcript.result, hsum, Atomic, hone, hroll]

/-- A run that stops early returns an error and is atomic. -/
theorem atomic_of_stopsEarly [Sha256] {i : Invocation ω} {w : ω}
    (h : StopsEarly i ⟨w, []⟩) :
    commits (i.run ⟨w, []⟩).2.log = 0 ∧
      Atomic (i.run ⟨w, []⟩).1 (i.run ⟨w, []⟩).2.log := by
  obtain ⟨e, w', es, hrun, hidle⟩ := h
  rw [hrun, List.nil_append]
  have hnone := commits_of_quiet fun c hc => (hidle c hc).1
  refine ⟨hnone, hnone, ?_⟩
  rintro ⟨c, hc, hbegin⟩
  rw [(hidle c hc).2] at hbegin
  cases hbegin

/-- A run that rolls back returns an error and is atomic. -/
theorem atomic_of_rollsBack [Sha256] {i : Invocation ω} {w : ω}
    (h : RollsBack i ⟨w, []⟩) :
    commits (i.run ⟨w, []⟩).2.log = 0 ∧
      Atomic (i.run ⟨w, []⟩).1 (i.run ⟨w, []⟩).2.log := by
  obtain ⟨e, w', before, body, answer, hrun, hbefore, hbody⟩ := h
  rw [hrun, List.nil_append]
  have hnone : commits (before ++ .begin i.timeoutMs (.ok ()) ::
      (body ++ [.rollback answer])) = 0 := by
    rw [commits_append, commits_of_quiet fun c hc => (hbefore c hc).1, Nat.zero_add,
      commits, List.countP_cons_of_neg (by simp [ApplyCall.isCommit])]
    rw [← commits, commits_append, commits_of_quiet fun c hc => (hbody c hc).1]
    rfl
  refine ⟨hnone, hnone, fun _ => ?_⟩
  simp [rollbacks, List.countP_append, List.countP_cons, ApplyCall.isRollback]

/-- A run that committed has passed every guard. -/
theorem commitPoint_of_commits [Sha256] {i : Invocation ω} {w : ω}
    (h : 0 < commits (i.run ⟨w, []⟩).2.log) : ∃ t, CommitPoint i w t := by
  rcases run_cases i ⟨w, []⟩ with hstop | hroll | hpoint
  · have := (atomic_of_stopsEarly hstop).1
    omega
  · have := (atomic_of_rollsBack hroll).1
    omega
  · exact hpoint

/-- The engine keeps its promise on exactly the runs where, once every guard has
passed, the commit succeeds and the written keys share one arity. -/
theorem run_atomic_iff [Sha256] (i : Invocation ω) (w : ω) :
    Atomic (i.run ⟨w, []⟩).1 (i.run ⟨w, []⟩).2.log ↔
      ∀ t, CommitPoint i w t →
        (i.conn.commit t.final).1 = .ok () ∧
          PkSetBuilder.UniformArity (t.forward.written.map (·.pk)) := by
  constructor
  · intro hatomic t ht
    exact (atomic_at_commitPoint ht).mp hatomic
  · intro h
    rcases run_cases i ⟨w, []⟩ with hstop | hroll | ⟨t, ht⟩
    · exact (atomic_of_stopsEarly hstop).2
    · exact (atomic_of_rollsBack hroll).2
    · exact (atomic_at_commitPoint ht).mpr (h t ht)

/-! ## A run that commits and reports an error -/

/-- A dry-run record of an `UPDATE` of two rows of one table. -/
def twoRowRadius : BlastRadius :=
  { proposalId := "p1"
    cloneLsn := "0/1"
    stalenessLsnBytes := 0
    affected :=
      { byTable := .ofList [("public.accounts", 2)]
        cascadeByTable := ∅
        pkSetChecksum := .ofList [("public.accounts", "sha256:00")]
        effectByTable := .ofList [("public.accounts", (⟨0, 2, 0⟩ : OpCounts))]
        totalRows := 2 }
    triggersFired := []
    locks := []
    maxLockMode := .rowExclusiveLock
    durationMs := 1
    walBytes := 0
    constraintViolations := []
    reversible := true
    inverseKind := .preimageUpsert
    predicateVolatile := false }

/-- The connection reports two written rows, one with a key of one column and
one with a key of two. -/
def mixedArityForward : ForwardResult :=
  .new
    [ { pk := .single (.int 1), beforeImage := [("owner", .text "a")] }
    , { pk := ⟨[.int 2, .int 3], by simp⟩, beforeImage := [("owner", .text "b")] } ]

/-- The apply of `twoRowRadius` over that connection. -/
def mixedArityRun : Invocation Unit :=
  { proposalId := "p1"
    kind := .update
    relation := "public.accounts"
    dryRun := twoRowRadius
    cap := { maxRows := 2, maxWalBytes := 0 }
    pitr := { enabled := false }
    conn := .scripted mixedArityForward [⟨"public.accounts", 0, 2, 0⟩]
    barrier := .noop
    clock := ⟨fun w => (0, w), fun w => (0, w)⟩ }

/-- The commit succeeds, and the call returns an error. -/
theorem mixedArityRun_not_atomic :
    letI := Sha256.standard
    ¬ Atomic (mixedArityRun.run ⟨(), []⟩).1 (mixedArityRun.run ⟨(), []⟩).2.log := by
  decide

end PgBrakes.Ports.GuardedApplyAtomicity
