import PgBrakes.Ports.RevertRouting

/-!
# How a revert ends

What a revert reports against what its connection told it.  The engine passes
the counts of the connection on without comparing them with the rows it handed
over, and after a commit that failed it returns the error without a rollback.

## Main results

* `allOrNothing_iff` — a revert is all or nothing and honest exactly when, on the
  way to its commit, the connection restored as many rows as it was handed and
  accepted the commit.
* `idleConn_not_allOrNothing` — a row that vanished, and a commit that is
  refused.
-/

namespace PgBrakes.Ports.RevertHonesty

open PgBrakes.Verified.Effect
open PgBrakes.Verified.MachineWord
open PgBrakes.Ports.KeyChecksum
open PgBrakes.Ports.TypedInverse
open PgBrakes.Ports.BlastRecord
open PgBrakes.Ports.GuardedApply
open PgBrakes.Ports.Revert
open PgBrakes.Ports.RevertRouting

variable {ω : Type}

/-! ## Reading the log -/

/-- The relation and the count of a restore that succeeded. -/
def reportedCount : RevertCall → Option (String × Nat)
  | .restoreUpdate relation _ (.ok n) => some (relation, n)
  | .restoreInsert relation _ (.ok n) => some (relation, n)
  | _ => none

/-- The counts the connection reported, in order. -/
def reported (log : List RevertCall) : List (String × Nat) := log.filterMap reportedCount

def isCommit : RevertCall → Bool
  | .commit _ => true
  | _ => false

def commitsOk : RevertCall → Bool
  | .commit (.ok _) => true
  | _ => false

def beginsOk : RevertCall → Bool
  | .begin (.ok _) => true
  | _ => false

def isRollback : RevertCall → Bool
  | .rollback _ => true
  | _ => false

/-- A call that neither opens nor closes the transaction. -/
def Inner (c : RevertCall) : Prop :=
  isCommit c = false ∧ isRollback c = false ∧ beginsOk c = false

/-! ## What is to hold -/

/-- A revert that returned Ok has committed once, and for every relation the
connection restored as many rows as were captured for it. -/
structure Honest (inverse : InversePlan) (log : List RevertCall) : Prop where
  once : (log.filter isCommit).length = 1
  committed : log.any commitsOk = true
  counts : ∀ entry ∈ reported log,
    entry.2 = (rowsFor inverse.relation entry.1 inverse.rows).length
  covered : ∀ relation, rowsFor inverse.relation relation inverse.rows ≠ [] →
    relation ∈ (reported log).map Prod.fst

/-- A revert that returned Err after it began has rolled back, and no commit
succeeded. -/
structure Undone (log : List RevertCall) : Prop where
  rolledBack : log.any isRollback = true
  uncommitted : log.any commitsOk = false

/-- All or nothing, and honest. -/
def AllOrNothing (inverse : InversePlan) (result : Except RevertError RevertReport)
    (log : List RevertCall) : Prop :=
  match result with
  | .ok _ => Honest inverse log
  | .error _ => log.any beginsOk = true → Undone log

/-! ## What the connection answers -/

/-- The restore of a kind, on the connection itself. -/
def answer (kind : InverseKind) (relation : String) (rows : List RevertRow)
    (conn : RevertConn ω) : Eff ω RevertError Nat :=
  match kind with
  | .preimageUpsert => conn.restoreUpdate relation rows
  | .insert => conn.restoreInsert relation rows
  | .none => Eff.fail .notReversible

/-- What the connection answers when it is handed the rows of one relation after
the other, when it refuses none. -/
def answers (kind : InverseKind) (routed : Std.TreeMap String (List RevertRow))
    (conn : RevertConn ω) : List String → ω → Option (List (String × Nat) × ω)
  | [], w => some ([], w)
  | relation :: relations, w =>
      match answer kind relation (routed.getD relation []) conn w with
      | (.error _, _) => none
      | (.ok n, w') =>
          (answers kind routed conn relations w').map fun out => ((relation, n) :: out.1, out.2)

/-- The connection accounts for the rows it is handed: where it lets the revert
come to its commit, it has restored every row, and accepts the commit. -/
def Accounts (inverse : InversePlan) (conn : RevertConn ω) (w : ω) : Prop :=
  ∀ routed w₁ counts w₂, inverse.kind ≠ .none → routeRows inverse = .ok routed →
    conn.begin w = (.ok (), w₁) →
    answers inverse.kind routed conn inverse.fkOrder w₁ = some (counts, w₂) →
    (∀ entry ∈ counts, entry.2 = (rowsFor inverse.relation entry.1 inverse.rows).length) ∧
      ∃ w₃, conn.commit w₂ = (.ok (), w₃)

/-! ## The loop -/

@[simp] theorem reported_append (l₁ l₂ : List RevertCall) :
    reported (l₁ ++ l₂) = reported l₁ ++ reported l₂ :=
  List.filterMap_append

/-- One restore is one inner call, which reports the connection's answer. -/
private theorem restore_answer {kind : InverseKind} (hkind : kind ≠ .none) (relation : String)
    (rows : List RevertRow) (conn : RevertConn ω) (s : Logged ω RevertCall) :
    ∃ call, restore kind relation rows conn s =
        ((answer kind relation rows conn s.world).1,
          ⟨(answer kind relation rows conn s.world).2, s.log ++ [call]⟩) ∧
      Inner call ∧
      ∀ n, (answer kind relation rows conn s.world).1 = .ok n →
        reportedCount call = some (relation, n) := by
  cases kind with
  | preimageUpsert =>
      refine ⟨_, rfl, ⟨rfl, rfl, rfl⟩, ?_⟩
      intro n hn
      show reportedCount (.restoreUpdate relation rows (answer .preimageUpsert relation rows conn
        s.world).1) = _
      rw [hn]
      rfl
  | insert =>
      refine ⟨_, rfl, ⟨rfl, rfl, rfl⟩, ?_⟩
      intro n hn
      show reportedCount (.restoreInsert relation rows (answer .insert relation rows conn
        s.world).1) = _
      rw [hn]
      rfl
  | none => exact absurd rfl hkind

/-- The loop over the relations ends as the connection's answers say. -/
private theorem restoreAll_answers {kind : InverseKind} (hkind : kind ≠ .none)
    (routed : Std.TreeMap String (List RevertRow)) (conn : RevertConn ω)
    (relations : List String) :
    ∀ (done : List (String × Nat)) (total : Nat) (s : Logged ω RevertCall),
      ∃ calls, (∀ c ∈ calls, Inner c) ∧
        match answers kind routed conn relations s.world with
        | some (counts, w') => reported calls = counts ∧ ∃ out,
            restoreAll kind routed conn done total relations s = (.ok out, ⟨w', s.log ++ calls⟩)
        | none => ∃ e w',
            restoreAll kind routed conn done total relations s =
              (.error e, ⟨w', s.log ++ calls⟩) := by
  induction relations with
  | nil =>
      intro done total s
      exact ⟨[], by simp, rfl, _, by rw [List.append_nil]; rfl⟩
  | cons relation relations ih =>
      intro done total s
      obtain ⟨call, hrun, hinner, hcount⟩ :=
        restore_answer hkind relation (routed.getD relation []) conn s
      rcases hanswer : answer kind relation (routed.getD relation []) conn s.world with
        ⟨e | n, w'⟩
      · rw [hanswer] at hrun
        refine ⟨[call], by simpa using hinner, ?_⟩
        simp only [answers, hanswer]
        exact ⟨e, w', by rw [restoreAll, Eff.bind_of_error hrun]⟩
      · rw [hanswer] at hrun hcount
        obtain ⟨calls, hinners, hrest⟩ :=
          ih (done ++ [(relation, n)]) (satAdd total n) ⟨w', s.log ++ [call]⟩
        have hreported : reportedCount call = some (relation, n) := hcount n rfl
        refine ⟨call :: calls, ?_, ?_⟩
        · intro c hc
          rcases List.mem_cons.mp hc with rfl | hc
          · exact hinner
          · exact hinners c hc
        simp only [answers, hanswer]
        have hlog : s.log ++ call :: calls = s.log ++ [call] ++ calls := by simp
        rw [restoreAll, Eff.bind_of_ok hrun, hlog]
        rcases hanswers : answers kind routed conn relations w' with _ | ⟨counts, w''⟩
        · rw [hanswers] at hrest
          exact hrest
        · rw [hanswers] at hrest
          refine ⟨?_, hrest.2⟩
          rw [reported, List.filterMap_cons_some hreported]
          exact congrArg _ hrest.1

/-- The answers of a whole walk are those for its relations. -/
private theorem answers_relations {kind : InverseKind}
    {routed : Std.TreeMap String (List RevertRow)} {conn : RevertConn ω}
    {relations : List String} :
    ∀ {w w' : ω} {counts : List (String × Nat)},
      answers kind routed conn relations w = some (counts, w') →
      counts.map Prod.fst = relations := by
  induction relations with
  | nil =>
      intro w w' counts h
      cases h
      rfl
  | cons relation relations ih =>
      intro w w' counts h
      simp only [answers] at h
      split at h
      · cases h
      · obtain ⟨out, hout, heq⟩ := Option.map_eq_some_iff.mp h
        cases heq
        rw [List.map_cons, ih hout]

/-- A relation with captured rows is one of the inverse's relations. -/
private theorem mem_fkOrder_of_rows {inverse : InversePlan}
    {routed : Std.TreeMap String (List RevertRow)} (hroute : routeRows inverse = .ok routed)
    {relation : String} (h : rowsFor inverse.relation relation inverse.rows ≠ []) :
    relation ∈ inverse.fkOrder := by
  have hall := (routeRows_ok_iff inverse).mp ⟨routed, hroute⟩
  obtain ⟨r, hr⟩ := List.exists_mem_of_ne_nil _ h
  obtain ⟨row, hrow, -⟩ := List.mem_map.mp hr
  obtain ⟨hmem, howner⟩ := List.mem_filter.mp hrow
  have hordered := (hall row hmem).ordered
  rwa [of_decide_eq_true howner] at hordered

/-! ## How it ends -/

private theorem any_inner {p : RevertCall → Bool} {calls : List RevertCall}
    (h : ∀ c ∈ calls, Inner c) (hp : ∀ c, Inner c → p c = false) : calls.any p = false :=
  List.any_eq_false.mpr fun c hc => by simp [hp c (h c hc)]

/-- The ways a revert ends: before its transaction, with a rollback, or with a
commit after the connection has answered for every relation. -/
theorem revert_ends (inverse : InversePlan) (conn : RevertConn ω) (w : ω) :
    (∃ e s, revert inverse conn ⟨w, []⟩ = (.error e, s) ∧ s.log.any beginsOk = false ∧
      ∀ routed w₁, inverse.kind ≠ .none → routeRows inverse = .ok routed →
        conn.begin w ≠ (.ok (), w₁)) ∨
    ∃ routed w₁ calls, inverse.kind ≠ .none ∧ routeRows inverse = .ok routed ∧
      conn.begin w = (.ok (), w₁) ∧ (∀ c ∈ calls, Inner c) ∧
      ((answers inverse.kind routed conn inverse.fkOrder w₁ = none ∧ ∃ e a w',
          revert inverse conn ⟨w, []⟩ =
            (.error e, ⟨w', .begin (.ok ()) :: calls ++ [.rollback a]⟩)) ∨
        ∃ counts w₂, answers inverse.kind routed conn inverse.fkOrder w₁ = some (counts, w₂) ∧
          reported calls = counts ∧
          ((∃ e w₃, conn.commit w₂ = (.error e, w₃) ∧ revert inverse conn ⟨w, []⟩ =
              (.error e, ⟨w₃, .begin (.ok ()) :: calls ++ [.commit (.error e)]⟩)) ∨
            ∃ report w₃, conn.commit w₂ = (.ok (), w₃) ∧ revert inverse conn ⟨w, []⟩ =
              (.ok report, ⟨w₃, .begin (.ok ()) :: calls ++ [.commit (.ok ())]⟩))) := by
  by_cases hkind : inverse.kind = .none
  · left
    refine ⟨.notReversible, ⟨w, []⟩, by rw [revert, if_pos hkind]; rfl, rfl, ?_⟩
    exact fun _ _ hne => absurd hkind hne
  rcases hroute : routeRows inverse with e | routed
  · left
    refine ⟨e, ⟨w, []⟩, ?_, rfl, fun _ _ _ h => by cases h⟩
    rw [revert, if_neg hkind, hroute]
    rfl
  rw [revert, if_neg hkind, Eff.bind_of_ok (Eff.lift_of_ok hroute _)]
  rcases hbegin : conn.begin w with ⟨e | ⟨⟩, w₁⟩
  · left
    refine ⟨e, _, Eff.bind_of_error (perform_of hbegin), rfl, fun _ _ _ _ h => by cases h⟩
  right
  rw [Eff.bind_of_ok (perform_of hbegin)]
  obtain ⟨calls, hinner, hends⟩ := restoreAll_answers hkind routed conn inverse.fkOrder [] 0
    ⟨w₁, [.begin (.ok ())]⟩
  refine ⟨routed, w₁, calls, hkind, rfl, rfl, hinner, ?_⟩
  rcases hanswers : answers inverse.kind routed conn inverse.fkOrder w₁ with _ | ⟨counts, w₂⟩
  · left
    rw [hanswers] at hends
    obtain ⟨e, w', hrun⟩ := hends
    have hbody : revertBody inverse routed conn ⟨w₁, [.begin (.ok ())]⟩ = (.error e, _) :=
      Eff.bind_of_error hrun
    refine ⟨rfl, e, (conn.rollback w').1, (conn.rollback w').2, ?_⟩
    rw [List.nil_append, Eff.bind_of_ok (Eff.attempt_of hbody)]
    rfl
  · right
    rw [hanswers] at hends
    obtain ⟨hreported, out, hrun⟩ := hends
    have hbody : revertBody inverse routed conn ⟨w₁, [.begin (.ok ())]⟩ = (.ok _, _) :=
      (Eff.bind_of_ok hrun).trans rfl
    refine ⟨counts, w₂, rfl, hreported, ?_⟩
    rw [List.nil_append, Eff.bind_of_ok (Eff.attempt_of hbody)]
    rcases hcommit : conn.commit w₂ with ⟨e | ⟨⟩, w₃⟩
    · left
      exact ⟨e, w₃, rfl, Eff.bind_of_error (perform_of hcommit)⟩
    · right
      exact ⟨_, w₃, rfl, (Eff.bind_of_ok (perform_of hcommit)).trans rfl⟩

section Logs

variable {inverse : InversePlan} {conn : RevertConn ω} {w w₁ w₂ : ω}
  {routed : Std.TreeMap String (List RevertRow)} {counts : List (String × Nat)}
  {calls : List RevertCall}

private theorem undone_of_rollback (hinner : ∀ c ∈ calls, Inner c) (a : Except RevertError Unit) :
    Undone (.begin (.ok ()) :: calls ++ [.rollback a]) := by
  have hcommits : calls.any commitsOk = false := by
    refine any_inner hinner fun c hc => ?_
    cases c with
    | commit a => cases hc.1
    | _ => rfl
  refine ⟨?_, ?_⟩
  · simp [isRollback]
  · simp [hcommits, commitsOk]

/-- A refused commit is not followed by a rollback. -/
private theorem not_undone_of_refused (hinner : ∀ c ∈ calls, Inner c) (e : RevertError) :
    ¬ Undone (.begin (.ok ()) :: calls ++ [.commit (.error e)]) := by
  intro h
  have hrolls : calls.any isRollback = false := any_inner hinner fun c hc => hc.2.1
  have hrolled := h.rolledBack
  rw [List.any_append, List.any_cons, hrolls] at hrolled
  cases hrolled

/-- A log that ends with a commit is honest when the counts it reports are the
captured ones: the relations are all there, since the connection answered for
each. -/
private theorem honest_iff_counts (hinner : ∀ c ∈ calls, Inner c)
    (hroute : routeRows inverse = .ok routed)
    (hanswers : answers inverse.kind routed conn inverse.fkOrder w₁ = some (counts, w₂))
    (hreported : reported calls = counts) :
    Honest inverse (.begin (.ok ()) :: calls ++ [.commit (.ok ())]) ↔
      ∀ entry ∈ counts, entry.2 = (rowsFor inverse.relation entry.1 inverse.rows).length := by
  have hlog : reported (.begin (.ok ()) :: calls ++ [.commit (.ok ())]) = counts := by
    rw [reported_append, ← hreported]
    exact List.append_nil _
  have hfilter : calls.filter isCommit = [] := by
    rw [List.filter_eq_nil_iff]
    intro c hc
    simp [(hinner c hc).1]
  constructor
  · intro h
    rw [← hlog]
    exact h.counts
  · intro hcounts
    refine ⟨?_, ?_, ?_, ?_⟩
    · rw [List.filter_append, List.filter_cons_of_neg (by simp [isCommit]), hfilter]
      rfl
    · simp [commitsOk]
    · rw [hlog]
      exact hcounts
    · intro relation hrows
      rw [hlog, answers_relations hanswers]
      exact mem_fkOrder_of_rows hroute hrows

/-- Where the revert begins, the connection accounts for the rows when its
answers do, if it comes to answer for them all. -/
private theorem accounts_iff (hkind : inverse.kind ≠ .none)
    (hroute : routeRows inverse = .ok routed) (hbegin : conn.begin w = (.ok (), w₁)) :
    Accounts inverse conn w ↔
      ∀ counts w₂, answers inverse.kind routed conn inverse.fkOrder w₁ = some (counts, w₂) →
        (∀ entry ∈ counts,
          entry.2 = (rowsFor inverse.relation entry.1 inverse.rows).length) ∧
        ∃ w₃, conn.commit w₂ = (.ok (), w₃) := by
  constructor
  · intro h counts w₂ hanswers
    exact h routed w₁ counts w₂ hkind hroute hbegin hanswers
  · intro h routed' w₁' counts w₂ _ hroute' hbegin' hanswers
    rw [hroute] at hroute'
    rw [hbegin] at hbegin'
    cases hroute'
    cases hbegin'
    exact h counts w₂ hanswers

end Logs

/-- A revert is all or nothing and honest exactly when its connection accounts for
the rows it is handed. -/
theorem allOrNothing_iff (inverse : InversePlan) (conn : RevertConn ω) (w : ω) :
    AllOrNothing inverse (revert inverse conn ⟨w, []⟩).1 (revert inverse conn ⟨w, []⟩).2.log ↔
      Accounts inverse conn w := by
  rcases revert_ends inverse conn w with ⟨e, s, hrun, hbegun, hnever⟩ |
    ⟨routed, w₁, calls, hkind, hroute, hbegin, hinner, hends⟩
  · rw [hrun]
    constructor
    · intro _ routed w₁ counts w₂ hkind hroute hbegin
      exact absurd hbegin (hnever routed w₁ hkind hroute)
    · intro _ hbegun'
      rw [hbegun] at hbegun'
      cases hbegun'
  rw [accounts_iff hkind hroute hbegin]
  rcases hends with ⟨hnone, e, a, w', hrun⟩ | ⟨counts, w₂, hanswers, hreported, hclose⟩
  · rw [hrun]
    constructor
    · intro _ counts w₂ hanswers
      rw [hnone] at hanswers
      cases hanswers
    · intro _ _
      exact undone_of_rollback hinner a
  rcases hclose with ⟨e, w₃, hcommit, hrun⟩ | ⟨report, w₃, hcommit, hrun⟩
  · rw [hrun]
    constructor
    · intro h
      exact absurd (h rfl) (not_undone_of_refused hinner e)
    · intro h
      obtain ⟨-, w₃', hok⟩ := h counts w₂ hanswers
      rw [hcommit] at hok
      cases hok
  · rw [hrun]
    have hhonest := honest_iff_counts hinner hroute hanswers hreported
    constructor
    · intro h counts' w₂' hanswers'
      rw [hanswers] at hanswers'
      cases hanswers'
      exact ⟨hhonest.mp h, w₃, hcommit⟩
    · intro h
      exact hhonest.mpr (h counts w₂ hanswers).1

/-! ## A row that vanished, and a commit that is refused -/

/-- A connection that restores no row, with this answer to the commit. -/
def idleConn (commit : Except RevertError Unit) : RevertConn Unit where
  begin := pure ()
  restoreUpdate _ _ := pure 0
  restoreInsert _ rows := pure rows.length
  commit := Eff.lift commit
  rollback := pure ()

/-- The inverse of an update of one row. -/
def oneRowInverse (kind : InverseKind) : InversePlan :=
  { kind := kind
    relation := "public.accounts"
    rows := [{ pk := .single (.int 1), beforeImage := [("owner", .text "a")] }]
    fkOrder := ["public.accounts"]
    notRestored := [] }

/-- A revert whose row has vanished commits and returns Ok; one whose commit is
refused returns the error without a rollback. -/
theorem idleConn_not_allOrNothing :
    ¬ AllOrNothing (oneRowInverse .preimageUpsert)
        (revert (oneRowInverse .preimageUpsert) (idleConn (.ok ())) ⟨(), []⟩).1
        (revert (oneRowInverse .preimageUpsert) (idleConn (.ok ())) ⟨(), []⟩).2.log ∧
      ¬ AllOrNothing (oneRowInverse .insert)
        (revert (oneRowInverse .insert) (idleConn (.error (.backend "gone"))) ⟨(), []⟩).1
        (revert (oneRowInverse .insert) (idleConn (.error (.backend "gone"))) ⟨(), []⟩).2.log := by
  constructor
  · intro h
    have hcounts := h.counts ("public.accounts", 0) (by decide)
    revert hcounts
    decide
  · intro h
    have hrolled := (h (by decide)).rolledBack
    revert hrolled
    decide

end PgBrakes.Ports.RevertHonesty
