import PgBrakes.Ports.PgRehearsal
import PgBrakes.Ports.ServiceRun
import PgBrakes.Ports.ServiceLifecycle

/-!
# The self-determined gate of the shipped daemon

The dispatch of `crates/applyd/src/main.rs`: a dry-run is driven with the
rehearsal that `PgRehearsal::new` makes, the other calls go to the service as
they are.  `PgRehearsal::new` leaves the self-determined gate off and `main` does
not switch it on, so a steerable predicate passes unless another refusal stops
it.

## Main results

* `gateHolds_iff` — in a run of the daemon the gate holds exactly when every
  dry-run of a stored proposal is of a predicate that passes the structural part
  of the gate, or is refused for another reason.
* `steeredRun_not_gated` — a run that opens a ticket for a predicate on a column
  that is not the key.
-/

namespace PgBrakes.Ports.DaemonGate

open PgBrakes.Verified.Effect
open PgBrakes.Verified.History
open PgBrakes.Ports.KeyChecksum
open PgBrakes.Ports.BlastRecord
open PgBrakes.Ports.GuardedApply
open PgBrakes.Ports.SqlAst
open PgBrakes.Ports.Predicate
open PgBrakes.Ports.Grant
open PgBrakes.Ports.DryRun
open PgBrakes.Ports.Approval
open PgBrakes.Ports.ApplyService
open PgBrakes.Ports.ServiceRun
open PgBrakes.Ports.PgRehearsal

variable {ω : Type}

/-! ## The daemon -/

/-- A request as the daemon receives it: for a dry-run, the database behind its
read connection. -/
inductive DaemonCall (ω : Type) where
  | propose (sql : String) (expectedRows : Option Nat) (role sessionId : String)
  | dryRun (proposalId : String) (backend : Backend ω)
  | requestElevation (proposalId reason : String)
  | approve (requestId approverId : String) (key : SigningKey) (nonce : String)
      (grantTtlMillis : Nat)
  | apply (proposalId : String) (confirmRows : Nat) (confirmToken : Option String)
      (conn : ApplyConn ω) (barrier : ApplyBarrier ω)

structure DaemonInput (ω : Type) where
  call : DaemonCall ω
  clock : Clock ω

/-- A request and the record of the service call it became. -/
structure DaemonRecord (ω : Type) where
  call : DaemonCall ω
  record : ServiceRecord ω

section Dispatch

variable [Sql]

/-- `PgRehearsal::new(&mut backends.read_client, &clock)`: the gate stays off. -/
def daemonRehearsal (backend : Backend ω) : Rehearsal ω := pgRehearsal backend false

/-- The service call of a request. -/
def DaemonCall.dispatch : DaemonCall ω → ServiceCall ω
  | .propose sql expectedRows role sessionId => .propose sql expectedRows role sessionId
  | .dryRun proposalId backend => .dryRun proposalId (daemonRehearsal backend)
  | .requestElevation proposalId reason => .requestElevation proposalId reason
  | .approve requestId approverId key nonce grantTtlMillis =>
      .approve requestId approverId key nonce grantTtlMillis
  | .apply proposalId confirmRows confirmToken conn barrier =>
      .apply proposalId confirmRows confirmToken conn barrier

variable [Sha256] [Ed25519]

def daemonStep (cfg : DaemonConfig ω) (i : DaemonInput ω) (s : DaemonState ω) :
    DaemonRecord ω × DaemonState ω :=
  let out := serviceStep cfg ⟨i.call.dispatch, i.clock⟩ s
  (⟨i.call, out.1⟩, out.2)

/-- The records of a run of a fresh daemon. -/
def daemonHistory (cfg : DaemonConfig ω) (inputs : List (DaemonInput ω)) (seq : Nat) (w : ω) :
    List (DaemonRecord ω) :=
  (run (daemonStep cfg) inputs ⟨.new, seq, w⟩).1

theorem daemonHistory_calls (cfg : DaemonConfig ω) (inputs : List (DaemonInput ω)) (seq : Nat)
    (w : ω) : (daemonHistory cfg inputs seq w).map (·.call) = inputs.map (·.call) := by
  have hrun : ∀ s : DaemonState ω, ((run (daemonStep cfg) inputs s).1).map (·.call) =
      inputs.map (·.call) := by
    induction inputs with
    | nil => simp [run]
    | cons i is ih => simp [run, ih, daemonStep]
  exact hrun _

end Dispatch

/-- The service keeps a record that has a checksum for the target, and refuses
every other. -/
private theorem cacheDryRun_ok_iff (cfg : DaemonConfig ω) (p : String) (record : ProposalRecord)
    (radius : BlastRadius) (clock : Clock ω) (s : ServiceState ω) :
    (∃ result s', cacheDryRun cfg p record radius clock s = (.ok result, s')) ↔
      record.relation ∈ radius.affected.pkSetChecksum := by
  rw [cacheDryRun, Std.TreeMap.mem_iff_isSome_getElem?]
  rcases hsum : radius.affected.pkSetChecksum[record.relation]? with _ | checksum
  · obtain ⟨e, s', hrefused, -⟩ := auditRefusalThen_moves (α := DryRunResult) cfg
      record.proposal.statement record.role record.sessionId
      (ErrorCode.pkLess.error ("no pk_set_checksum for target `" ++ record.relation ++ "`"))
      clock s
    simp [hrefused]
  · simp only [Option.isSome_some, iff_true]
    exact ⟨_, _, rfl⟩

/-! ## The guarantee and its condition -/

section Guarantee

variable [Sql]

/-- The predicate of a proposal passes the whole gate for the single key column
of its target. -/
def SelfDetermined (catalog : Catalog) (record : ProposalRecord) : Prop :=
  ∃ column typname,
    catalog.primaryKey (splitRelation record.relation) = .ok [(column, typname)] ∧
      (selfDeterminedPredicateReason record.proposal.statement column
        (steady catalog.volatilityOf) ()).1 = none

/-- It passes the structural part. -/
def Structural (catalog : Catalog) (record : ProposalRecord) : Prop :=
  ∃ column typname,
    catalog.primaryKey (splitRelation record.relation) = .ok [(column, typname)] ∧
      selfDeterminedPredicateStructuralReason record.proposal.statement column = none

namespace DaemonRecord

/-- The request was a successful dry-run of `p` over this backend. -/
def DryRanOver (x : DaemonRecord ω) (p : String) (backend : Backend ω) : Prop :=
  x.call = .dryRun p backend ∧ ∃ result, x.record.reply = .ok (.dryRan result)

/-- A dry-run that answered Ok was of a self-determined predicate. -/
def StepGuarantee (x : DaemonRecord ω) : Prop :=
  ∀ p backend, x.DryRanOver p backend → ∀ record,
    x.record.before.proposals[p]? = some record → SelfDetermined backend.catalog record

/-- A ticket was opened for a predicate that a dry-run before it found
self-determined. -/
def TicketGuarantee (before : List (DaemonRecord ω)) (x : DaemonRecord ω) : Prop :=
  ∀ p requestId, x.record.Opens p requestId →
    ∃ record, x.record.before.proposals[p]? = some record ∧
      ∃ d ∈ before, ∃ backend, d.DryRanOver p backend ∧ SelfDetermined backend.catalog record

/-- The condition on a dry-run of a stored proposal: its predicate passes the
structural part of the gate, or the proposal has expired, or one of the other
refusals applies. -/
def StepCondition (x : DaemonRecord ω) : Prop :=
  ∀ p backend record, x.call = .dryRun p backend →
    x.record.before.proposals[p]? = some record →
    Structural backend.catalog record ∨
      (record.proposal.isExpired x.record.clock x.record.world).1 = true ∨
      Refuses backend record.proposal record.kind record.relation x.record.clock
        (record.proposal.isExpired x.record.clock x.record.world).2

end DaemonRecord

/-- Steerable predicates are refused before approval, all along a run. -/
def GateHolds (history : List (DaemonRecord ω)) : Prop :=
  EveryStep (fun before x => x.StepGuarantee ∧ x.TicketGuarantee before) history

/-! ## One step -/

/-- The whole gate is the structural part and the volatility gate. -/
theorem proposal_selfDetermined_iff (catalog : Catalog) (record : ProposalRecord) :
    SelfDetermined catalog record ↔ Structural catalog record ∧
      (predicateVolatileReason record.proposal.statement (steady catalog.volatilityOf) ()).1 =
        none := by
  unfold SelfDetermined Structural
  constructor
  · rintro ⟨column, typname, hkey, hreason⟩
    rw [selfDeterminedPredicateReason_eq] at hreason
    split at hreason
    · cases hreason
    next hstructural =>
      exact ⟨⟨column, typname, hkey, hstructural⟩, Option.map_eq_none_iff.mp hreason⟩
  · rintro ⟨⟨column, typname, hkey, hstructural⟩, hvolatile⟩
    refine ⟨column, typname, hkey, ?_⟩
    rw [selfDeterminedPredicateReason_eq, hstructural]
    exact Option.map_eq_none_iff.mpr hvolatile

variable [Sha256] [Ed25519]

/-- The reply of a dry-run call is the answer of `Service::dry_run`. -/
private theorem dryRan_iff (cfg : DaemonConfig ω) (p : String) (rehearsal : Rehearsal ω)
    (clock : Clock ω) (s : DaemonState ω) :
    (∃ result, (serviceStep cfg ⟨.dryRun p rehearsal, clock⟩ s).1.reply =
        .ok (.dryRan result)) ↔
      ∃ result s', ApplyService.dryRun cfg p rehearsal clock s.start = (.ok result, s') := by
  have hreply : (serviceStep cfg ⟨.dryRun p rehearsal, clock⟩ s).1.reply =
      ((ApplyService.dryRun cfg p rehearsal clock >>= fun r =>
        (pure (Reply.dryRan r) : Eff (ServiceState ω) RpcError Reply)) s.start).1 := rfl
  rw [hreply]
  rcases hrun : ApplyService.dryRun cfg p rehearsal clock s.start with ⟨e | result, s'⟩
  · rw [Eff.bind_of_error hrun]
    simp
  · rw [Eff.bind_of_ok hrun]
    simp

/-- A dry-run of a stored proposal answers Ok exactly when the proposal is live
and the engine made a record with a checksum for the target. -/
theorem dryRun_replies_iff (cfg : DaemonConfig ω) (p : String) (rehearsal : Rehearsal ω)
    (clock : Clock ω) (s : DaemonState ω) {record : ProposalRecord}
    (hget : s.service.proposals[p]? = some record) :
    (∃ result, (serviceStep cfg ⟨.dryRun p rehearsal, clock⟩ s).1.reply =
        .ok (.dryRan result)) ↔
      (record.proposal.isExpired clock s.world).1 = false ∧
        ∃ radius w', DryRun.dryRun record.proposal rehearsal clock
            (record.proposal.isExpired clock s.world).2 = (.ok radius, w') ∧
          record.relation ∈ radius.affected.pkSetChecksum := by
  rw [dryRan_iff]
  -- The service first asks whether the proposal is live, then runs the engine.
  have hlive := liveRecord_stored clock s.start hget
  rcases hexpired : record.proposal.isExpired clock s.world with ⟨expired, w₁⟩
  rw [show s.start.calls.world = s.world from rfl, hexpired] at hlive
  cases expired with
  | true =>
      have hrefused : ApplyService.dryRun cfg p rehearsal clock s.start =
          (.error proposalNotFound, _) := Eff.bind_of_error hlive
      simp [hrefused]
  | false =>
      rcases hrun : DryRun.dryRun record.proposal rehearsal clock w₁ with ⟨answer, w₂⟩
      have hanswer : onWorld (DryRun.dryRun record.proposal rehearsal clock)
          { s.start with calls := { s.start.calls with world := w₁ } } =
          (answer, { s.start with calls := ⟨w₂, []⟩ }) := by
        simp only [onWorld, hrun, DaemonState.start]
      have hdry : ApplyService.dryRun cfg p rehearsal clock s.start = _ :=
        (Eff.bind_of_ok hlive).trans (Eff.bind_of_ok (Eff.attempt_of hanswer))
      rcases answer with e | radius
      · obtain ⟨e', s', hrefused, -⟩ := auditRefusalThen_moves (α := DryRunResult) cfg
          record.proposal.statement record.role record.sessionId (dryRunErrorToRpc e) clock
          { s.start with calls := ⟨w₂, []⟩ }
        simp [hdry.trans hrefused]
      · have hcache : ApplyService.dryRun cfg p rehearsal clock s.start =
            cacheDryRun cfg p record radius clock { s.start with calls := ⟨w₂, []⟩ } := hdry
        rw [hcache, cacheDryRun_ok_iff]
        simp

/-- The stored proposals are classified as they were when they were proposed. -/
def Classified (service : Service) : Prop :=
  ∀ (p : String) (record : ProposalRecord), service.proposals[p]? = some record →
    classify record.proposal.statement = .ok (record.kind, record.relation)

theorem Classified.step {cfg : DaemonConfig ω} {before after : Service} {r : ServiceRecord ω}
    (h : Outcome cfg before r after) (hinv : Classified before) : Classified after := by
  intro p record hafter
  rcases h.proposals hafter with hbefore | ⟨-, -, hclassify⟩ | ⟨old, dry, -, hold, rfl⟩
  · exact hinv p record hbefore
  · exact hclassify
  · exact hinv p old hold

/-- A step meets the guarantee exactly when it meets the condition. -/
theorem stepGuarantee_iff (cfg : DaemonConfig ω) (i : DaemonInput ω) (s : DaemonState ω)
    (hclassified : Classified s.service) :
    (daemonStep cfg i s).1.StepGuarantee ↔ (daemonStep cfg i s).1.StepCondition := by
  obtain ⟨call, clock⟩ := i
  -- A dry-run of a stored proposal answers Ok exactly when it is neither expired
  -- nor refused.
  have hok : ∀ p backend record, call = .dryRun p backend →
      s.service.proposals[p]? = some record →
      ((daemonStep cfg ⟨call, clock⟩ s).1.DryRanOver p backend ↔
        (record.proposal.isExpired clock s.world).1 = false ∧
          ¬ Refuses backend record.proposal record.kind record.relation clock
            (record.proposal.isExpired clock s.world).2) := by
    rintro p backend record rfl hget
    have hreplies := dryRun_replies_iff cfg p (daemonRehearsal backend) clock s hget
    have hengine := dryRun_ok_iff backend (hclassified p record hget) clock
      (record.proposal.isExpired clock s.world).2
    rw [← hengine, ← daemonRehearsal]
    exact (and_iff_right rfl).trans hreplies
  constructor
  · intro hguarantee p backend record hcall hget
    by_cases hran : (daemonStep cfg ⟨call, clock⟩ s).1.DryRanOver p backend
    · exact .inl ((proposal_selfDetermined_iff _ _).mp (hguarantee p backend hran record hget)).1
    · right
      by_contra hno
      rw [not_or, Bool.not_eq_true] at hno
      exact hran ((hok p backend record hcall hget).mpr hno)
  · intro hcondition p backend hran record hget
    have hlive := (hok p backend record hran.1 hget).mp hran
    rcases hcondition p backend record hran.1 hget with hstructural | hexpired | hrefuses
    · refine (proposal_selfDetermined_iff _ _).mpr ⟨hstructural, ?_⟩
      by_contra hvolatile
      exact hlive.2 (.inr (.inl hvolatile))
    · have hfresh := hlive.1
      simp only [daemonStep, serviceStep] at hexpired
      rw [hexpired] at hfresh
      cases hfresh
    · exact absurd hrefuses hlive.2

/-! ## Whole runs -/

/-- A cached dry-run is one of the run, over a catalog that makes the stored
predicate self-determined. -/
def Rehearsed (history : List (DaemonRecord ω)) (service : Service) : Prop :=
  ∀ (p : String) (record : ProposalRecord), service.proposals[p]? = some record →
    record.dryRun ≠ none →
    ∃ d ∈ history, ∃ backend, d.DryRanOver p backend ∧ SelfDetermined backend.catalog record

theorem Rehearsed.step {cfg : DaemonConfig ω} {history : List (DaemonRecord ω)}
    {i : DaemonInput ω} {s : DaemonState ω}
    (hguarantee : (daemonStep cfg i s).1.StepGuarantee) (hinv : Rehearsed history s.service) :
    Rehearsed (history ++ [(daemonStep cfg i s).1]) (daemonStep cfg i s).2.service := by
  intro p record hafter hdry
  rcases (serviceStep_outcome cfg ⟨i.call.dispatch, i.clock⟩ s).proposals hafter with
    hbefore | ⟨-, hfresh, -⟩ | ⟨old, dry, hran, hold, rfl⟩
  · obtain ⟨d, hd, backend, hran, hself⟩ := hinv p record hbefore hdry
    exact ⟨d, List.mem_append_left _ hd, backend, hran, hself⟩
  · exact absurd hfresh hdry
  · obtain ⟨rehearsal, result, hcall, hreply⟩ := hran
    have hdispatch : i.call.dispatch = .dryRun p rehearsal := hcall
    rcases hi : i.call with _ | ⟨q, backend⟩ | _ | _ | _
    all_goals rw [hi] at hdispatch
    all_goals cases hdispatch
    have hover : (daemonStep cfg i s).1.DryRanOver p backend := ⟨hi, result, hreply⟩
    exact ⟨_, List.mem_append_right _ (List.mem_singleton_self _), backend, hover,
      hguarantee p backend hover old hold⟩

/-- In a run of the daemon the gate holds exactly when every dry-run meets the
condition. -/
theorem gateHolds_iff (cfg : DaemonConfig ω) (inputs : List (DaemonInput ω)) (seq : Nat)
    (w : ω) :
    GateHolds (daemonHistory cfg inputs seq w) ↔
      ∀ x ∈ daemonHistory cfg inputs seq w, x.StepCondition := by
  have hsteps := run_rule (daemonStep cfg)
    (fun _ (s : DaemonState ω) => Classified s.service) (fun _ => True)
    (fun _ x => x.StepGuarantee ↔ x.StepCondition)
    (fun _ s i _ hinv => ⟨stepGuarantee_iff cfg i s hinv,
      hinv.step (serviceStep_outcome cfg ⟨i.call.dispatch, i.clock⟩ s)⟩)
    (s := ⟨.new, seq, w⟩) (by simp [Classified, Service.new])
    (fun i (_ : i ∈ inputs) => trivial)
  have htickets := run_rule (daemonStep cfg)
    (fun history (s : DaemonState ω) =>
      (∀ x ∈ history, x.StepGuarantee) → Rehearsed history s.service) (fun _ => True)
    (fun before x => (∀ y ∈ before, y.StepGuarantee) → x.TicketGuarantee before)
    (fun history s i _ hinv => by
      constructor
      · intro hpast p requestId hopens
        obtain ⟨record, hget, hdry⟩ :=
          (serviceStep_outcome cfg ⟨i.call.dispatch, i.clock⟩ s).opens hopens
        exact ⟨record, hget, hinv hpast p record hget hdry⟩
      · intro hall
        exact (hinv fun x hx => hall x (List.mem_append_left _ hx)).step
          (hall _ (List.mem_append_right _ (List.mem_singleton_self _))))
    (s := ⟨.new, seq, w⟩) (by simp [Rehearsed, Service.new])
    (fun i (_ : i ∈ inputs) => trivial)
  have hstep : ∀ x ∈ daemonHistory cfg inputs seq w, x.StepGuarantee ↔ x.StepCondition := by
    intro x hx
    obtain ⟨before, after, heq⟩ := List.append_of_mem hx
    exact hsteps.2 before x after heq
  constructor
  · intro hgate x hx
    obtain ⟨before, after, heq⟩ := List.append_of_mem hx
    exact (hstep x hx).mp (hgate before x after heq).1
  · intro hcondition before x after heq
    have hguarantee : ∀ y ∈ daemonHistory cfg inputs seq w, y.StepGuarantee :=
      fun y hy => (hstep y hy).mpr (hcondition y hy)
    refine ⟨hguarantee x (by simp [heq]), htickets.2 before x after heq ?_⟩
    intro y hy
    exact hguarantee y (by simp [heq, hy])

end Guarantee

/-! ## A predicate on a column that is not the key -/

def steeredText : String := "UPDATE accounts SET balance = 0 WHERE owner = 'alice'"

/-- The text, parsed. -/
def steeredUpdate : Statement :=
  .update
    { table := ⟨.table [.plain "accounts"], []⟩
      assignments := [⟨.columnName [.plain "balance"], .value "0"⟩]
      from? := none
      selection := some (.binaryOp (.identifier (.plain "owner")) "=" (.value "'alice'")) }

@[reducible] def steeredSql : Sql := .knowing [(steeredText, steeredUpdate)]

/-- A table `accounts` with the key `id` and a row of this owner. -/
def accountsBackend : Backend Unit where
  catalog :=
    { procs := fun _ _ => .ok (0, false)
      primaryKey := fun _ => .ok [("id", "int4")]
      columnType := fun _ _ => .ok (some "int4") }
  transaction := fun _ _ _ => pure
    { checksum := ⟨"00"⟩
      rows := 1
      cascades := []
      fullEffect := []
      triggersFired := []
      locks := []
      durationMs := 1
      walBytes := 0
      cloneLsn := "0/1" }

def steeredId : String := makeId steeredText none 0 0

/-- Propose, dry-run, and ask for approval. -/
def steered : List (DaemonInput Unit) :=
  [ .propose steeredText none "app" "agent"
  , .dryRun steeredId accountsBackend
  , .requestElevation steeredId "please" ].map fun call =>
    ⟨call, ⟨fun w => (0, w), fun w => (0, w)⟩⟩

/-- The statement of the proposal a record found under this id. -/
def foundStatement (x : DaemonRecord ω) (p : String) : Option (String × String) :=
  x.record.before.proposals[p]?.map fun record => (record.proposal.statement, record.relation)

/-- The record opened a ticket for `p`. -/
def opensFor (x : DaemonRecord ω) (p : String) : Bool :=
  match x.record.call, x.record.reply with
  | .requestElevation q _, .ok (.elevated _) => decide (q = p)
  | _, _ => false

theorem opensFor_iff (x : DaemonRecord ω) (p : String) :
    opensFor x p = true ↔ ∃ requestId, x.record.Opens p requestId := by
  unfold opensFor ServiceRecord.Opens
  split
  · next q reason result hcall hreply => simp [hcall, hreply]
  · next hno =>
      simp only [Bool.false_eq_true, false_iff]
      rintro ⟨requestId, reason, result, hcall, hreply, -⟩
      exact hno p reason result hcall hreply

/-- The daemon opens a ticket for a predicate on the owner. -/
theorem steeredRun_not_gated :
    letI := Sha256.standard
    letI := GrantSingleUse.sharedBytes
    letI := steeredSql
    ¬ GateHolds (daemonHistory ServiceLifecycle.accountsDaemon steered 0 ()) := by
  let _ := Sha256.standard
  let _ := GrantSingleUse.sharedBytes
  let _ := steeredSql
  intro hgate
  have hopens : ∃ x ∈ daemonHistory ServiceLifecycle.accountsDaemon steered 0 (),
      opensFor x steeredId = true ∧
        foundStatement x steeredId = some (steeredText, "public.accounts") := by
    decide +kernel
  obtain ⟨x, hx, hopen, hfound⟩ := hopens
  obtain ⟨requestId, hopen⟩ := (opensFor_iff x steeredId).mp hopen
  obtain ⟨before, after, heq⟩ := List.append_of_mem hx
  obtain ⟨record, hget, d, hd, backend, hran, column, typname, hkey, hreason⟩ :=
    (hgate before x after heq).2 steeredId requestId hopen
  have hstatement : record.proposal.statement = steeredText ∧
      record.relation = "public.accounts" := by
    rw [foundStatement, hget] at hfound
    simpa using hfound
  have hcall : .dryRun steeredId backend ∈ steered.map (·.call) := by
    rw [← daemonHistory_calls ServiceLifecycle.accountsDaemon steered 0 ()]
    exact List.mem_map.mpr ⟨d, by simp [heq, hd], hran.1⟩
  have hbackend : backend = accountsBackend := by
    simpa [steered] using hcall
  subst hbackend
  cases hkey
  rw [hstatement.1] at hreason
  revert hreason
  decide +kernel

end PgBrakes.Ports.DaemonGate
