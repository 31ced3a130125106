import PgBrakes.Ports.ServiceLifecycle

/-!
# The evidence a refusal leaves

Every exit of `propose`, `dry_run` and `apply_returning_inverse` in
`crates/applyd/src/service.rs`, with what it appends to the chain.  The refusals of the first
two go through `audit_refusal_then`, and those of the grant gate through `audit_apply`.  An
apply has exits in front of the gate as well: no dry-run, another row count or token, no
grant.  These return straight away.

Behind the gate there is one more gap.  A write that commits and is answered with an error is
recorded as a block.

## Main results

* `gate_evidence_iff` — a call that reaches the gate leaves its evidence exactly if a commit
  means a success.
* `evidence_iff` — the calls that leave their evidence, in any state of the service.
* `unapproved_apply_unrecorded` — an apply without a grant.
-/

namespace PgBrakes.Ports.RefusalEvidence

open PgBrakes.Verified.Effect
open PgBrakes.Ports.KeyChecksum
open PgBrakes.Ports.TypedInverse
open PgBrakes.Ports.BlastRecord
open PgBrakes.Ports.GuardedApply
open PgBrakes.Ports.GuardedApplyRun
open PgBrakes.Ports.GuardedApplyAtomicity
open PgBrakes.Ports.SqlAst
open PgBrakes.Ports.Grant
open PgBrakes.Ports.GrantedApply
open PgBrakes.Ports.DryRun
open PgBrakes.Ports.Approval
open PgBrakes.Ports.ApplyService
open PgBrakes.Ports.ServiceRun
open PgBrakes.Ports.ServiceLifecycle

variable {ω : Type}

/-! ## What a call owes -/

/-- The sink takes every entry. -/
def Accepting (sink : Sink ω) : Prop := ∀ entry now w, (sink.append entry now w).1 = .ok ()

/-- A statement, and who it is from. -/
structure Filed where
  statement : String
  role : String
  sessionId : String
deriving DecidableEq

def filedOf (record : ProposalRecord) : Filed :=
  ⟨record.proposal.statement, record.role, record.sessionId⟩

/-- The stored proposal, unless it has expired. -/
def filedUnder (p : String) (clock : Clock ω) (s : DaemonState ω) : Option Filed :=
  match s.service.proposals[p]? with
  | some record =>
      if (record.proposal.isExpired clock s.world).1 then none else some (filedOf record)
  | none => none

/-- The statement that a call is to be answered for, where the service knows it. -/
def known (i : ServiceInput ω) (s : DaemonState ω) : Option Filed :=
  match i.call with
  | .propose sql _ role sessionId => some ⟨sql, role, sessionId⟩
  | .dryRun p _ => filedUnder p i.clock s
  | .apply p _ _ _ _ => filedUnder p i.clock s
  | .requestElevation _ _ => none
  | .approve _ _ _ _ _ => none

/-- The append went through, and names the statement, the role and the session. -/
def Names (a : AuditAppend) (filed : Filed) : Prop :=
  a.answer = .ok () ∧ a.entry.statementText = filed.statement ∧ a.entry.role = filed.role ∧
    a.entry.sessionId = some filed.sessionId

/-- The appends of one decision. -/
def decided (d : Decision) (audits : List AuditAppend) : List AuditAppend :=
  audits.filter fun a => a.entry.decision = d

/-- A refusal has its block on the chain, a commit its allow. -/
structure Evidence (filed : Option Filed) (r : ServiceRecord ω) : Prop where
  refused : ∀ e f, r.reply = .error e → filed = some f →
    ∃ a, decided .block r.audits = [a] ∧ Names a f
  committed : 0 < commits r.log →
    ∃ a f, filed = some f ∧ decided .allow r.audits = [a] ∧ Names a f

/-! ## The exits that record -/

section Exits

variable {cfg : DaemonConfig ω} (hsink : Accepting cfg.seams.sink)
include hsink

theorem auditDecision_accepting (clock : Clock ω) (entry : NewEntry) (s : ServiceState ω) :
    ∃ a s', auditDecision cfg clock entry s = (.ok (), s') ∧ a.entry = entry ∧
      a.answer = .ok () ∧ s'.audits = s.audits ++ [a] ∧ s'.calls.log = s.calls.log := by
  have hok := hsink entry (clock.nowUnixMillis s.calls.world).1
    (clock.nowUnixMillis s.calls.world).2
  refine ⟨⟨entry, (clock.nowUnixMillis s.calls.world).1, .ok ()⟩,
    (auditDecision cfg clock entry s).2, Prod.ext hok rfl, rfl, rfl, ?_, rfl⟩
  simp only [auditDecision, appendEntry, hok]

theorem auditRefusalThen_accepting {α : Type} (filed : Filed) (refusal : RpcError)
    (clock : Clock ω) (s : ServiceState ω) :
    ∃ a s', (auditRefusalThen cfg filed.statement filed.role filed.sessionId refusal clock :
        Eff (ServiceState ω) RpcError α) s = (.error refusal, s') ∧
      a.entry.decision = .block ∧ Names a filed ∧ s'.audits = s.audits ++ [a] ∧
      s'.calls.log = s.calls.log := by
  obtain ⟨a, s', haudit, hentry, hanswer, haudits, hlog⟩ := auditDecision_accepting hsink clock
    (refusalEntry filed.statement filed.role filed.sessionId refusal) s
  refine ⟨a, s', ?_, ?_, ⟨hanswer, ?_, ?_, ?_⟩, haudits, hlog⟩
  · unfold auditRefusalThen
    rw [Eff.bind_of_ok (Eff.attempt_of haudit)]
    rfl
  all_goals
    rw [hentry]
    rfl

theorem concludeBlocked_accepting (g : GateCall) (e : GrantedApplyError) (clock : Clock ω)
    (s : ServiceState ω) :
    ∃ a s', concludeBlocked cfg g e clock s = (.error (grantedApplyErrorToRpc e), s') ∧
      a.entry = applyEntry g.live .block (grantedApplyErrorToRpc e).data.code
        (grantedApplyErrorToRpc e).message ∧
      a.answer = .ok () ∧ s'.audits = s.audits ++ [a] ∧ s'.calls.log = s.calls.log := by
  obtain ⟨a, s', haudit, hentry, hanswer, haudits, hlog⟩ := auditDecision_accepting hsink clock
    (applyEntry g.live .block (grantedApplyErrorToRpc e).data.code
      (grantedApplyErrorToRpc e).message) s
  refine ⟨a, s', ?_, hentry, hanswer, haudits, hlog⟩
  unfold concludeBlocked
  simp only [Eff.bind_apply, Eff.mapError_apply, haudit]
  rfl

theorem concludeApplied_accepting (g : GateCall) (applied : AppliedWrite) (clock : Clock ω)
    (s : ServiceState ω) :
    ∃ a s' result, concludeApplied cfg g applied clock s = (.ok result, s') ∧
      a.entry = applyEntry g.live .allow "apply_committed"
        s!"{applied.rowsWritten} rows committed (reversible)" ∧
      a.answer = .ok () ∧ s'.audits = s.audits ++ [a] ∧ s'.calls.log = s.calls.log := by
  let erased : ServiceState ω := { s with service := { s.service with
    proposals := s.service.proposals.erase g.live.proposalId
    grants := s.service.grants.erase g.live.proposalId } }
  obtain ⟨a, s', haudit, hentry, hanswer, haudits, hlog⟩ := auditDecision_accepting hsink clock
    (applyEntry g.live .allow "apply_committed"
      s!"{applied.rowsWritten} rows committed (reversible)") erased
  have hmapped : ∀ unrecorded : SinkError → RpcError, Eff.mapError unrecorded (auditDecision cfg
      clock (applyEntry g.live .allow "apply_committed"
        s!"{applied.rowsWritten} rows committed (reversible)")) erased = (.ok (), s') := by
    intro unrecorded
    rw [Eff.mapError_apply, haudit]
    rfl
  exact ⟨a, s', _, (Eff.bind_of_ok (show update _ s = (.ok (), erased) from rfl)).trans
    ((Eff.bind_of_ok (hmapped _)).trans rfl), hentry, hanswer, haudits, hlog⟩

end Exits

/-! ## The calls, one by one -/

/-- A call that did not reach the connection owes no more than its refusal. -/
theorem Evidence.of_quiet {r : ServiceRecord ω} {filed : Option Filed} (hlog : r.log = [])
    (hrefused : ∀ e f, r.reply = .error e → filed = some f →
      ∃ a, decided .block r.audits = [a] ∧ Names a f) : Evidence filed r := by
  refine ⟨hrefused, ?_⟩
  exact fun hcommit => absurd hlog (ne_nil_of_commits hcommit)

/-- A call that is refused and records it. -/
theorem Evidence.of_refused {r : ServiceRecord ω} {f : Filed} {a : AuditAppend}
    (haudits : r.audits = [a]) (hblock : a.entry.decision = .block) (hnames : Names a f)
    (hlog : r.log = []) : Evidence (some f) r := by
  refine .of_quiet hlog ?_
  rintro e f' - hf
  obtain rfl := Option.some.inj hf
  exact ⟨a, by simp [decided, haudits, hblock], hnames⟩

/-- A call that goes through and writes nothing. -/
theorem Evidence.of_ok {r : ServiceRecord ω} {filed : Option Filed} {reply : Reply}
    (hreply : r.reply = .ok reply) (hlog : r.log = []) : Evidence filed r := by
  refine .of_quiet hlog ?_
  intro e f he
  rw [hreply] at he
  cases he

/-- A call about a statement that the service does not know. -/
theorem Evidence.of_unknown {r : ServiceRecord ω} (hlog : r.log = []) : Evidence none r :=
  .of_quiet hlog fun _ _ _ hf => absurd hf nofun

/-- A refusal that nothing was recorded of. -/
theorem not_evidence_of_silent {r : ServiceRecord ω} {f : Filed} {e : RpcError}
    (hreply : r.reply = .error e) (haudits : r.audits = []) : ¬ Evidence (some f) r := by
  intro h
  obtain ⟨a, ha, -⟩ := h.refused e f hreply rfl
  rw [haudits] at ha
  cases ha

/-- A proposal is unknown and the look-up fails, or it is known and found. -/
theorem filedUnder_cases (p : String) (clock : Clock ω) (s : DaemonState ω) :
    (filedUnder p clock s = none ∧
        ∃ e s', liveRecord p clock s.start = (.error e, s') ∧ s'.calls.log = []) ∨
      ∃ record, s.service.proposals[p]? = some record ∧
        (record.proposal.isExpired clock s.world).1 = false ∧
        filedUnder p clock s = some (filedOf record) ∧
        liveRecord p clock s.start = (.ok record,
          { s.start with calls := ⟨(record.proposal.isExpired clock s.world).2, []⟩ }) := by
  rcases hget : s.service.proposals[p]? with _ | record
  · left
    refine ⟨by simp [filedUnder, hget], proposalNotFound, s.start, ?_, rfl⟩
    rw [liveRecord, Eff.bind_of_ok (show current s.start = (.ok s.service, s.start) from rfl), hget]
    rfl
  · have hlive := liveRecord_stored clock s.start hget
    rcases hexpired : (record.proposal.isExpired clock s.world).1 with _ | _
    · right
      refine ⟨record, rfl, hexpired, by simp [filedUnder, hget, hexpired], hlive.trans ?_⟩
      rw [if_neg (by simp [DaemonState.start, hexpired])]
      rfl
    · left
      rw [if_pos (by simp [DaemonState.start, hexpired])] at hlive
      exact ⟨by simp [filedUnder, hget, hexpired], proposalNotFound, _, hlive, rfl⟩

section Calls

variable [Sha256] [Ed25519] [Sql] {cfg : DaemonConfig ω}

/-- The record of a call whose run is known. -/
theorem serviceStep_of_run (cfg : DaemonConfig ω) (i : ServiceInput ω) {s : DaemonState ω}
    {reply : Except RpcError Reply} {s' : ServiceState ω}
    (hrun : i.run cfg s.start = (reply, s')) :
    (serviceStep cfg i s).1.reply = reply ∧ (serviceStep cfg i s).1.audits = s'.audits ∧
      (serviceStep cfg i s).1.log = s'.calls.log := by
  simp only [serviceStep, hrun, and_self]

theorem propose_evidence (hsink : Accepting cfg.seams.sink) (sql : String)
    (expectedRows : Option Nat) (role sessionId : String) (clock : Clock ω) (s : DaemonState ω) :
    Evidence (some ⟨sql, role, sessionId⟩)
      (serviceStep cfg ⟨.propose sql expectedRows role sessionId, clock⟩ s).1 := by
  rcases hclassify : classify sql with e | ⟨kind, relation⟩
  · obtain ⟨a, s', hrefused, hblock, hnames, haudits, hlog⟩ := auditRefusalThen_accepting
      (α := ProposeResult) hsink ⟨sql, role, sessionId⟩ (dryRunErrorToRpc e) clock s.start
    have hpropose : propose cfg sql expectedRows role sessionId clock s.start =
        (.error (dryRunErrorToRpc e), s') := by
      rw [propose, hclassify]
      exact hrefused
    obtain ⟨-, hr, hl⟩ := serviceStep_of_run cfg
      ⟨.propose sql expectedRows role sessionId, clock⟩ (Eff.bind_of_error hpropose)
    exact .of_refused (hr.trans haudits) hblock hnames (hl.trans hlog)
  · have hpropose : ∃ result s', propose cfg sql expectedRows role sessionId clock s.start =
        (.ok result, s') ∧ s'.calls.log = [] := by
      rw [propose, hclassify]
      exact ⟨_, _, rfl, rfl⟩
    obtain ⟨result, s', hpropose, hlog⟩ := hpropose
    obtain ⟨hreply, -, hl⟩ := serviceStep_of_run cfg
      ⟨.propose sql expectedRows role sessionId, clock⟩ ((Eff.bind_of_ok hpropose).trans rfl)
    exact .of_ok hreply (hl.trans hlog)

theorem dryRun_evidence (hsink : Accepting cfg.seams.sink) (p : String) (rehearsal : Rehearsal ω)
    (clock : Clock ω) (s : DaemonState ω) :
    Evidence (filedUnder p clock s) (serviceStep cfg ⟨.dryRun p rehearsal, clock⟩ s).1 := by
  rcases filedUnder_cases p clock s with ⟨hfiled, e, s₁, hlive, hlog⟩ |
    ⟨record, -, -, hfiled, hlive⟩
  · rw [hfiled]
    obtain ⟨-, -, hl⟩ := serviceStep_of_run cfg ⟨.dryRun p rehearsal, clock⟩
      (Eff.bind_of_error (Eff.bind_of_error hlive))
    exact .of_unknown (hl.trans hlog)
  rw [hfiled]
  let s₁ : ServiceState ω :=
    { s.start with calls := ⟨(record.proposal.isExpired clock s.world).2, []⟩ }
  -- A refusal from here on is recorded under the stored proposal.
  have hrefusal : ∀ refusal (s₂ : ServiceState ω), s₂.audits = [] → s₂.calls.log = [] →
      ApplyService.dryRun cfg p rehearsal clock s.start = (auditRefusalThen cfg
        record.proposal.statement record.role record.sessionId refusal clock :
          Eff (ServiceState ω) RpcError DryRunResult) s₂ →
      Evidence (some (filedOf record)) (serviceStep cfg ⟨.dryRun p rehearsal, clock⟩ s).1 := by
    intro refusal s₂ hnone hquiet hout
    obtain ⟨a, s', hrefused, hblock, hnames, haudits, hlog⟩ := auditRefusalThen_accepting
      (α := DryRunResult) hsink (filedOf record) refusal clock s₂
    obtain ⟨-, hr, hl⟩ := serviceStep_of_run cfg ⟨.dryRun p rehearsal, clock⟩
      (Eff.bind_of_error (hout.trans hrefused))
    rw [hnone] at haudits
    exact .of_refused (hr.trans haudits) hblock hnames (hl.trans (hlog.trans hquiet))
  rcases hrun : DryRun.dryRun record.proposal rehearsal clock s₁.calls.world with ⟨answer, w'⟩
  let s₂ : ServiceState ω := { s₁ with calls := { s₁.calls with world := w' } }
  have hanswer : onWorld (DryRun.dryRun record.proposal rehearsal clock) s₁ = (answer, s₂) := by
    simp only [onWorld, hrun, s₂]
  have hout : ApplyService.dryRun cfg p rehearsal clock s.start = _ :=
    (Eff.bind_of_ok hlive).trans (Eff.bind_of_ok (Eff.attempt_of hanswer))
  rcases answer with e | radius
  · exact hrefusal (dryRunErrorToRpc e) s₂ rfl rfl hout
  · simp only [cacheDryRun] at hout
    rcases hsum : radius.affected.pkSetChecksum[record.relation]? with _ | checksum
    · simp only [hsum] at hout
      exact hrefusal _ s₂ rfl rfl hout
    · simp only [hsum] at hout
      obtain ⟨hreply, -, hl⟩ := serviceStep_of_run cfg ⟨.dryRun p rehearsal, clock⟩
        ((Eff.bind_of_ok (hout.trans rfl)).trans rfl)
      exact .of_ok hreply hl

/-! ## An apply -/

/-- A granted write that commits reports keys of one arity. -/
def CommitsCleanly (c : GrantCall ω) (nonces : NonceStore) (w : ω) : Prop :=
  Granted c ⟨nonces, ⟨w, []⟩⟩ → ∀ t, CommitPoint c.invocation (engineStart c nonces w).world t →
    (c.conn.commit t.final).1 = .ok () → PkSetBuilder.UniformArity (t.forward.written.map (·.pk))

/-- What the gate commits, it answers with a success. -/
theorem commitsCleanly_iff (c : GrantCall ω) (nonces : NonceStore) (w : ω) :
    CommitsCleanly c nonces w ↔ (0 < commits (c.run ⟨nonces, ⟨w, []⟩⟩).2.calls.log →
      ∃ a, (c.run ⟨nonces, ⟨w, []⟩⟩).1 = .ok a) := by
  constructor
  · intro hclean hcommit
    obtain ⟨hgranted, t, ht, hok⟩ := (gate_commits_iff c nonces w).mp hcommit
    exact ((gate_at_commitPoint hgranted ht).2 hok).mpr (hclean hgranted t ht hok)
  · intro hanswer hgranted t ht hok
    have hcommit := (gate_commits_iff c nonces w).mpr ⟨hgranted, t, ht, hok⟩
    exact ((gate_at_commitPoint hgranted ht).2 hok).mp (hanswer hcommit)

/-- Behind the gate every answer is recorded, a success as an allow and an error as a
block. -/
theorem applyGranted_accepting (hsink : Accepting cfg.seams.sink) (p : String)
    (record : ProposalRecord) (dry : DryRunState) (grant : GrantToken) (conn : ApplyConn ω)
    (barrier : ApplyBarrier ω) (clock : Clock ω) (s : ServiceState ω) (hlog : s.calls.log = []) :
    let g := gateCallOf p record dry grant
    let gate := gateRun cfg g conn barrier clock s.service.applyNonces s.calls.world
    ∃ a s' answer, applyGranted cfg g conn barrier clock s = (answer, s') ∧
      Names a (filedOf record) ∧ s'.audits = s.audits ++ [a] ∧
      s'.calls.log = gate.2.calls.log ∧
      ((∃ applied, gate.1 = .ok applied) ∧ (∃ result, answer = .ok result) ∧
          a.entry.decision = .allow ∨
        (∃ e, gate.1 = .error e) ∧ (∃ e, answer = .error e) ∧ a.entry.decision = .block) := by
  intro g gate
  rcases hgate : gate with ⟨answer, after⟩
  cases answer with
  | error e =>
      obtain ⟨a, s', hout, hentry, hanswer, haudits, hlog'⟩ :=
        concludeBlocked_accepting hsink g e clock (behindGate s g after)
      refine ⟨a, s', _, (applyGranted_of_blocked hlog hgate).trans hout, ?_, haudits, hlog',
        .inr ?_⟩
      · rw [Names, hentry]
        exact ⟨hanswer, rfl, rfl, rfl⟩
      · rw [hentry]
        exact ⟨⟨e, rfl⟩, ⟨_, rfl⟩, rfl⟩
  | ok applied =>
      obtain ⟨a, s', result, hout, hentry, hanswer, haudits, hlog'⟩ :=
        concludeApplied_accepting hsink g applied.1 clock (behindGate s g after)
      refine ⟨a, s', _, (applyGranted_of_applied hlog hgate).trans hout, ?_, haudits, hlog',
        .inl ?_⟩
      · rw [Names, hentry]
        exact ⟨hanswer, rfl, rfl, rfl⟩
      · rw [hentry]
        exact ⟨⟨applied, rfl⟩, ⟨result, rfl⟩, rfl⟩

omit [Sha256] [Ed25519] [Sql] in
/-- One append, by the answer it goes with. -/
theorem gate_evidence_iff {r : ServiceRecord ω} {f : Filed} {a : AuditAppend} (success : Prop)
    (haudits : r.audits = [a]) (hnames : Names a f)
    (hallow : success → (∃ reply, r.reply = .ok reply) ∧ a.entry.decision = .allow)
    (hblock : ¬ success → a.entry.decision = .block) :
    Evidence (some f) r ↔ (0 < commits r.log → success) := by
  constructor
  · intro h hcommit
    obtain ⟨b, -, -, hb, -⟩ := h.committed hcommit
    by_contra hfailed
    simp [decided, haudits, hblock hfailed] at hb
  · intro hcommitted
    by_cases hsuccess : success
    · obtain ⟨⟨reply, hreply⟩, hdecision⟩ := hallow hsuccess
      refine ⟨?_, fun _ => ⟨a, f, rfl, by simp [decided, haudits, hdecision], hnames⟩⟩
      intro e f' he
      rw [hreply] at he
      cases he
    · refine ⟨?_, fun hcommit => absurd (hcommitted hcommit) hsuccess⟩
      rintro e f' - hf
      obtain rfl := Option.some.inj hf
      exact ⟨a, by simp [decided, haudits, hblock hsuccess], hnames⟩

/-- An apply ends in front of the gate and records nothing, or it has its dry-run, its
confirmation and its grant, and goes on to the gate. -/
theorem applyRecord_cases (cfg : DaemonConfig ω) (p : String) (record : ProposalRecord)
    (confirmRows : Nat) (confirmToken : Option String) (conn : ApplyConn ω)
    (barrier : ApplyBarrier ω) (clock : Clock ω) (s : ServiceState ω) :
    (∃ e, applyRecord cfg p record confirmRows confirmToken conn barrier clock s = (.error e, s) ∧
        ∀ dry grant, record.dryRun = some dry → confirmCheck confirmRows confirmToken dry = .ok () →
          s.service.grants[p]? ≠ some grant) ∨
      ∃ dry grant, record.dryRun = some dry ∧ confirmCheck confirmRows confirmToken dry = .ok () ∧
        s.service.grants[p]? = some grant ∧
        applyRecord cfg p record confirmRows confirmToken conn barrier clock s =
          applyGranted cfg (gateCallOf p record dry grant) conn barrier clock s := by
  unfold applyRecord
  rcases hdry : record.dryRun with _ | dry
  · refine .inl ⟨_, rfl, ?_⟩
    intro dry grant hcached
    cases hcached
  rcases hconfirm : confirmCheck confirmRows confirmToken dry with e | ⟨⟩
  · left
    refine ⟨e, Eff.bind_of_error (by rw [Eff.lift_apply, hconfirm]), ?_⟩
    intro dry' grant hcached hconfirmed
    rw [← Option.some.inj hcached, hconfirm] at hconfirmed
    cases hconfirmed
  have hcurrent : ∀ rest : Service → Eff (ServiceState ω) RpcError (ApplyResult × InversePlan),
      (Eff.lift (confirmCheck confirmRows confirmToken dry) >>= fun _ => current >>= rest) s =
        rest s.service s := by
    intro rest
    rw [Eff.bind_of_ok (Eff.lift_of_ok hconfirm s)]
    rfl
  rcases hgrant : s.service.grants[p]? with _ | grant
  · left
    refine ⟨_, (hcurrent _).trans (by rw [hgrant]; rfl), ?_⟩
    intro dry' grant _ _ hgranted
    cases hgranted
  · exact .inr ⟨dry, grant, rfl, hconfirm, rfl, (hcurrent _).trans (by rw [hgrant])⟩

/-- What an apply of a known proposal has to come with: the dry-run, its confirmation and a
grant, and a connection that reports keys of one arity for what it commits. -/
def Applicable (cfg : DaemonConfig ω) (p : String) (confirmRows : Nat)
    (confirmToken : Option String) (conn : ApplyConn ω) (barrier : ApplyBarrier ω)
    (clock : Clock ω) (s : DaemonState ω) (record : ProposalRecord) : Prop :=
  ∃ dry grant, record.dryRun = some dry ∧ confirmCheck confirmRows confirmToken dry = .ok () ∧
    s.service.grants[p]? = some grant ∧
    CommitsCleanly ((gateCallOf p record dry grant).grantCall cfg conn barrier clock)
      s.service.applyNonces (record.proposal.isExpired clock s.world).2

/-- An apply of a known proposal leaves its evidence exactly if it comes to the gate, and the
gate answers a commit with a success. -/
theorem apply_evidence_iff (hsink : Accepting cfg.seams.sink) {p : String} {confirmRows : Nat}
    {confirmToken : Option String} {conn : ApplyConn ω} {barrier : ApplyBarrier ω}
    {clock : Clock ω} {s : DaemonState ω} {record : ProposalRecord}
    (hlive : liveRecord p clock s.start = (.ok record,
      { s.start with calls := ⟨(record.proposal.isExpired clock s.world).2, []⟩ })) :
    Evidence (some (filedOf record))
        (serviceStep cfg ⟨.apply p confirmRows confirmToken conn barrier, clock⟩ s).1 ↔
      Applicable cfg p confirmRows confirmToken conn barrier clock s record := by
  let i : ServiceInput ω := ⟨.apply p confirmRows confirmToken conn barrier, clock⟩
  let s₁ : ServiceState ω :=
    { s.start with calls := ⟨(record.proposal.isExpired clock s.world).2, []⟩ }
  have hout : applyReturningInverse cfg p confirmRows confirmToken conn barrier clock s.start =
      applyRecord cfg p record confirmRows confirmToken conn barrier clock s₁ :=
    Eff.bind_of_ok hlive
  rcases applyRecord_cases cfg p record confirmRows confirmToken conn barrier clock s₁ with
    ⟨e, hexit, hnone⟩ | ⟨dry, grant, hdry, hconfirm, hgrant, hgate⟩
  · obtain ⟨hreply, haudits, -⟩ := serviceStep_of_run cfg i (Eff.bind_of_error (hout.trans hexit))
    refine iff_of_false (not_evidence_of_silent hreply haudits) ?_
    rintro ⟨dry, grant, hdry, hconfirm, hgrant, -⟩
    exact hnone dry grant hdry hconfirm hgrant
  · obtain ⟨a, s', answer, hgranted, hnames, haudits, hlog, hanswer⟩ :=
      applyGranted_accepting hsink p record dry grant conn barrier clock s₁ rfl
    have hstep : ∃ reply, i.run cfg s.start = (reply, s') ∧
        ∀ result, answer = .ok result → ∃ r, reply = .ok r := by
      rcases answer with e | result
      · exact ⟨_, Eff.bind_of_error (hout.trans (hgate.trans hgranted)), nofun⟩
      · exact ⟨_, (Eff.bind_of_ok (hout.trans (hgate.trans hgranted))).trans rfl,
          fun _ _ => ⟨_, rfl⟩⟩
    obtain ⟨reply, hstep, hreplied⟩ := hstep
    obtain ⟨hreply, hr, hl⟩ := serviceStep_of_run cfg i hstep
    have hiff := gate_evidence_iff (∃ applied, (gateRun cfg (gateCallOf p record dry grant) conn
      barrier clock s₁.service.applyNonces s₁.calls.world).1 = .ok applied)
      (hr.trans haudits) hnames ?_ ?_
    · rw [hiff, hl, hlog]
      constructor
      · intro hcommitted
        exact ⟨dry, grant, hdry, hconfirm, hgrant, (commitsCleanly_iff _ _ _).mpr hcommitted⟩
      · rintro ⟨dry', grant', hdry', -, hgrant', hclean⟩
        obtain rfl := Option.some.inj (hdry.symm.trans hdry')
        obtain rfl := Option.some.inj (hgrant.symm.trans hgrant')
        exact (commitsCleanly_iff _ _ _).mp hclean
    · rintro ⟨applied, happlied⟩
      rcases hanswer with ⟨-, ⟨result, hresult⟩, hallow⟩ | ⟨⟨e, he⟩, -, -⟩
      · rw [hreply]
        exact ⟨hreplied result hresult, hallow⟩
      · rw [he] at happlied
        cases happlied
    · intro hfailed
      rcases hanswer with ⟨hsuccess, -, -⟩ | ⟨-, -, hblock⟩
      · exact absurd hsuccess hfailed
      · exact hblock

/-- The condition on a call: an apply of a known proposal comes with what it has to. -/
def Evidenced (cfg : DaemonConfig ω) (i : ServiceInput ω) (s : DaemonState ω) : Prop :=
  ∀ p confirmRows confirmToken conn barrier record,
    i.call = .apply p confirmRows confirmToken conn barrier →
    s.service.proposals[p]? = some record →
    (record.proposal.isExpired i.clock s.world).1 = false →
      Applicable cfg p confirmRows confirmToken conn barrier i.clock s record

/-- Only an apply reaches the connection. -/
theorem log_of_not_apply {before after : Service} {r : ServiceRecord ω}
    (h : Outcome cfg before r after) (hcall : ∀ p confirmRows confirmToken conn barrier,
      r.call ≠ .apply p confirmRows confirmToken conn barrier) : r.log = [] := by
  cases h with
  | gated proposalId confirmRows confirmToken conn barrier clock w record dry grant call stored
      cached granted gate log settled =>
      exact absurd call (hcall proposalId confirmRows confirmToken conn barrier)
  | _ => assumption

/-- With a sink that takes every entry, a call in any state leaves its evidence exactly if
it is not an apply of a known proposal that ends in front of the gate, or that commits and is
answered with an error. -/
theorem evidence_iff (hsink : Accepting cfg.seams.sink) (i : ServiceInput ω)
    (s : DaemonState ω) : Evidence (known i s) (serviceStep cfg i s).1 ↔ Evidenced cfg i s := by
  obtain ⟨call, clock⟩ := i
  have hother : (∀ p confirmRows confirmToken conn barrier,
      call ≠ .apply p confirmRows confirmToken conn barrier) → Evidenced cfg ⟨call, clock⟩ s :=
    fun hcall p confirmRows confirmToken conn barrier _ happly =>
      absurd happly (hcall p confirmRows confirmToken conn barrier)
  cases call with
  | propose sql expectedRows role sessionId =>
      have hevidence := propose_evidence hsink sql expectedRows role sessionId clock s
      exact iff_of_true hevidence (hother (by intros; exact nofun))
  | dryRun p rehearsal =>
      have hevidence := dryRun_evidence hsink p rehearsal clock s
      exact iff_of_true hevidence (hother (by intros; exact nofun))
  | requestElevation p reason =>
      have hlog := log_of_not_apply (serviceStep_outcome cfg ⟨.requestElevation p reason, clock⟩ s)
        (by intros; exact nofun)
      exact iff_of_true (.of_unknown hlog) (hother (by intros; exact nofun))
  | approve requestId approverId key nonce grantTtlMillis =>
      have hlog := log_of_not_apply (serviceStep_outcome cfg
        ⟨.approve requestId approverId key nonce grantTtlMillis, clock⟩ s) (by intros; exact nofun)
      exact iff_of_true (.of_unknown hlog) (hother (by intros; exact nofun))
  | apply p confirmRows confirmToken conn barrier =>
      rcases filedUnder_cases p clock s with ⟨hfiled, e, s₁, hlive, hlog⟩ |
        ⟨record, hstored, hfresh, hfiled, hlive⟩
      · have hevidence : Evidence (filedUnder p clock s) (serviceStep cfg
            ⟨.apply p confirmRows confirmToken conn barrier, clock⟩ s).1 := by
          obtain ⟨-, -, hl⟩ := serviceStep_of_run cfg
            ⟨.apply p confirmRows confirmToken conn barrier, clock⟩
            (Eff.bind_of_error (Eff.bind_of_error hlive))
          rw [hfiled]
          exact .of_unknown (hl.trans hlog)
        refine iff_of_true hevidence ?_
        rintro p' _ _ _ _ record ⟨⟩ hstored hfresh
        simp [filedUnder, hstored, hfresh] at hfiled
      · show Evidence (filedUnder p clock s) _ ↔ _
        rw [hfiled, apply_evidence_iff hsink hlive]
        constructor
        · rintro happlicable p' _ _ _ _ record' ⟨⟩ hstored' -
          obtain rfl := Option.some.inj (hstored.symm.trans hstored')
          exact happlicable
        · intro hall
          exact hall p confirmRows confirmToken conn barrier record rfl hstored hfresh

end Calls

/-! ## Calls of one daemon -/

/-- The code of a refusal. -/
def refusalCode (r : ServiceRecord ω) : Option String :=
  match r.reply with
  | .error e => some e.data.code
  | .ok _ => none

/-- A clock that stands still. -/
def zeroClock : Clock Unit := ⟨fun w => (0, w), fun w => (0, w)⟩

theorem accountsDaemon_accepting [Ed25519] : Accepting accountsDaemon.seams.sink :=
  fun _ _ _ => rfl

/-- A proposal that was rehearsed, ticketed and approved. -/
def approved [Sha256] [Ed25519] [Sql] : DaemonState Unit :=
  (PgBrakes.Verified.History.run (serviceStep accountsDaemon)
    [⟨.propose GrantSingleUse.accountsBinding.statementText none "app" "agent", zeroClock⟩,
      ⟨.dryRun accountsId accountsRehearsal, zeroClock⟩,
      ⟨.requestElevation accountsId "first", zeroClock⟩,
      ⟨.approve "req-00000001" "alice" GrantSingleUse.approverKey "n1" 1000, zeroClock⟩]
    ⟨.new, 0, ()⟩).2

/-- An apply of the two rows. -/
def applyBoth : ServiceInput Unit :=
  ⟨.apply accountsId 2 none (.scripted GrantSingleUse.plainForward
    [⟨"public.accounts", 0, 2, 0⟩]) .noop, zeroClock⟩

/-- The proposal is rehearsed and approved. -/
def readyToApply (s : DaemonState Unit) : Bool :=
  (s.service.proposals[accountsId]?.any fun record =>
    record.dryRun.any fun dry => (confirmCheck 2 none dry).toBool) &&
  (s.service.grants[accountsId]?).isSome

theorem evidenced_of_ready [Sha256] [Ed25519] [Sql] {s : DaemonState Unit}
    (hready : readyToApply s = true) : Evidenced accountsDaemon applyBoth s := by
  intro p confirmRows confirmToken conn barrier record happly hstored _
  cases happly
  unfold readyToApply at hready
  rw [hstored, Option.any_some, Bool.and_eq_true] at hready
  cases hdry : record.dryRun with
  | none =>
      rw [hdry] at hready
      cases hready.1
  | some dry =>
      rw [hdry, Option.any_some] at hready
      obtain ⟨grant, hgrant⟩ := Option.isSome_iff_exists.mp hready.2
      refine ⟨dry, grant, hdry, ?_, hgrant, ?_⟩
      · cases hconfirm : confirmCheck 2 none dry with
        | error e =>
            rw [hconfirm] at hready
            cases hready.1
        | ok => rfl
      · intro _ t ht _
        have hforward : t.forward = GrantSingleUse.plainForward :=
          (Except.ok.inj (congrArg Prod.fst ht.forward)).symm
        rw [hforward]
        decide

/-- A statement of another shape is refused when it is proposed, and an approved one commits:
either leaves its evidence. -/
theorem evidence_iff_truncate :
    letI := Sha256.standard
    letI := GrantSingleUse.sharedBytes
    letI := accountsSql
    let i : ServiceInput Unit :=
      ⟨.propose "TRUNCATE public.accounts" none "app" "agent", zeroClock⟩
    let s : DaemonState Unit := ⟨.new, 0, ()⟩
    refusalCode (serviceStep accountsDaemon i s).1 = some "NOT_REHEARSABLE" ∧
      Evidence (known i s) (serviceStep accountsDaemon i s).1 ∧
      (serviceStep accountsDaemon applyBoth approved).1.audits.map (·.entry.decision) =
        [.allow] ∧
      Evidence (known applyBoth approved) (serviceStep accountsDaemon applyBoth approved).1 := by
  let _ := Sha256.standard
  let _ := GrantSingleUse.sharedBytes
  let _ := accountsSql
  intro i s
  refine ⟨by decide +kernel, ?_, by decide +kernel, ?_⟩
  · refine (evidence_iff accountsDaemon_accepting i s).mpr ?_
    intro p confirmRows confirmToken conn barrier record happly
    cases happly
  · have hready : readyToApply approved = true := by decide +kernel
    exact (evidence_iff accountsDaemon_accepting applyBoth approved).mpr
      (evidenced_of_ready hready)

/-- A proposal that was rehearsed and not approved. -/
def rehearsed [Sha256] [Ed25519] [Sql] : DaemonState Unit :=
  (PgBrakes.Verified.History.run (serviceStep accountsDaemon)
    [⟨.propose GrantSingleUse.accountsBinding.statementText none "app" "agent", zeroClock⟩,
      ⟨.dryRun accountsId accountsRehearsal, zeroClock⟩] ⟨.new, 0, ()⟩).2

/-- An apply without a grant is refused, and nothing is recorded. -/
theorem unapproved_apply_unrecorded :
    letI := Sha256.standard
    letI := GrantSingleUse.sharedBytes
    letI := accountsSql
    Accepting (accountsDaemon.seams.sink) ∧
      ¬ ∀ (i : ServiceInput Unit) (s : DaemonState Unit),
        Evidence (known i s) (serviceStep accountsDaemon i s).1 := by
  let _ := Sha256.standard
  let _ := GrantSingleUse.sharedBytes
  let _ := accountsSql
  refine ⟨accountsDaemon_accepting, fun hall => ?_⟩
  let i : ServiceInput Unit := ⟨.apply accountsId 2 none (.scripted GrantSingleUse.plainForward
    [⟨"public.accounts", 0, 2, 0⟩]) .noop, zeroClock⟩
  have hsilent : (known i rehearsed).isSome = true ∧
      refusalCode (serviceStep accountsDaemon i rehearsed).1 = some "APPROVAL_REQUIRED" ∧
      (serviceStep accountsDaemon i rehearsed).1.audits.length = 0 := by
    decide +kernel
  obtain ⟨hknown, hcode, haudits⟩ := hsilent
  obtain ⟨f, hf⟩ := Option.isSome_iff_exists.mp hknown
  have hevidence := hall i rehearsed
  rw [hf] at hevidence
  rcases hreply : (serviceStep accountsDaemon i rehearsed).1.reply with e | reply
  · exact not_evidence_of_silent hreply (List.eq_nil_of_length_eq_zero haudits) hevidence
  · rw [refusalCode, hreply] at hcode
    cases hcode

end PgBrakes.Ports.RefusalEvidence
