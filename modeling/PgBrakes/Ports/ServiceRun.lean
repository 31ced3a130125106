import PgBrakes.Verified.History
import PgBrakes.Ports.ApplyService

/-!
# Runs of the service

A run is a sequence of calls of the five entry points on one service, in any
order and with any arguments.  `Outcome` says once what a call can do to the
four maps; every law about runs is an induction over it.

## Main results

* `serviceStep_outcome` — every call has one of the outcomes.
* `Outcome.proposals`, `Outcome.tickets`, `Outcome.grants` — where an entry of a
  map comes from.
* `Outcome.reached` — what a call that reached the connection was handed.
-/

namespace PgBrakes.Ports.ServiceRun

open PgBrakes.Verified.Effect
open PgBrakes.Ports.KeyChecksum
open PgBrakes.Ports.TypedInverse
open PgBrakes.Ports.BlastRecord
open PgBrakes.Ports.GuardedApply
open PgBrakes.Ports.SqlAst
open PgBrakes.Ports.Grant
open PgBrakes.Ports.GrantedApply
open PgBrakes.Ports.DryRun
open PgBrakes.Ports.Approval
open PgBrakes.Ports.ApplyService

variable {ω : Type}

/-- A call of an entry point. -/
inductive ServiceCall (ω : Type) where
  | propose (sql : String) (expectedRows : Option Nat) (role sessionId : String)
  | dryRun (proposalId : String) (rehearsal : Rehearsal ω)
  | requestElevation (proposalId reason : String)
  | approve (requestId approverId : String) (key : SigningKey) (nonce : String)
      (grantTtlMillis : Nat)
  | apply (proposalId : String) (confirmRows : Nat) (confirmToken : Option String)
      (conn : ApplyConn ω) (barrier : ApplyBarrier ω)

/-- What a call answers. -/
inductive Reply where
  | proposed (r : ProposeResult)
  | dryRan (r : DryRunResult)
  | elevated (r : RequestElevationResult)
  | approved (r : ApproveResult)
  | applied (r : ApplyResult) (inverse : InversePlan)

/-- A call and the clock it reads. -/
structure ServiceInput (ω : Type) where
  call : ServiceCall ω
  clock : Clock ω

/-- What one call did, with the clock it read, the world and the service it found
and the service it left. -/
structure ServiceRecord (ω : Type) where
  call : ServiceCall ω
  clock : Clock ω
  world : ω
  before : Service
  after : Service
  reply : Except RpcError Reply
  gateCalls : List GateCall
  audits : List AuditAppend
  log : List ApplyCall

/-- The service, the process counter and the world between two calls. -/
structure DaemonState (ω : Type) where
  service : Service
  seq : Nat
  world : ω

section Run

variable [Sha256] [Ed25519] [Sql]

/-- The program of a call. -/
def ServiceInput.run (cfg : DaemonConfig ω) (i : ServiceInput ω) :
    Eff (ServiceState ω) RpcError Reply :=
  match i.call with
  | .propose sql expectedRows role sessionId => do
      let r ← propose cfg sql expectedRows role sessionId i.clock
      pure (.proposed r)
  | .dryRun proposalId rehearsal => do
      let r ← ApplyService.dryRun cfg proposalId rehearsal i.clock
      pure (.dryRan r)
  | .requestElevation proposalId _ => do
      let r ← ApplyService.requestElevation cfg proposalId i.clock
      pure (.elevated r)
  | .approve requestId approverId key nonce grantTtlMillis => do
      let r ← ApplyService.approve cfg requestId approverId key nonce grantTtlMillis i.clock
      pure (.approved r)
  | .apply proposalId confirmRows confirmToken conn barrier => do
      let r ← applyReturningInverse cfg proposalId confirmRows confirmToken conn barrier i.clock
      pure (.applied r.1 r.2)

/-- The state a call starts in: nothing logged yet. -/
def DaemonState.start (s : DaemonState ω) : ServiceState ω :=
  { service := s.service, seq := s.seq, audits := [], gateCalls := [], calls := ⟨s.world, []⟩ }

/-- One call on the shared service. -/
def serviceStep (cfg : DaemonConfig ω) (i : ServiceInput ω) (s : DaemonState ω) :
    ServiceRecord ω × DaemonState ω :=
  let out := i.run cfg s.start
  ( { call := i.call, clock := i.clock, world := s.world, before := s.service
      after := out.2.service, reply := out.1, gateCalls := out.2.gateCalls
      audits := out.2.audits, log := out.2.calls.log }
  , { service := out.2.service, seq := out.2.seq, world := out.2.calls.world } )

/-- The records of a run of a fresh service. -/
def serviceHistory (cfg : DaemonConfig ω) (inputs : List (ServiceInput ω)) (seq : Nat) (w : ω) :
    List (ServiceRecord ω) :=
  (PgBrakes.Verified.History.run (serviceStep cfg) inputs ⟨.new, seq, w⟩).1

end Run

/-! ## What a call can do -/

/-- The maps agree; the request counter may differ. -/
structure SameMaps (a b : Service) : Prop where
  flow : b.flow = a.flow
  applyNonces : b.applyNonces = a.applyNonces
  proposals : b.proposals = a.proposals
  grants : b.grants = a.grants
  requestToProposal : b.requestToProposal = a.requestToProposal

/-- The grant gate, called on these arguments with nothing logged yet. -/
def gateRun [Sha256] [Ed25519] [Sql] (cfg : DaemonConfig ω) (g : GateCall)
    (conn : ApplyConn ω) (barrier : ApplyBarrier ω) (clock : Clock ω) (nonces : NonceStore)
    (w : ω) : Except GrantedApplyError (AppliedWrite × BridgedApplyConfig) × GateState ω :=
  (g.grantCall cfg conn barrier clock).run ⟨nonces, ⟨w, []⟩⟩

/-- What an answer of the gate does to the maps: a success consumes proposal and
grant, an error leaves them. -/
structure Settled (proposalId : String) (before after : Service)
    (answer : Except GrantedApplyError (AppliedWrite × BridgedApplyConfig)) : Prop where
  applied : ∀ a, answer = .ok a →
    after.proposals = before.proposals.erase proposalId ∧
      after.grants = before.grants.erase proposalId
  blocked : ∀ e, answer = .error e →
    after.proposals = before.proposals ∧ after.grants = before.grants
  flow : after.flow = before.flow
  requestToProposal : after.requestToProposal = before.requestToProposal

/-- The outcome of a call on the service `before`, with its record and the
service it leaves. -/
inductive Outcome [Sha256] [Ed25519] [Sql] (cfg : DaemonConfig ω) (before : Service) :
    ServiceRecord ω → Service → Prop
  /-- Refused before the gate: the maps are as they were. -/
  | refused (r : ServiceRecord ω) (after : Service) (e : RpcError)
      (reply : r.reply = .error e) (gate : r.gateCalls = []) (log : r.log = [])
      (same : SameMaps before after) : Outcome cfg before r after
  /-- A proposal was minted and stored. -/
  | proposed (r : ServiceRecord ω) (after : Service) (sql : String)
      (expectedRows : Option Nat) (role sessionId : String) (record : ProposalRecord)
      (ttlMillis : Nat)
      (call : r.call = .propose sql expectedRows role sessionId)
      (reply : r.reply = .ok (.proposed ⟨record.proposal.id, ttlMillis⟩))
      (gate : r.gateCalls = []) (log : r.log = [])
      (statement : record.proposal.statement = sql) (pinnedRole : record.role = role)
      (session : record.sessionId = sessionId) (fresh : record.dryRun = none)
      (classified : classify sql = .ok (record.kind, record.relation))
      (after_eq : after = { before with
        proposals := before.proposals.insert record.proposal.id record }) :
      Outcome cfg before r after
  /-- A dry-run succeeded and was cached. -/
  | dryRan (r : ServiceRecord ω) (after : Service) (proposalId : String)
      (rehearsal : Rehearsal ω) (record : ProposalRecord) (dry : DryRunState)
      (result : DryRunResult)
      (call : r.call = .dryRun proposalId rehearsal)
      (reply : r.reply = .ok (.dryRan result))
      (gate : r.gateCalls = []) (log : r.log = [])
      (stored : before.proposals[proposalId]? = some record)
      (names : dry.blastRadius.proposalId = record.proposal.id)
      (after_eq : after = { before with
        proposals := before.proposals.insert proposalId { record with dryRun := some dry } }) :
      Outcome cfg before r after
  /-- A ticket was opened for a proposal with a cached dry-run. -/
  | elevated (r : ServiceRecord ω) (after : Service) (proposalId reason : String)
      (record : ProposalRecord) (dry : DryRunState) (request : ApprovalRequest)
      (result : RequestElevationResult) (nextRequest : Nat)
      (call : r.call = .requestElevation proposalId reason)
      (reply : r.reply = .ok (.elevated result)) (ticket : result.requestId = request.id)
      (gate : r.gateCalls = []) (log : r.log = [])
      (stored : before.proposals[proposalId]? = some record)
      (cached : record.dryRun = some dry)
      (unused : before.flow.requests[request.id]? = none)
      (binding : request.proposal = bindingProposal cfg record dry)
      (requester : request.requesterId = record.sessionId)
      (pending : request.status = .pending)
      (after_eq : after = { before with
        flow := { before.flow with requests := before.flow.requests.insert request.id request }
        requestToProposal := before.requestToProposal.insert request.id proposalId
        nextRequest := nextRequest }) :
      Outcome cfg before r after
  /-- A grant was signed with the configured key and stored. -/
  | approved (r : ServiceRecord ω) (after : Service) (requestId approverId : String)
      (key : SigningKey) (nonce : String) (grantTtlMillis : Nat) (proposalId : String)
      (request : ApprovalRequest) (expiry : Nat)
      (call : r.call = .approve requestId approverId key nonce grantTtlMillis)
      (reply : r.reply = .ok (.approved ⟨requestId, nonce⟩))
      (gate : r.gateCalls = []) (log : r.log = [])
      (configured : Ed25519.verifyingKey key = cfg.verifyingKey)
      (ticket : before.requestToProposal[requestId]? = some proposalId)
      (stored : before.flow.requests[requestId]? = some request)
      (pending : request.status = .pending)
      (other : approverId ≠ request.requesterId)
      (after_eq : after = { before with
        flow := { before.flow with
          requests := before.flow.requests.insert requestId { request with status := .approved } }
        grants := before.grants.insert proposalId
          (GrantToken.sign (request.proposal.toBinding nonce expiry) key) }) :
      Outcome cfg before r after
  /-- The grant gate was called. -/
  | gated (r : ServiceRecord ω) (after : Service) (proposalId : String) (confirmRows : Nat)
      (confirmToken : Option String) (conn : ApplyConn ω) (barrier : ApplyBarrier ω)
      (clock : Clock ω) (w : ω) (record : ProposalRecord) (dry : DryRunState)
      (grant : GrantToken)
      (call : r.call = .apply proposalId confirmRows confirmToken conn barrier)
      (stored : before.proposals[proposalId]? = some record)
      (cached : record.dryRun = some dry)
      (granted : before.grants[proposalId]? = some grant)
      (gate : r.gateCalls = [gateCallOf proposalId record dry grant])
      (log : r.log = (gateRun cfg (gateCallOf proposalId record dry grant) conn barrier clock
        before.applyNonces w).2.calls.log)
      (settled : Settled proposalId before after (gateRun cfg
        (gateCallOf proposalId record dry grant) conn barrier clock before.applyNonces w).1) :
      Outcome cfg before r after

/-! ## The entry points, one by one -/

/-- The call left the service `service` behind, and made no call of the gate or
the connection. -/
structure Moves (s s' : ServiceState ω) (service : Service) : Prop where
  service : s'.service = service
  gateCalls : s'.gateCalls = s.gateCalls
  log : s'.calls.log = s.calls.log

/-- A refusal ends the call, whether or not the sink took its entry. -/
theorem auditRefusalThen_moves {α : Type} (cfg : DaemonConfig ω)
    (statementText role sessionId : String) (refusal : RpcError) (clock : Clock ω)
    (s : ServiceState ω) :
    ∃ e s', (auditRefusalThen cfg statementText role sessionId refusal clock :
      Eff (ServiceState ω) RpcError α) s = (.error e, s') ∧ Moves s s' s.service := by
  have hquiet : Moves s (auditDecision cfg clock
      (refusalEntry statementText role sessionId refusal) s).2 s.service := ⟨rfl, rfl, rfl⟩
  unfold auditRefusalThen
  rcases haudit : auditDecision cfg clock
    (refusalEntry statementText role sessionId refusal) s with ⟨e | ⟨⟩, s'⟩
  · rw [haudit] at hquiet
    exact ⟨_, s', by rw [Eff.bind_of_ok (Eff.attempt_of haudit)]; rfl, hquiet⟩
  · rw [haudit] at hquiet
    exact ⟨_, s', by rw [Eff.bind_of_ok (Eff.attempt_of haudit)]; rfl, hquiet⟩

/-- A stored proposal is found unless the clock says that it has expired. -/
theorem liveRecord_stored {proposalId : String} (clock : Clock ω) (s : ServiceState ω)
    {record : ProposalRecord} (hget : s.service.proposals[proposalId]? = some record) :
    liveRecord proposalId clock s =
      (if (record.proposal.isExpired clock s.calls.world).1 then .error proposalNotFound
        else .ok record,
        { s with calls := { s.calls with
          world := (record.proposal.isExpired clock s.calls.world).2 } }) := by
  rcases hexpired : record.proposal.isExpired clock s.calls.world with ⟨expired, w'⟩
  have hask : (onWorld (Eff.ask (record.proposal.isExpired clock)) s :
      Except RpcError Bool × ServiceState ω) =
      (.ok expired, { s with calls := { s.calls with world := w' } }) := by
    simp only [onWorld, Eff.ask_apply, hexpired]
  unfold liveRecord
  rw [Eff.bind_of_ok (show current s = (.ok s.service, s) from rfl), hget]
  simp only [Eff.bind_of_ok hask]
  cases expired with
  | true => rfl
  | false => rfl

private theorem liveRecord_moves (proposalId : String) (clock : Clock ω) (s : ServiceState ω) :
    (∃ e s', liveRecord proposalId clock s = (.error e, s') ∧ Moves s s' s.service) ∨
      ∃ record s', liveRecord proposalId clock s = (.ok record, s') ∧ Moves s s' s.service ∧
        s.service.proposals[proposalId]? = some record := by
  rcases hget : s.service.proposals[proposalId]? with _ | record
  · left
    refine ⟨proposalNotFound, s, ?_, rfl, rfl, rfl⟩
    rw [liveRecord, Eff.bind_of_ok (show current s = (.ok s.service, s) from rfl), hget]
    rfl
  · have hlive := liveRecord_stored clock s hget
    rcases hexpired : record.proposal.isExpired clock s.calls.world with ⟨expired, w'⟩
    rw [hexpired] at hlive
    cases expired with
    | true => exact .inl ⟨_, _, hlive, rfl, rfl, rfl⟩
    | false => exact .inr ⟨record, _, hlive, ⟨rfl, rfl, rfl⟩, rfl⟩

private theorem propose_moves [Sql] (cfg : DaemonConfig ω) (sql : String)
    (expectedRows : Option Nat) (role sessionId : String) (clock : Clock ω)
    (s : ServiceState ω) :
    (∃ e s', propose cfg sql expectedRows role sessionId clock s = (.error e, s') ∧
        Moves s s' s.service) ∨
      ∃ record ttlMillis s', propose cfg sql expectedRows role sessionId clock s =
          (.ok ⟨record.proposal.id, ttlMillis⟩, s') ∧
        record.proposal.statement = sql ∧ record.role = role ∧
        record.sessionId = sessionId ∧ record.dryRun = none ∧
        classify sql = .ok (record.kind, record.relation) ∧
        Moves s s' { s.service with
          proposals := s.service.proposals.insert record.proposal.id record } := by
  unfold propose
  rcases hclassify : classify sql with e | ⟨kind, relation⟩
  · exact .inl (auditRefusalThen_moves cfg sql role sessionId (dryRunErrorToRpc e) clock s)
  · right
    let proposal := (mintProposal sql expectedRows clock s.seq s.calls.world).1
    let record : ProposalRecord := ⟨proposal, role, sessionId, kind, relation, none⟩
    exact ⟨record, proposal.ttlMillis, _, rfl, rfl, rfl, rfl, rfl, rfl, rfl, rfl, rfl⟩

private theorem dryRun_moves [Sql] (cfg : DaemonConfig ω) (proposalId : String)
    (rehearsal : Rehearsal ω) (clock : Clock ω) (s : ServiceState ω) :
    (∃ e s', ApplyService.dryRun cfg proposalId rehearsal clock s = (.error e, s') ∧
        Moves s s' s.service) ∨
      ∃ record dry result s', ApplyService.dryRun cfg proposalId rehearsal clock s =
          (.ok result, s') ∧
        s.service.proposals[proposalId]? = some record ∧
        dry.blastRadius.proposalId = record.proposal.id ∧
        Moves s s' { s.service with proposals :=
          s.service.proposals.insert proposalId { record with dryRun := some dry } } := by
  unfold ApplyService.dryRun
  rcases liveRecord_moves proposalId clock s with ⟨e, s₁, hlive, hmoves⟩ |
    ⟨record, s₁, hlive, hmoves, hget⟩
  · exact .inl ⟨e, s₁, Eff.bind_of_error hlive, hmoves⟩
  rw [Eff.bind_of_ok hlive]
  rcases hrun : DryRun.dryRun record.proposal rehearsal clock s₁.calls.world with ⟨answer, w'⟩
  let s₂ : ServiceState ω := { s₁ with calls := { s₁.calls with world := w' } }
  have hanswer : onWorld (DryRun.dryRun record.proposal rehearsal clock) s₁ = (answer, s₂) := by
    simp only [onWorld, hrun, s₂]
  rw [Eff.bind_of_ok (Eff.attempt_of hanswer)]
  have hquiet : ∀ {s' : ServiceState ω}, Moves s₂ s' s₂.service → Moves s s' s.service :=
    fun h => ⟨h.service.trans hmoves.service, h.gateCalls.trans hmoves.gateCalls,
      h.log.trans hmoves.log⟩
  rcases answer with e | radius
  · obtain ⟨e', s', hrefused, hs'⟩ := auditRefusalThen_moves (α := DryRunResult) cfg
      record.proposal.statement record.role record.sessionId (dryRunErrorToRpc e) clock s₂
    exact .inl ⟨e', s', hrefused, hquiet hs'⟩
  · obtain ⟨kind, relation, m, -, hassemble⟩ := dryRun_ok hrun
    simp only [cacheDryRun]
    rcases radius.affected.pkSetChecksum[record.relation]? with _ | checksum
    · obtain ⟨e', s', hrefused, hs'⟩ := auditRefusalThen_moves (α := DryRunResult) cfg
        record.proposal.statement record.role record.sessionId
        (ErrorCode.pkLess.error ("no pk_set_checksum for target `" ++ record.relation ++ "`"))
        clock s₂
      exact .inl ⟨e', s', hrefused, hquiet hs'⟩
    · right
      let dry : DryRunState := ⟨radius, radius.affected.totalRows,
        "ct-" ++ proposalId ++ "-" ++ toString radius.affected.totalRows⟩
      refine ⟨record, dry, _, _, rfl, hget, (assemble_ok hassemble).1, ?_, ?_, ?_⟩
      · have hservice : s₂.service = s.service := hmoves.service
        simp only [hservice, dry]
      · exact hmoves.gateCalls
      · exact hmoves.log

private theorem requestElevation_moves (cfg : DaemonConfig ω)
    (proposalId : String) (clock : Clock ω) (s : ServiceState ω) :
    (∃ e s' service', ApplyService.requestElevation cfg proposalId clock s = (.error e, s') ∧
        SameMaps s.service service' ∧ Moves s s' service') ∨
      ∃ record dry request result nextRequest s',
        ApplyService.requestElevation cfg proposalId clock s = (.ok result, s') ∧
        result.requestId = request.id ∧
        s.service.proposals[proposalId]? = some record ∧ record.dryRun = some dry ∧
        s.service.flow.requests[request.id]? = none ∧
        request.proposal = bindingProposal cfg record dry ∧
        request.requesterId = record.sessionId ∧ request.status = .pending ∧
        Moves s s' { s.service with
          flow := { s.service.flow with
            requests := s.service.flow.requests.insert request.id request }
          requestToProposal := s.service.requestToProposal.insert request.id proposalId
          nextRequest := nextRequest } := by
  unfold ApplyService.requestElevation
  rcases liveRecord_moves proposalId clock s with ⟨e, s₁, hlive, hmoves⟩ |
    ⟨record, s₁, hlive, hmoves, hget⟩
  · exact .inl ⟨e, s₁, s.service, Eff.bind_of_error hlive, ⟨rfl, rfl, rfl, rfl, rfl⟩, hmoves⟩
  rw [Eff.bind_of_ok hlive]
  rcases hdry : record.dryRun with _ | dry
  · exact .inl ⟨_, s₁, s.service, rfl, ⟨rfl, rfl, rfl, rfl, rfl⟩, hmoves⟩
  let next := (s₁.service.nextRequest + 1) % 2 ^ 64
  let requestId := "req-" ++ lowerHex8 next
  let s₂ : ServiceState ω := { s₁ with service := { s₁.service with nextRequest := next } }
  have hnext : (nextRequestId s₁ : Except RpcError String × ServiceState ω) =
      (.ok requestId, s₂) := rfl
  have hservice : s₂.service = { s.service with nextRequest := next } := by
    simp only [s₂, hmoves.service]
  simp only [elevate]
  rw [Eff.bind_of_ok hnext]
  rcases hout : Approval.requestElevation cfg.seams requestId (bindingProposal cfg record dry)
    record.sessionId (operationFor record dry) defaultRequestTtlMillis clock s₂.flowState with
    ⟨answer, f⟩
  have hflow := requestElevation_cases cfg.seams requestId (bindingProposal cfg record dry)
    record.sessionId (operationFor record dry) defaultRequestTtlMillis clock s₂.flowState
  rw [hout] at hflow
  have hmapped := mapError_onFlow_of (g := elevationErrorToRpc) hout
  rcases hflow with ⟨e, hanswer, hsame⟩ |
    ⟨request, hanswer, hunused, hid, hbinding, hrequester, hpending, hinsert⟩
  · left
    replace hanswer : answer = .error e := hanswer
    replace hsame : f.flow = s₂.service.flow := hsame
    subst hanswer
    refine ⟨_, _, _, Eff.bind_of_error hmapped, ?_, rfl, hmoves.gateCalls, hmoves.log⟩
    simp only [ServiceState.withFlow, hsame, hservice]
    exact ⟨rfl, rfl, rfl, rfl, rfl⟩
  · right
    replace hanswer : answer = .ok request.contract := hanswer
    replace hinsert : f.flow = { s₂.service.flow with
      requests := s₂.service.flow.requests.insert requestId request } := hinsert
    subst hanswer
    refine ⟨record, dry, request, _, next, _, (Eff.bind_of_ok hmapped).trans rfl, hid.symm, hget,
      hdry, ?_, hbinding, hrequester, hpending, ?_, hmoves.gateCalls, hmoves.log⟩
    · rw [hid, ← congrArg (fun service : Service => service.flow.requests[requestId]?) hservice]
      exact hunused
    · rw [hid]
      simp only [ServiceState.withFlow, hinsert, hservice]

private theorem approve_moves [Sha256] [Ed25519] (cfg : DaemonConfig ω)
    (requestId approverId : String) (key : SigningKey) (nonce : String) (grantTtlMillis : Nat)
    (clock : Clock ω) (s : ServiceState ω) :
    (∃ e s', ApplyService.approve cfg requestId approverId key nonce grantTtlMillis clock s =
        (.error e, s') ∧ Moves s s' s.service) ∨
      ∃ proposalId request expiry s',
        ApplyService.approve cfg requestId approverId key nonce grantTtlMillis clock s =
          (.ok ⟨requestId, nonce⟩, s') ∧
        Ed25519.verifyingKey key = cfg.verifyingKey ∧
        s.service.requestToProposal[requestId]? = some proposalId ∧
        s.service.flow.requests[requestId]? = some request ∧ request.status = .pending ∧
        approverId ≠ request.requesterId ∧
        Moves s s' { s.service with
          flow := { s.service.flow with requests :=
            s.service.flow.requests.insert requestId { request with status := .approved } }
          grants := s.service.grants.insert proposalId
            (GrantToken.sign (request.proposal.toBinding nonce expiry) key) } := by
  unfold ApplyService.approve
  by_cases hkey : Ed25519.verifyingKey key ≠ cfg.verifyingKey
  · rw [if_pos hkey]
    exact .inl ⟨_, s, rfl, rfl, rfl, rfl⟩
  rw [if_neg hkey, Eff.bind_of_ok (show current s = (.ok s.service, s) from rfl)]
  rcases hticket : s.service.requestToProposal[requestId]? with _ | proposalId
  · exact .inl ⟨_, s, rfl, rfl, rfl, rfl⟩
  rcases hout : Approval.approve cfg.seams requestId (.approver approverId) key nonce
    grantTtlMillis clock s.flowState with ⟨answer, f⟩
  have hflow := approve_cases cfg.seams requestId (.approver approverId) key nonce
    grantTtlMillis clock s.flowState
  rw [hout] at hflow
  have hmapped := mapError_onFlow_of (g := approveErrorToRpc) hout
  rcases hflow with ⟨e, hanswer, hsame⟩ |
    ⟨request, expiry, hstored, hpending, hother, hanswer, hinsert⟩
  · left
    replace hanswer : answer = .error e := hanswer
    replace hsame : f.flow = s.service.flow := hsame
    subst hanswer
    refine ⟨_, _, Eff.bind_of_error hmapped, ?_, rfl, rfl⟩
    simp only [ServiceState.withFlow, hsame]
  · right
    replace hanswer : answer =
      .ok (GrantToken.sign (request.proposal.toBinding nonce expiry) key) := hanswer
    replace hinsert : f.flow = { s.service.flow with
      requests := s.service.flow.requests.insert requestId
        { request with status := .approved } } := hinsert
    subst hanswer
    refine ⟨proposalId, request, expiry, _, (Eff.bind_of_ok hmapped).trans rfl, not_not.mp hkey,
      rfl, hstored, hpending, hother, ?_, rfl, rfl⟩
    simp only [ServiceState.withFlow, hinsert]

theorem concludeBlocked_moves (cfg : DaemonConfig ω) (g : GateCall)
    (e : GrantedApplyError) (clock : Clock ω) (s : ServiceState ω) :
    Moves s (concludeBlocked cfg g e clock s).2 s.service := by
  simp only [concludeBlocked, Eff.bind_apply, Eff.mapError_apply, auditDecision]
  rcases (appendEntry cfg.seams.sink clock (applyEntry g.live .block
    (grantedApplyErrorToRpc e).data.code (grantedApplyErrorToRpc e).message)
    ⟨s.calls.world, s.audits⟩).1 with e' | ⟨⟩
  · exact ⟨rfl, rfl, rfl⟩
  · exact ⟨rfl, rfl, rfl⟩

theorem concludeApplied_moves (cfg : DaemonConfig ω) (g : GateCall)
    (applied : AppliedWrite) (clock : Clock ω) (s : ServiceState ω) :
    Moves s (concludeApplied cfg g applied clock s).2 { s.service with
      proposals := s.service.proposals.erase g.live.proposalId
      grants := s.service.grants.erase g.live.proposalId } := by
  simp only [concludeApplied, update, Eff.bind_apply, Eff.mapError_apply, auditDecision]
  rcases (appendEntry cfg.seams.sink clock (applyEntry g.live .allow "apply_committed"
    s!"{applied.rowsWritten} rows committed (reversible)") ⟨s.calls.world, s.audits⟩).1 with
    e' | ⟨⟩
  · exact ⟨rfl, rfl, rfl⟩
  · exact ⟨rfl, rfl, rfl⟩

/-- The state behind the gate, from what the gate left. -/
def behindGate (s : ServiceState ω) (g : GateCall) (after : GateState ω) : ServiceState ω :=
  { s with
    service := { s.service with applyNonces := after.nonces }
    gateCalls := s.gateCalls ++ [g]
    calls := after.calls }

section Conclusion

variable [Sha256] [Ed25519] [Sql] {cfg : DaemonConfig ω} {g : GateCall} {conn : ApplyConn ω}
  {barrier : ApplyBarrier ω} {clock : Clock ω} {s : ServiceState ω}

theorem callGate_of_gateRun
    {answer : Except GrantedApplyError (AppliedWrite × BridgedApplyConfig)} {after : GateState ω}
    (hlog : s.calls.log = [])
    (hgate : gateRun cfg g conn barrier clock s.service.applyNonces s.calls.world =
      (answer, after)) :
    callGate cfg g conn barrier clock s = (.ok answer, behindGate s g after) := by
  have hrun : (g.grantCall cfg conn barrier clock).run ⟨s.service.applyNonces, s.calls⟩ =
      (answer, after) := by
    rw [← hgate, show s.calls = ⟨s.calls.world, []⟩ by rw [← hlog]]
    rfl
  simp only [callGate, Eff.attempt_apply, onGate, hrun, behindGate]

/-- An apply that the gate let through ends as its conclusion does. -/
theorem applyGranted_of_applied {applied : AppliedWrite × BridgedApplyConfig}
    {after : GateState ω} (hlog : s.calls.log = [])
    (hgate : gateRun cfg g conn barrier clock s.service.applyNonces s.calls.world =
      (.ok applied, after)) :
    applyGranted cfg g conn barrier clock s =
      concludeApplied cfg g applied.1 clock (behindGate s g after) :=
  Eff.bind_of_ok (callGate_of_gateRun hlog hgate)

/-- An apply that the gate blocked ends as the audit of the block does. -/
theorem applyGranted_of_blocked {e : GrantedApplyError} {after : GateState ω}
    (hlog : s.calls.log = [])
    (hgate : gateRun cfg g conn barrier clock s.service.applyNonces s.calls.world =
      (.error e, after)) :
    applyGranted cfg g conn barrier clock s =
      concludeBlocked cfg g e clock (behindGate s g after) :=
  Eff.bind_of_ok (callGate_of_gateRun hlog hgate)

end Conclusion

/-- The tail of an apply: whatever the sink answers, the maps are settled by the
gate's answer, and the connection is not called again. -/
private theorem applyGranted_settled [Sha256] [Ed25519] [Sql] (cfg : DaemonConfig ω)
    (g : GateCall) (conn : ApplyConn ω) (barrier : ApplyBarrier ω) (clock : Clock ω)
    (s : ServiceState ω) (hlog : s.calls.log = []) :
    let gate := gateRun cfg g conn barrier clock s.service.applyNonces s.calls.world
    let out := applyGranted cfg g conn barrier clock s
    Settled g.live.proposalId s.service out.2.service gate.1 ∧
      out.2.gateCalls = s.gateCalls ++ [g] ∧ out.2.calls.log = gate.2.calls.log := by
  intro gate out
  rcases hgate : gate with ⟨answer, after⟩
  cases answer with
  | error e =>
      have hout : out = concludeBlocked cfg g e clock (behindGate s g after) :=
        applyGranted_of_blocked hlog hgate
      have hmoves := concludeBlocked_moves cfg g e clock (behindGate s g after)
      rw [← hout] at hmoves
      refine ⟨⟨?_, ?_, ?_, ?_⟩, hmoves.gateCalls, hmoves.log⟩
      · intro a ha
        cases ha
      · intro _ _
        rw [hmoves.service]
        exact ⟨rfl, rfl⟩
      · rw [hmoves.service]
        rfl
      · rw [hmoves.service]
        rfl
  | ok applied =>
      have hout : out = concludeApplied cfg g applied.1 clock (behindGate s g after) :=
        applyGranted_of_applied hlog hgate
      have hmoves := concludeApplied_moves cfg g applied.1 clock (behindGate s g after)
      rw [← hout] at hmoves
      refine ⟨⟨?_, ?_, ?_, ?_⟩, hmoves.gateCalls, hmoves.log⟩
      · intro _ _
        rw [hmoves.service]
        exact ⟨rfl, rfl⟩
      · intro e he
        cases he
      · rw [hmoves.service]
        rfl
      · rw [hmoves.service]
        rfl

private theorem apply_moves [Sha256] [Ed25519] [Sql] (cfg : DaemonConfig ω)
    (proposalId : String) (confirmRows : Nat) (confirmToken : Option String)
    (conn : ApplyConn ω) (barrier : ApplyBarrier ω) (clock : Clock ω) (s : ServiceState ω)
    (hlog : s.calls.log = []) :
    let out := applyReturningInverse cfg proposalId confirmRows confirmToken conn barrier clock s
    (∃ e, out.1 = .error e ∧ Moves s out.2 s.service) ∨
      ∃ record dry grant w, s.service.proposals[proposalId]? = some record ∧
        record.dryRun = some dry ∧ s.service.grants[proposalId]? = some grant ∧
        let g := gateCallOf proposalId record dry grant
        let gate := gateRun cfg g conn barrier clock s.service.applyNonces w
        Settled proposalId s.service out.2.service gate.1 ∧
          out.2.gateCalls = s.gateCalls ++ [g] ∧ out.2.calls.log = gate.2.calls.log := by
  intro out
  rcases liveRecord_moves proposalId clock s with ⟨e, s₁, hlive, hmoves⟩ |
    ⟨record, s₁, hlive, hmoves, hget⟩
  · have hout : out = (.error e, s₁) := Eff.bind_of_error hlive
    rw [hout]
    exact .inl ⟨e, rfl, hmoves⟩
  have hout : out = applyRecord cfg proposalId record confirmRows confirmToken conn barrier
      clock s₁ := Eff.bind_of_ok hlive
  simp only [applyRecord] at hout
  rcases hdry : record.dryRun with _ | dry
  · simp only [hdry] at hout
    rw [hout]
    exact .inl ⟨_, rfl, hmoves⟩
  simp only [hdry] at hout
  rcases hconfirm : confirmCheck confirmRows confirmToken dry with e | ⟨⟩
  · rw [hconfirm] at hout
    rw [hout]
    exact .inl ⟨e, rfl, hmoves⟩
  rw [Eff.bind_of_ok (Eff.lift_of_ok hconfirm s₁),
    Eff.bind_of_ok (show current s₁ = (.ok s₁.service, s₁) from rfl), hmoves.service] at hout
  rcases hgrant : s.service.grants[proposalId]? with _ | grant
  · simp only [hgrant] at hout
    rw [hout]
    exact .inl ⟨_, rfl, hmoves⟩
  · right
    simp only [hgrant] at hout
    have hsettled := applyGranted_settled cfg (gateCallOf proposalId record dry grant) conn
      barrier clock s₁ (hmoves.log.trans hlog)
    simp only [hmoves.service, hmoves.gateCalls, ← hout] at hsettled
    exact ⟨record, dry, grant, s₁.calls.world, hget, hdry, rfl, hsettled⟩

private theorem SameMaps.refl (service : Service) : SameMaps service service :=
  ⟨rfl, rfl, rfl, rfl, rfl⟩

/-- A call that ended in an error without reaching the gate. -/
private theorem outcome_of_error [Sha256] [Ed25519] [Sql] {cfg : DaemonConfig ω}
    {i : ServiceInput ω} {s : DaemonState ω} {e : RpcError} {s' : ServiceState ω}
    {service : Service} (hrun : i.run cfg s.start = (.error e, s'))
    (hmoves : Moves s.start s' service) (hsame : SameMaps s.service service) :
    Outcome cfg s.service (serviceStep cfg i s).1 (serviceStep cfg i s).2.service := by
  simp only [serviceStep, hrun]
  refine .refused _ _ e rfl hmoves.gateCalls hmoves.log ?_
  rw [hmoves.service]
  exact hsame

/-- Every call has one of the outcomes. -/
theorem serviceStep_outcome [Sha256] [Ed25519] [Sql] (cfg : DaemonConfig ω)
    (i : ServiceInput ω) (s : DaemonState ω) :
    Outcome cfg s.service (serviceStep cfg i s).1 (serviceStep cfg i s).2.service := by
  obtain ⟨call, clock⟩ := i
  cases call with
  | propose sql expectedRows role sessionId =>
      rcases propose_moves cfg sql expectedRows role sessionId clock s.start with
        ⟨e, s', hrun, hmoves⟩ |
        ⟨record, ttlMillis, s', hrun, hstatement, hrole, hsession, hfresh, hclassified,
          hmoves⟩
      · exact outcome_of_error (Eff.bind_of_error hrun) hmoves (.refl _)
      · have hstep : (ServiceInput.run cfg ⟨.propose sql expectedRows role sessionId, clock⟩)
            s.start = (.ok (.proposed ⟨record.proposal.id, ttlMillis⟩), s') :=
          (Eff.bind_of_ok hrun).trans rfl
        simp only [serviceStep, hstep]
        exact .proposed _ _ sql expectedRows role sessionId record ttlMillis rfl rfl
          hmoves.gateCalls hmoves.log hstatement hrole hsession hfresh hclassified
          hmoves.service
  | dryRun proposalId rehearsal =>
      rcases dryRun_moves cfg proposalId rehearsal clock s.start with
        ⟨e, s', hrun, hmoves⟩ | ⟨record, dry, result, s', hrun, hget, hnames, hmoves⟩
      · exact outcome_of_error (Eff.bind_of_error hrun) hmoves (.refl _)
      · have hstep : (ServiceInput.run cfg ⟨.dryRun proposalId rehearsal, clock⟩) s.start =
            (.ok (.dryRan result), s') := (Eff.bind_of_ok hrun).trans rfl
        simp only [serviceStep, hstep]
        exact .dryRan _ _ proposalId rehearsal record dry result rfl rfl hmoves.gateCalls
          hmoves.log hget hnames hmoves.service
  | requestElevation proposalId reason =>
      rcases requestElevation_moves cfg proposalId clock s.start with
        ⟨e, s', service', hrun, hsame, hmoves⟩ |
        ⟨record, dry, request, result, next, s', hrun, hticket, hget, hdry, hunused, hbinding,
          hrequester, hpending, hmoves⟩
      · exact outcome_of_error (Eff.bind_of_error hrun) hmoves hsame
      · have hstep : (ServiceInput.run cfg ⟨.requestElevation proposalId reason, clock⟩)
            s.start = (.ok (.elevated result), s') := (Eff.bind_of_ok hrun).trans rfl
        simp only [serviceStep, hstep]
        exact .elevated _ _ proposalId reason record dry request result next rfl rfl hticket
          hmoves.gateCalls hmoves.log hget hdry hunused hbinding hrequester hpending
          hmoves.service
  | approve requestId approverId key nonce grantTtlMillis =>
      rcases approve_moves cfg requestId approverId key nonce grantTtlMillis clock s.start with
        ⟨e, s', hrun, hmoves⟩ |
        ⟨proposalId, request, expiry, s', hrun, hkey, hticket, hstored, hpending, hother, hmoves⟩
      · exact outcome_of_error (Eff.bind_of_error hrun) hmoves (.refl _)
      · have hstep : (ServiceInput.run cfg ⟨.approve requestId approverId key nonce
            grantTtlMillis, clock⟩) s.start = (.ok (.approved ⟨requestId, nonce⟩), s') :=
          (Eff.bind_of_ok hrun).trans rfl
        simp only [serviceStep, hstep]
        exact .approved _ _ requestId approverId key nonce grantTtlMillis proposalId request
          expiry rfl rfl hmoves.gateCalls hmoves.log hkey hticket hstored hpending hother
          hmoves.service
  | apply proposalId confirmRows confirmToken conn barrier =>
      have hcases := apply_moves cfg proposalId confirmRows confirmToken conn barrier clock
        s.start rfl
      rcases hout : applyReturningInverse cfg proposalId confirmRows confirmToken conn barrier
        clock s.start with ⟨reply, s'⟩
      rw [hout] at hcases
      rcases hcases with ⟨e, he, hmoves⟩ |
        ⟨record, dry, grant, w, hget, hdry, hgrant, hsettled, hgate, hlog⟩
      · replace he : reply = .error e := he
        subst he
        exact outcome_of_error (Eff.bind_of_error hout) hmoves (.refl _)
      · have hstate : (ServiceInput.run cfg ⟨.apply proposalId confirmRows confirmToken conn
            barrier, clock⟩ s.start).2 = s' := by
          simp only [ServiceInput.run, Eff.bind_apply, hout]
          cases reply with
          | error e => rfl
          | ok r => rfl
        simp only [serviceStep, hstate]
        exact .gated _ _ proposalId confirmRows confirmToken conn barrier clock w record dry
          grant rfl hget hdry hgrant hgate hlog hsettled

/-! ## What a record says about its call -/

namespace ServiceRecord

/-- The call proposed `sql` for a role and a session, and minted `p` for it. -/
def Mints (r : ServiceRecord ω) (p sql role sessionId : String) : Prop :=
  ∃ expectedRows ttlMillis, r.call = .propose sql expectedRows role sessionId ∧
    r.reply = .ok (.proposed ⟨p, ttlMillis⟩)

/-- The call was a successful dry-run of `p`. -/
def DryRan (r : ServiceRecord ω) (p : String) : Prop :=
  ∃ rehearsal result, r.call = .dryRun p rehearsal ∧ r.reply = .ok (.dryRan result)

/-- The call opened the ticket `requestId` for `p`. -/
def Opens (r : ServiceRecord ω) (p requestId : String) : Prop :=
  ∃ reason result, r.call = .requestElevation p reason ∧ r.reply = .ok (.elevated result) ∧
    result.requestId = requestId

/-- The call approved the ticket `requestId`. -/
def Approves (r : ServiceRecord ω) (requestId approverId : String) (key : SigningKey)
    (nonce : String) : Prop :=
  ∃ grantTtlMillis, r.call = .approve requestId approverId key nonce grantTtlMillis ∧
    r.reply = .ok (.approved ⟨requestId, nonce⟩)

/-- The proposal an apply is for. -/
def applies (r : ServiceRecord ω) : Option String :=
  match r.call with
  | .apply proposalId _ _ _ _ => some proposalId
  | _ => none

end ServiceRecord

/-! ## The maps, one at a time -/

theorem getElem?_insert_string {β : Type} (t : Std.TreeMap String β) (k a : String) (v : β) :
    (t.insert k v)[a]? = if k = a then some v else t[a]? := by
  simp [Std.TreeMap.getElem?_insert]

theorem getElem?_erase_string {β : Type} (t : Std.TreeMap String β) (k a : String) :
    (t.erase k)[a]? = if k = a then none else t[a]? := by
  simp [Std.TreeMap.getElem?_erase]

section Footprint

variable [Sha256] [Ed25519] [Sql] {cfg : DaemonConfig ω} {before after : Service}
  {r : ServiceRecord ω}

/-- Where a stored proposal comes from. -/
theorem Outcome.proposals (h : Outcome cfg before r after) {p : String}
    {record : ProposalRecord} (hafter : after.proposals[p]? = some record) :
    before.proposals[p]? = some record ∨
      (r.Mints p record.proposal.statement record.role record.sessionId ∧
        record.dryRun = none ∧
        classify record.proposal.statement = .ok (record.kind, record.relation)) ∨
      ∃ old dry, r.DryRan p ∧ before.proposals[p]? = some old ∧
        record = { old with dryRun := some dry } := by
  cases h with
  | refused e reply gate log same =>
      rw [same.proposals] at hafter
      exact .inl hafter
  | proposed sql expectedRows role sessionId new ttlMillis call reply gate log statement
      pinnedRole session fresh classified after_eq =>
      rw [after_eq, getElem?_insert_string] at hafter
      split at hafter
      · next heq =>
          cases hafter
          subst heq statement pinnedRole session
          exact .inr (.inl ⟨⟨expectedRows, ttlMillis, call, reply⟩, fresh, classified⟩)
      · exact .inl hafter
  | dryRan proposalId rehearsal old dry result call reply gate log stored names after_eq =>
      rw [after_eq, getElem?_insert_string] at hafter
      split at hafter
      · next heq =>
          cases hafter
          subst heq
          exact .inr (.inr ⟨old, dry, ⟨rehearsal, result, call, reply⟩, stored, rfl⟩)
      · exact .inl hafter
  | elevated proposalId reason old dry request result nextRequest call reply ticket gate log
      stored cached unused binding requester pending after_eq =>
      rw [after_eq] at hafter
      exact .inl hafter
  | approved requestId approverId key nonce grantTtlMillis proposalId request expiry call reply
      gate log configured ticket stored pending other after_eq =>
      rw [after_eq] at hafter
      exact .inl hafter
  | gated proposalId confirmRows confirmToken conn barrier clock w old dry grant call stored
      cached granted gate log settled =>
      left
      rcases hanswer : (gateRun cfg (gateCallOf proposalId old dry grant) conn barrier clock
        before.applyNonces w).1 with e | a
      · rw [(settled.blocked e hanswer).1] at hafter
        exact hafter
      · rw [(settled.applied a hanswer).1, getElem?_erase_string] at hafter
        split at hafter
        · cases hafter
        · exact hafter

/-- A ticket keeps its proposal and its requester. -/
theorem Outcome.requests (h : Outcome cfg before r after) {requestId : String}
    {request : ApprovalRequest} (hbefore : before.flow.requests[requestId]? = some request) :
    ∃ request', after.flow.requests[requestId]? = some request' ∧
      request'.proposal = request.proposal ∧ request'.requesterId = request.requesterId := by
  cases h with
  | refused e reply gate log same =>
      rw [same.flow]
      exact ⟨request, hbefore, rfl, rfl⟩
  | proposed sql expectedRows role sessionId new ttlMillis call reply gate log statement
      pinnedRole session fresh classified after_eq =>
      rw [after_eq]
      exact ⟨request, hbefore, rfl, rfl⟩
  | dryRan proposalId rehearsal old dry result call reply gate log stored names after_eq =>
      rw [after_eq]
      exact ⟨request, hbefore, rfl, rfl⟩
  | elevated proposalId reason old dry new result nextRequest call reply ticket gate log
      stored cached unused binding requester pending after_eq =>
      have hne : new.id ≠ requestId := by
        rintro rfl
        rw [unused] at hbefore
        cases hbefore
      rw [after_eq]
      simp only [getElem?_insert_string, if_neg hne]
      exact ⟨request, hbefore, rfl, rfl⟩
  | approved ticketId approverId key nonce grantTtlMillis proposalId old expiry call reply
      gate log configured ticket stored pending other after_eq =>
      rw [after_eq]
      simp only [getElem?_insert_string]
      by_cases heq : ticketId = requestId
      · subst heq
        rw [stored] at hbefore
        cases hbefore
        rw [if_pos rfl]
        exact ⟨_, rfl, rfl, rfl⟩
      · rw [if_neg heq]
        exact ⟨request, hbefore, rfl, rfl⟩
  | gated proposalId confirmRows confirmToken conn barrier clock w old dry grant call stored
      cached granted gate log settled =>
      rw [settled.flow]
      exact ⟨request, hbefore, rfl, rfl⟩

/-- Where a ticket comes from. -/
theorem Outcome.tickets (h : Outcome cfg before r after) {requestId p : String}
    (hafter : after.requestToProposal[requestId]? = some p) :
    before.requestToProposal[requestId]? = some p ∨
      ∃ record dry request, r.Opens p requestId ∧ before.proposals[p]? = some record ∧
        record.dryRun = some dry ∧ after.flow.requests[requestId]? = some request ∧
        request.proposal = bindingProposal cfg record dry ∧
        request.requesterId = record.sessionId := by
  cases h with
  | refused e reply gate log same =>
      rw [same.requestToProposal] at hafter
      exact .inl hafter
  | proposed sql expectedRows role sessionId new ttlMillis call reply gate log statement
      pinnedRole session fresh classified after_eq =>
      rw [after_eq] at hafter
      exact .inl hafter
  | dryRan proposalId rehearsal old dry result call reply gate log stored names after_eq =>
      rw [after_eq] at hafter
      exact .inl hafter
  | elevated proposalId reason record dry request result nextRequest call reply ticket gate log
      stored cached unused binding requester pending after_eq =>
      rw [after_eq] at hafter ⊢
      simp only [getElem?_insert_string] at hafter ⊢
      split at hafter
      · next heq =>
          cases hafter
          refine .inr ⟨record, dry, request, ⟨reason, result, call, reply, ?_⟩, stored, cached,
            if_pos heq, binding, requester⟩
          rw [ticket, heq]
      · exact .inl hafter
  | approved ticketId approverId key nonce grantTtlMillis proposalId old expiry call reply
      gate log configured ticket stored pending other after_eq =>
      rw [after_eq] at hafter
      exact .inl hafter
  | gated proposalId confirmRows confirmToken conn barrier clock w old dry grant call stored
      cached granted gate log settled =>
      rw [settled.requestToProposal] at hafter
      exact .inl hafter

/-- A ticket is only opened for a proposal with a cached dry-run. -/
theorem Outcome.opens (h : Outcome cfg before r after) {p requestId : String}
    (hopens : r.Opens p requestId) :
    ∃ record, before.proposals[p]? = some record ∧ record.dryRun ≠ none := by
  obtain ⟨reason, result, hcall, hreply, -⟩ := hopens
  cases h with
  | elevated proposalId reason' record dry request result' nextRequest call reply ticket gate
      log stored cached unused binding requester pending after_eq =>
      cases hcall.symm.trans call
      exact ⟨record, stored, by simp [cached]⟩
  | refused e reply gate log same => cases hreply.symm.trans reply
  | proposed sql expectedRows role sessionId new ttlMillis call reply gate log statement
      pinnedRole session fresh classified after_eq => cases hcall.symm.trans call
  | dryRan proposalId rehearsal old dry result' call reply gate log stored names after_eq =>
      cases hcall.symm.trans call
  | approved ticketId approverId key nonce grantTtlMillis proposalId old expiry call reply
      gate log configured ticket stored pending other after_eq => cases hcall.symm.trans call
  | gated proposalId confirmRows confirmToken conn barrier clock w old dry grant call stored
      cached granted gate log settled => cases hcall.symm.trans call

/-- Where a grant comes from. -/
theorem Outcome.grants (h : Outcome cfg before r after) {p : String} {grant : GrantToken}
    (hafter : after.grants[p]? = some grant) :
    before.grants[p]? = some grant ∨
      ∃ requestId approverId key nonce request expiry,
        r.Approves requestId approverId key nonce ∧
        Ed25519.verifyingKey key = cfg.verifyingKey ∧
        before.requestToProposal[requestId]? = some p ∧
        before.flow.requests[requestId]? = some request ∧
        approverId ≠ request.requesterId ∧
        grant = GrantToken.sign (request.proposal.toBinding nonce expiry) key := by
  cases h with
  | refused e reply gate log same =>
      rw [same.grants] at hafter
      exact .inl hafter
  | proposed sql expectedRows role sessionId new ttlMillis call reply gate log statement
      pinnedRole session fresh classified after_eq =>
      rw [after_eq] at hafter
      exact .inl hafter
  | dryRan proposalId rehearsal old dry result call reply gate log stored names after_eq =>
      rw [after_eq] at hafter
      exact .inl hafter
  | elevated proposalId reason record dry request result nextRequest call reply ticket gate log
      stored cached unused binding requester pending after_eq =>
      rw [after_eq] at hafter
      exact .inl hafter
  | approved requestId approverId key nonce grantTtlMillis proposalId request expiry call reply
      gate log configured ticket stored pending other after_eq =>
      rw [after_eq, getElem?_insert_string] at hafter
      split at hafter
      · next heq =>
          cases hafter
          subst heq
          exact .inr ⟨requestId, approverId, key, nonce, request, expiry,
            ⟨grantTtlMillis, call, reply⟩, configured, ticket, stored, other, rfl⟩
      · exact .inl hafter
  | gated proposalId confirmRows confirmToken conn barrier clock w old dry used call stored
      cached granted gate log settled =>
      left
      rcases hanswer : (gateRun cfg (gateCallOf proposalId old dry used) conn barrier clock
        before.applyNonces w).1 with e | a
      · rw [(settled.blocked e hanswer).2] at hafter
        exact hafter
      · rw [(settled.applied a hanswer).2, getElem?_erase_string] at hafter
        split at hafter
        · cases hafter
        · exact hafter

/-- A call that reached the connection is an apply that was handed to the gate
with what the maps held. -/
theorem Outcome.reached (h : Outcome cfg before r after) (hlog : r.log ≠ []) :
    ∃ p confirmRows confirmToken conn barrier clock w record dry grant,
      r.call = .apply p confirmRows confirmToken conn barrier ∧
      before.proposals[p]? = some record ∧ record.dryRun = some dry ∧
      before.grants[p]? = some grant ∧ r.gateCalls = [gateCallOf p record dry grant] ∧
      let gate := gateRun cfg (gateCallOf p record dry grant) conn barrier clock
        before.applyNonces w
      r.log = gate.2.calls.log ∧ Settled p before after gate.1 := by
  cases h with
  | gated proposalId confirmRows confirmToken conn barrier clock w record dry grant call stored
      cached granted gate log settled =>
      exact ⟨proposalId, confirmRows, confirmToken, conn, barrier, clock, w, record, dry, grant,
        call, stored, cached, granted, gate, log, settled⟩
  | refused e reply gate log same => exact absurd log hlog
  | proposed sql expectedRows role sessionId new ttlMillis call reply gate log statement
      pinnedRole session fresh classified after_eq => exact absurd log hlog
  | dryRan proposalId rehearsal old dry result call reply gate log stored names after_eq =>
      exact absurd log hlog
  | elevated proposalId reason record dry request result nextRequest call reply ticket gate log
      stored cached unused binding requester pending after_eq => exact absurd log hlog
  | approved requestId approverId key nonce grantTtlMillis proposalId request expiry call reply
      gate log configured ticket stored pending other after_eq => exact absurd log hlog

end Footprint

end PgBrakes.Ports.ServiceRun
