import PgBrakes.Ports.Grant

/-!
# The approval flow

A port of `crates/cli/src/request.rs`, `principal.rs`, `refuse.rs` and `flow.rs`:
tickets with a time to live, the gate against self-approval, and the signing of
the grant.  Every step appends an entry to the audit sink.  The flow drops the
answer of an append; the sink is any function of the world.

The intent tiers of an audit entry are derived from the statement for the log
only, and are left out.

## Main results

* `requestElevation_eq`, `approve_eq` — the two steps, outcome by outcome.
* `requestElevation_cases` — a ticket is opened under a fresh id, or the flow is
  as it was.
* `approve_cases` — a grant is signed for a pending ticket by someone other than
  its requester, and the ticket is spent; or the flow is as it was.
-/

namespace PgBrakes.Ports.Approval

open PgBrakes.Verified.Effect
open PgBrakes.Verified.MachineWord
open PgBrakes.Ports.KeyChecksum
open PgBrakes.Ports.TypedInverse
open PgBrakes.Ports.BlastRecord
open PgBrakes.Ports.Grant

/-! ## The audit sink -/

inductive Decision where
  | allow
  | block
  | reject
deriving DecidableEq, Repr

/-- An entry before it is sealed into the chain. -/
structure NewEntry where
  statementText : String
  decision : Decision
  reasonCode : String
  reason : Option String
  role : String
  sessionId : Option String
  principal : Option String
  dryRunId : Option String
deriving DecidableEq, Repr

/-- The error of a sink, as it is displayed. -/
structure SinkError where
  message : String
deriving DecidableEq, Repr

/-- The audit sink. -/
structure Sink (ω : Type) where
  append : NewEntry → Nat → Eff ω SinkError Unit

/-- An append, with its timestamp and its answer. -/
structure AuditAppend where
  entry : NewEntry
  timestampMs : Nat
  answer : Except SinkError Unit

variable {ω : Type}

/-- Append an entry, stamped with the clock. -/
def appendEntry (sink : Sink ω) (clock : Clock ω) (entry : NewEntry) :
    Eff (Logged ω AuditAppend) SinkError Unit := fun s =>
  let now := clock.nowUnixMillis s.world
  let out := sink.append entry now.1 now.2
  (out.1, ⟨out.2, s.log ++ [⟨entry, now.1, out.1⟩]⟩)

/-! ## Tickets -/

/-- The proposal a ticket asks to elevate. -/
structure RequestProposal where
  proposalId : String
  statementText : String
  normalizedParams : List String
  role : String
  sessionId : String
  dryRunLsn : String
  cap : WriteCap
deriving DecidableEq

/-- The binding a grant for this proposal signs. -/
def RequestProposal.toBinding (p : RequestProposal) (nonce : String) (expiryUnixMillis : Nat) :
    GrantBinding :=
  { statementText := p.statementText
    normalizedParams := p.normalizedParams
    role := p.role
    sessionId := p.sessionId
    proposalId := p.proposalId
    dryRunLsn := p.dryRunLsn
    cap := p.cap
    nonce := nonce
    expiryUnixMillis := expiryUnixMillis }

inductive RequestStatus where
  | pending
  | approved
  | denied
deriving DecidableEq, Repr

structure ApprovalRequest where
  id : String
  proposal : RequestProposal
  requesterId : String
  createdUnixMillis : Nat
  ttlMillis : Nat
  status : RequestStatus
deriving DecidableEq

def ApprovalRequest.expiresAt (r : ApprovalRequest) : Nat :=
  satAdd r.createdUnixMillis r.ttlMillis

def ApprovalRequest.isExpired (r : ApprovalRequest) (now : Nat) : Bool :=
  decide (now ≥ r.expiresAt)

/-- The block contract handed to the agent. -/
structure ApprovalRequired where
  code : String
  requestId : String
  expiresAtUnixMillis : Nat
  remedy : String
deriving DecidableEq, Repr

inductive RequestError where
  | duplicateId (id : String)
  | unknownId (id : String)
  | notPending (id : String)
  | expired (id : String) (expiresAt now : Nat)
deriving DecidableEq, Repr

def RequestError.toString : RequestError → String
  | .duplicateId id => "duplicate request id: `" ++ id ++ "`"
  | .unknownId id => "unknown request id: `" ++ id ++ "`"
  | .notPending id => "request `" ++ id ++ "` is not pending (already resolved)"
  | .expired id expiresAt now => s!"request `{id}` expired at {expiresAt}ms (now={now}ms)"

/-! ## Principals -/

inductive PrincipalKind where
  | requester
  | approver
deriving DecidableEq, Repr

structure Principal where
  id : String
  kind : PrincipalKind
deriving DecidableEq, Repr

def Principal.approver (id : String) : Principal := ⟨id, .approver⟩

def Principal.canApprove (p : Principal) : Bool := p.kind == .approver

inductive AuthorityError where
  | notAnApprover (id : String)
  | selfApproval (id : String)
deriving DecidableEq, Repr

def AuthorityError.toString : AuthorityError → String
  | .notAnApprover id =>
      "not an approver: principal `" ++ id ++ "` may not authorize (only a human approver can)"
  | .selfApproval id =>
      "self-approval refused: approver `" ++ id ++
        "` is the same identity as the requester (the agent can never authorize itself)"

/-- The only path to a signing decision. -/
def authorize (approver : Principal) (requesterId : String) : Except AuthorityError Unit :=
  if !approver.canApprove then .error (.notAnApprover approver.id)
  else if approver.id = requesterId then .error (.selfApproval approver.id)
  else .ok ()

/-! ## The flow -/

/-- The state of the flow: the tickets and its own nonce store. -/
structure ApprovalFlow where
  requests : Std.TreeMap String ApprovalRequest
  nonces : NonceStore

def ApprovalFlow.new : ApprovalFlow := ⟨∅, .new⟩

/-- The flow with the world it appends its audit entries to. -/
structure FlowState (ω : Type) where
  flow : ApprovalFlow
  audit : Logged ω AuditAppend

/-- The seams of the flow: the sink, and the webhook, whose answer gates
nothing. -/
structure FlowSeams (ω : Type) where
  sink : Sink ω
  notify : ApprovalRequest → ω → ω

inductive ElevationError where
  | refused (op : RefusedOp)
  | request (e : RequestError)
deriving DecidableEq, Repr

inductive ApproveError where
  | authority (e : AuthorityError)
  | request (e : RequestError)
deriving DecidableEq, Repr

variable {ε : Type}

/-- Read the clock. -/
def readClock (clock : Clock ω) : Eff (FlowState ω) ε Nat := fun s =>
  let now := clock.nowUnixMillis s.audit.world
  (.ok now.1, { s with audit := { s.audit with world := now.2 } })

/-- Append one entry; the answer of the sink is dropped. -/
def auditStep (seams : FlowSeams ω) (clock : Clock ω) (entry : NewEntry) :
    Eff (FlowState ω) ε Unit := fun s =>
  (.ok (), { s with audit := (appendEntry seams.sink clock entry s.audit).2 })

/-- The entry of a flow step about a proposal. -/
def flowEntry (proposal : RequestProposal) (decision : Decision) (reasonCode reason principal :
    String) : NewEntry :=
  { statementText := proposal.statementText
    decision := decision
    reasonCode := reasonCode
    reason := some reason
    role := proposal.role
    sessionId := some proposal.sessionId
    principal := some principal
    dryRunId := some proposal.proposalId }

/-- `ApprovalStore::request_elevation`. -/
def openTicket (id : String) (proposal : RequestProposal) (requesterId : String)
    (ttlMillis : Nat) (clock : Clock ω) : Eff (FlowState ω) RequestError ApprovalRequest :=
  fun s =>
    if s.flow.requests.contains id then (.error (.duplicateId id), s)
    else
      let now := clock.nowUnixMillis s.audit.world
      let request : ApprovalRequest :=
        { id := id
          proposal := proposal
          requesterId := requesterId
          createdUnixMillis := now.1
          ttlMillis := ttlMillis
          status := .pending }
      (.ok request,
        { flow := { s.flow with requests := s.flow.requests.insert id request }
          audit := { s.audit with world := now.2 } })

def ApprovalRequest.contract (request : ApprovalRequest) : ApprovalRequired :=
  { code := "APPROVAL_REQUIRED"
    requestId := request.id
    expiresAtUnixMillis := request.expiresAt
    remedy := "blocked: a human must approve. run `pgb-cli approve " ++ request.id ++
      "` before the request expires, then retry apply" }

/-- `ApprovalFlow::request_elevation`. -/
def requestElevation (seams : FlowSeams ω) (id : String) (proposal : RequestProposal)
    (requesterId : String) (op : Operation) (ttlMillis : Nat) (clock : Clock ω) :
    Eff (FlowState ω) ElevationError ApprovalRequired :=
  match certify op with
  | .error refused => do
      auditStep seams clock
        (flowEntry proposal .reject "structural_op_refused" refused.toString requesterId)
      Eff.fail (.refused refused)
  | .ok _ => do
      let request ← Eff.mapError .request (openTicket id proposal requesterId ttlMillis clock)
      auditStep seams clock
        (flowEntry proposal .block "approval_required"
          s!"request {id} opened (ttl {ttlMillis}ms)" requesterId)
      Eff.ask fun s =>
        ((), { s with audit := { s.audit with world := seams.notify request s.audit.world } })
      pure request.contract

/-- `ApprovalStore::pending_for_approval`. -/
def pendingForApproval (id : String) (clock : Clock ω) :
    Eff (FlowState ω) RequestError ApprovalRequest := fun s =>
  match s.flow.requests[id]? with
  | none => (.error (.unknownId id), s)
  | some request =>
      if request.status ≠ .pending then (.error (.notPending id), s)
      else
        let now := clock.nowUnixMillis s.audit.world
        let s' := { s with audit := { s.audit with world := now.2 } }
        if request.isExpired now.1 then
          (.error (.expired id request.expiresAt now.1), s')
        else (.ok request, s')

/-- `ApprovalStore::resolve`. -/
def resolve (id : String) (status : RequestStatus) : Eff (FlowState ω) RequestError Unit :=
  fun s =>
    match s.flow.requests[id]? with
    | none => (.error (.unknownId id), s)
    | some request =>
        if request.status ≠ .pending then (.error (.notPending id), s)
        else (.ok (), { s with flow := { s.flow with
          requests := s.flow.requests.insert id { request with status := status } } })

section Approve

variable [Sha256] [Ed25519]

/-- The reason text of a signed grant's entry. -/
def grantSignedReason (approverId id : String) (binding : GrantBinding) : String :=
  "approver `" ++ approverId ++ "` signed grant for request " ++ id ++
    s!"; cap(max_rows={binding.cap.maxRows}, max_wal_bytes={binding.cap.maxWalBytes}); " ++
    "binding sha256:" ++ hexEncode binding.bindingHash

/-- The signing, once the principal has been authorized. -/
def signTicket (seams : FlowSeams ω) (id approverId : String) (request : ApprovalRequest)
    (key : SigningKey) (nonce : String) (grantTtlMillis : Nat) (clock : Clock ω) :
    Eff (FlowState ω) ApproveError GrantToken := do
  let now ← readClock clock
  let binding := request.proposal.toBinding nonce (satAdd now grantTtlMillis)
  Eff.mapError .request (resolve id .approved)
  auditStep seams clock
    (flowEntry request.proposal .allow "grant_signed" (grantSignedReason approverId id binding)
      approverId)
  pure (GrantToken.sign binding key)

/-- `ApprovalFlow::approve`. -/
def approve (seams : FlowSeams ω) (id : String) (approver : Principal) (key : SigningKey)
    (nonce : String) (grantTtlMillis : Nat) (clock : Clock ω) :
    Eff (FlowState ω) ApproveError GrantToken := do
  let request ← Eff.mapError .request (pendingForApproval id clock)
  match authorize approver request.requesterId with
  | .error e => do
      auditStep seams clock
        (flowEntry request.proposal .reject "self_approval_refused" e.toString approver.id)
      Eff.fail (.authority e)
  | .ok () => signTicket seams id approver.id request key nonce grantTtlMillis clock

end Approve

/-! ## What a step does to the flow -/

/-- The state after a reading of the clock. -/
def afterRead (clock : Clock ω) (s : FlowState ω) : FlowState ω :=
  { s with audit := { s.audit with world := (clock.nowUnixMillis s.audit.world).2 } }

/-- The state after an append, whatever the sink answered. -/
def afterAudit (seams : FlowSeams ω) (clock : Clock ω) (entry : NewEntry) (s : FlowState ω) :
    FlowState ω :=
  { s with audit := (appendEntry seams.sink clock entry s.audit).2 }

/-- The state with a ticket stored. -/
def withTicket (request : ApprovalRequest) (s : FlowState ω) : FlowState ω :=
  { s with flow := { s.flow with requests := s.flow.requests.insert request.id request } }

/-- The entry of an opened ticket. -/
def ticketEntry (id : String) (proposal : RequestProposal) (requesterId : String)
    (ttlMillis : Nat) : NewEntry :=
  flowEntry proposal .block "approval_required" s!"request {id} opened (ttl {ttlMillis}ms)"
    requesterId

/-- The elevation, as the order of its three outcomes. -/
theorem requestElevation_eq (seams : FlowSeams ω) (id : String) (proposal : RequestProposal)
    (requesterId : String) (op : Operation) (ttlMillis : Nat) (clock : Clock ω)
    (s : FlowState ω) :
    requestElevation seams id proposal requesterId op ttlMillis clock s =
      match certify op with
      | .error refused =>
          (.error (.refused refused), afterAudit seams clock
            (flowEntry proposal .reject "structural_op_refused" refused.toString requesterId) s)
      | .ok _ =>
          if s.flow.requests.contains id then (.error (.request (.duplicateId id)), s)
          else
            let request : ApprovalRequest :=
              { id := id
                proposal := proposal
                requesterId := requesterId
                createdUnixMillis := (clock.nowUnixMillis s.audit.world).1
                ttlMillis := ttlMillis
                status := .pending }
            let s' := afterAudit seams clock (ticketEntry id proposal requesterId ttlMillis)
              (withTicket request (afterRead clock s))
            (.ok request.contract,
              { s' with audit := { s'.audit with
                world := seams.notify request s'.audit.world } }) := by
  rcases hop : certify op with refused | action
  · simp only [requestElevation, hop]
    rfl
  simp only [requestElevation, hop, Eff.bind_apply, Eff.mapError_apply, openTicket]
  by_cases hused : s.flow.requests.contains id = true
  · rw [if_pos hused, if_pos hused]
    rfl
  · rw [if_neg hused, if_neg hused]
    rfl

/-- The approval, as the order of its five outcomes. -/
theorem approve_eq [Sha256] [Ed25519] (seams : FlowSeams ω) (id : String)
    (approver : Principal) (key : SigningKey) (nonce : String) (grantTtlMillis : Nat)
    (clock : Clock ω) (s : FlowState ω) :
    approve seams id approver key nonce grantTtlMillis clock s =
      match s.flow.requests[id]? with
      | none => (.error (.request (.unknownId id)), s)
      | some request =>
          let now := (clock.nowUnixMillis s.audit.world).1
          if request.status ≠ .pending then (.error (.request (.notPending id)), s)
          else if request.isExpired now then
            (.error (.request (.expired id request.expiresAt now)), afterRead clock s)
          else
            match authorize approver request.requesterId with
            | .error e =>
                (.error (.authority e), afterAudit seams clock (flowEntry request.proposal
                  .reject "self_approval_refused" e.toString approver.id) (afterRead clock s))
            | .ok () =>
                let s₁ := afterRead clock s
                let binding := request.proposal.toBinding nonce
                  (satAdd (clock.nowUnixMillis s₁.audit.world).1 grantTtlMillis)
                (.ok (GrantToken.sign binding key),
                  afterAudit seams clock (flowEntry request.proposal .allow "grant_signed"
                      (grantSignedReason approver.id id binding) approver.id)
                    { afterRead clock s₁ with flow := { s.flow with
                      requests :=
                        s.flow.requests.insert id { request with status := .approved } } }) := by
  rcases hget : s.flow.requests[id]? with _ | request
  · simp only [approve, Eff.bind_apply, Eff.mapError_apply, pendingForApproval, hget]
    rfl
  simp only [approve, Eff.bind_apply, Eff.mapError_apply, pendingForApproval, hget]
  by_cases hstatus : request.status ≠ .pending
  · rw [if_pos hstatus, if_pos hstatus]
    rfl
  rw [if_neg hstatus, if_neg hstatus]
  by_cases hexpired : request.isExpired (clock.nowUnixMillis s.audit.world).1 = true
  · rw [if_pos hexpired, if_pos hexpired]
    rfl
  rw [if_neg hexpired, if_neg hexpired]
  rcases hauth : authorize approver request.requesterId with e | ⟨⟩
  · simp only [Except.mapError, hauth]
    rfl
  · have hresolve : resolve id .approved (afterRead clock (afterRead clock s)) =
        ((.ok () : Except RequestError Unit), { afterRead clock (afterRead clock s) with
          flow := { s.flow with
            requests := s.flow.requests.insert id { request with status := .approved } } }) := by
      simp only [resolve, afterRead, hget, if_neg hstatus]
    have hread : (readClock clock : Eff (FlowState ω) ApproveError Nat) (afterRead clock s) =
        (.ok (clock.nowUnixMillis (afterRead clock s).audit.world).1,
          afterRead clock (afterRead clock s)) := rfl
    have hmapped := congrArg (fun out => (out.1.mapError ApproveError.request, out.2)) hresolve
    have hsign : signTicket seams id approver.id request key nonce grantTtlMillis clock
        (afterRead clock s) = _ := (Eff.bind_of_ok hread).trans (Eff.bind_of_ok hmapped)
    simp only [Except.mapError, hauth]
    exact hsign

/-- A ticket is opened under a fresh id for a certified operation, or the flow is
as it was. -/
theorem requestElevation_cases (seams : FlowSeams ω) (id : String) (proposal : RequestProposal)
    (requesterId : String) (op : Operation) (ttlMillis : Nat) (clock : Clock ω)
    (s : FlowState ω) :
    let out := requestElevation seams id proposal requesterId op ttlMillis clock s
    (∃ e, out.1 = .error e ∧ out.2.flow = s.flow) ∨
      ∃ request : ApprovalRequest, out.1 = .ok request.contract ∧
        s.flow.requests[id]? = none ∧
        request.id = id ∧ request.proposal = proposal ∧ request.requesterId = requesterId ∧
        request.status = .pending ∧
        out.2.flow = { s.flow with requests := s.flow.requests.insert id request } := by
  intro out
  simp only [out, requestElevation_eq]
  rcases certify op with refused | action
  · exact .inl ⟨_, rfl, rfl⟩
  simp only
  by_cases hused : s.flow.requests.contains id = true
  · rw [if_pos hused]
    exact .inl ⟨_, rfl, rfl⟩
  · rw [if_neg hused]
    have hnone : s.flow.requests[id]? = none :=
      Std.TreeMap.getElem?_eq_none fun hmem => hused (Std.TreeMap.mem_iff_contains.mp hmem)
    exact .inr ⟨_, rfl, hnone, rfl, rfl, rfl, rfl, rfl⟩

/-- What is needed to be authorized. -/
theorem authorize_ok {approver : Principal} {requesterId : String}
    (h : authorize approver requesterId = .ok ()) : approver.id ≠ requesterId := by
  unfold authorize at h
  split at h
  · cases h
  split at h
  · cases h
  · next hne => exact hne

/-- A grant is signed for a pending ticket by someone other than its requester,
and the ticket is spent; or the flow is as it was. -/
theorem approve_cases [Sha256] [Ed25519] (seams : FlowSeams ω) (id : String)
    (approver : Principal) (key : SigningKey) (nonce : String) (grantTtlMillis : Nat)
    (clock : Clock ω) (s : FlowState ω) :
    let out := approve seams id approver key nonce grantTtlMillis clock s
    (∃ e, out.1 = .error e ∧ out.2.flow = s.flow) ∨
      ∃ request expiry, s.flow.requests[id]? = some request ∧ request.status = .pending ∧
        approver.id ≠ request.requesterId ∧
        out.1 = .ok (GrantToken.sign (request.proposal.toBinding nonce expiry) key) ∧
        out.2.flow = { s.flow with
          requests := s.flow.requests.insert id { request with status := .approved } } := by
  intro out
  simp only [out, approve_eq]
  rcases hget : s.flow.requests[id]? with _ | request
  · exact .inl ⟨_, rfl, rfl⟩
  simp only
  by_cases hstatus : request.status ≠ .pending
  · rw [if_pos hstatus]
    exact .inl ⟨_, rfl, rfl⟩
  rw [if_neg hstatus]
  by_cases hexpired : request.isExpired (clock.nowUnixMillis s.audit.world).1 = true
  · rw [if_pos hexpired]
    exact .inl ⟨_, rfl, rfl⟩
  rw [if_neg hexpired]
  rcases hauth : authorize approver request.requesterId with e | ⟨⟩
  · exact .inl ⟨_, rfl, rfl⟩
  · exact .inr ⟨request, _, rfl, not_not.mp hstatus, authorize_ok hauth, rfl, rfl⟩

end PgBrakes.Ports.Approval
