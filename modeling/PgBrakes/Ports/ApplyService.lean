import PgBrakes.Ports.GrantedApply
import PgBrakes.Ports.DryRun
import PgBrakes.Ports.Approval

/-!
# The write-safety service

A port of `crates/applyd/src/service.rs` with the error vocabulary of
`protocol.rs`: the daemon's four maps, and the five entry points that move a
write from a proposal to an apply.  Rehearsal, connection, barrier and clock are
arguments of each call; the audit sink and the webhook belong to the daemon.

The two headrooms of a suggested cap are floating-point constants in the source
and enter through the configuration.
-/

namespace PgBrakes.Ports.ApplyService

open PgBrakes.Verified.Effect
open PgBrakes.Ports.KeyChecksum
open PgBrakes.Ports.TypedInverse
open PgBrakes.Ports.BlastRecord
open PgBrakes.Ports.GuardedApply
open PgBrakes.Ports.SqlAst
open PgBrakes.Ports.Predicate
open PgBrakes.Ports.Grant
open PgBrakes.Ports.GrantedApply
open PgBrakes.Ports.DryRun
open PgBrakes.Ports.Approval

/-! ## The error vocabulary -/

inductive ErrorCode where
  | proposalNotFound
  | volatile
  | pkLess
  | notRehearsable
  | approvalRequired
  | grantRejected
  | confirmMismatch
  | blastDrift
  | auditFailed
deriving DecidableEq, Repr

namespace ErrorCode

def asStr : ErrorCode → String
  | .proposalNotFound => "PROPOSAL_NOT_FOUND"
  | .volatile => "VOLATILE"
  | .pkLess => "PK_LESS"
  | .notRehearsable => "NOT_REHEARSABLE"
  | .approvalRequired => "APPROVAL_REQUIRED"
  | .grantRejected => "GRANT_REJECTED"
  | .confirmMismatch => "CONFIRM_MISMATCH"
  | .blastDrift => "BLAST_DRIFT"
  | .auditFailed => "AUDIT_FAILED"

def remedy : ErrorCode → String × Bool
  | .proposalNotFound => ("call propose again to mint a fresh proposal, then dry_run", false)
  | .volatile => ("rewrite the predicate without volatile/non-deterministic functions", false)
  | .pkLess =>
      ("the target has no primary key; pg_brakes cannot key the affected set " ++
        "(no ctid fallback)", false)
  | .notRehearsable => ("only single-statement UPDATE/DELETE are certified writes", false)
  | .approvalRequired =>
      ("open an approval ticket via request_elevation, await the operator approve, " ++
        "then retry apply", true)
  | .grantRejected =>
      ("the grant did not verify (tamper/replay/expiry); request a fresh elevation + approve",
        false)
  | .confirmMismatch =>
      ("re-run dry_run and confirm the exact reported affected row count", true)
  | .blastDrift =>
      ("the data drifted since dry_run; re-run dry_run and re-approve before applying", false)
  | .auditFailed =>
      ("the audit chain append failed; the deterministic write may have committed but " ++
        "is not certified auditable — inspect the _meta chain and the daemon logs", false)

end ErrorCode

structure BlockData where
  code : String
  remedy : String
  retryable : Bool
deriving DecidableEq, Repr

structure RpcError where
  code : Int
  message : String
  data : BlockData
deriving DecidableEq, Repr

def appErrorCode : Int := -32000

def ErrorCode.error (c : ErrorCode) (message : String) : RpcError :=
  { code := appErrorCode
    message := message
    data := { code := c.asStr, remedy := c.remedy.1, retryable := c.remedy.2 } }

def proposalNotFound : RpcError :=
  ErrorCode.proposalNotFound.error "no live proposal with that id (unknown or TTL-expired)"

def dryRunErrorToRpc : DryRunError → RpcError
  | .volatile reason => ErrorCode.volatile.error reason.toString
  | .pkLess rel => ErrorCode.pkLess.error ("target relation `" ++ rel ++ "` has no primary key")
  | .notRehearsable message => ErrorCode.notRehearsable.error message
  | .notSelfDetermined reason =>
      ErrorCode.notRehearsable.error
        ("predicate is not self-determined (steerable); restrict the WHERE to the " ++
          "primary key + literals: " ++ reason.toString)
  | .expired id => ErrorCode.proposalNotFound.error ("proposal `" ++ id ++ "` expired")
  | .backend message => ErrorCode.notRehearsable.error ("rehearsal failed: " ++ message)

def grantedApplyErrorToRpc : GrantedApplyError → RpcError
  | .grant .bindingMismatch =>
      ErrorCode.grantRejected.error
        "grant binding mismatch (statement/param/session/proposal/cap swap)"
  | .grant e => ErrorCode.grantRejected.error e.toString
  | .apply e => ErrorCode.blastDrift.error e.toString
  | .inconsistent message =>
      ErrorCode.grantRejected.error ("inconsistent grant binding: " ++ message)
  | .notSelfDetermined reason =>
      ErrorCode.grantRejected.error
        ("predicate is not self-determined (steerable): " ++ reason.toString)

def elevationErrorToRpc : ElevationError → RpcError
  | .refused op =>
      ErrorCode.notRehearsable.error ("structural/irreversible op refused: " ++ op.toString)
  | .request e => ErrorCode.proposalNotFound.error e.toString

def approveErrorToRpc : ApproveError → RpcError
  | .authority e => ErrorCode.grantRejected.error e.toString
  | .request e => ErrorCode.proposalNotFound.error e.toString

/-! ## The state of the daemon -/

/-- The cached dry-run of a proposal. -/
structure DryRunState where
  blastRadius : BlastRadius
  totalRows : Nat
  confirmToken : String

/-- A stored proposal: role and session are pinned when it is proposed. -/
structure ProposalRecord where
  proposal : Proposal
  role : String
  sessionId : String
  kind : WriteKind
  relation : String
  dryRun : Option DryRunState

structure Service where
  flow : ApprovalFlow
  applyNonces : NonceStore
  proposals : Std.TreeMap String ProposalRecord
  grants : Std.TreeMap String GrantToken
  requestToProposal : Std.TreeMap String String
  nextRequest : Nat

def Service.new : Service := ⟨.new, .new, ∅, ∅, ∅, 0⟩

/-- What a daemon is started with. -/
structure DaemonConfig (ω : Type) where
  verifyingKey : VerifyingKey
  policy : PolicyConfig
  seams : FlowSeams ω
  rowHeadroom : Headroom
  walHeadroom : Headroom

/-- The arguments an apply hands to the grant gate. -/
structure GateCall where
  grant : GrantToken
  live : LiveRequest
  kind : WriteKind
  relation : String
  blastRadius : BlastRadius

/-- What an entry point runs over: the service, the process counter of proposal
ids, the audit appends, the calls of the grant gate, and the world with the
connection's calls. -/
structure ServiceState (ω : Type) where
  service : Service
  seq : Nat
  audits : List AuditAppend
  gateCalls : List GateCall
  calls : Logged ω ApplyCall

variable {ω α ε : Type}

/-- Run a program of the world. -/
def onWorld (m : Eff ω ε α) : Eff (ServiceState ω) ε α := fun s =>
  ((m s.calls.world).1, { s with calls := { s.calls with world := (m s.calls.world).2 } })

/-- The part of the state the approval flow runs over. -/
def ServiceState.flowState (s : ServiceState ω) : FlowState ω :=
  ⟨s.service.flow, ⟨s.calls.world, s.audits⟩⟩

/-- The state after a program of the approval flow. -/
def ServiceState.withFlow (s : ServiceState ω) (f : FlowState ω) : ServiceState ω :=
  { s with
    service := { s.service with flow := f.flow }
    audits := f.audit.log
    calls := { s.calls with world := f.audit.world } }

/-- Run a program of the approval flow. -/
def onFlow (m : Eff (FlowState ω) ε α) : Eff (ServiceState ω) ε α := fun s =>
  ((m s.flowState).1, s.withFlow (m s.flowState).2)

theorem mapError_onFlow_of {ε' : Type} {g : ε → ε'} {m : Eff (FlowState ω) ε α}
    {s : ServiceState ω} {answer : Except ε α} {f : FlowState ω}
    (h : m s.flowState = (answer, f)) :
    Eff.mapError g (onFlow m) s = (answer.mapError g, s.withFlow f) := by
  simp only [Eff.mapError_apply, onFlow, h]

/-- Run a program of the grant gate on the apply-time nonces. -/
def onGate (m : Eff (GateState ω) ε α) : Eff (ServiceState ω) ε α := fun s =>
  let out := m ⟨s.service.applyNonces, s.calls⟩
  (out.1, { s with
    service := { s.service with applyNonces := out.2.nonces }
    calls := out.2.calls })

/-- Change the maps of the service. -/
def update (f : Service → Service) : Eff (ServiceState ω) ε Unit := fun s =>
  (.ok (), { s with service := f s.service })

/-- Read the service. -/
def current : Eff (ServiceState ω) ε Service := fun s => (.ok s.service, s)

/-! ## Audit -/

/-- `audit_decision`: the answer of the sink is surfaced. -/
def auditDecision (cfg : DaemonConfig ω) (clock : Clock ω) (entry : NewEntry) :
    Eff (ServiceState ω) SinkError Unit := fun s =>
  let out := appendEntry cfg.seams.sink clock entry ⟨s.calls.world, s.audits⟩
  (out.1, { s with
    audits := out.2.log
    calls := { s.calls with world := out.2.world } })

/-- The entry of a refusal before the apply. -/
def refusalEntry (statementText role sessionId : String) (refusal : RpcError) : NewEntry :=
  { statementText := statementText
    decision := .block
    reasonCode := refusal.data.code
    reason := some refusal.message
    role := role
    sessionId := some sessionId
    principal := none
    dryRunId := none }

/-- The entry of an apply decision. -/
def applyEntry (live : LiveRequest) (decision : Decision) (reasonCode reason : String) :
    NewEntry :=
  { statementText := live.statementText
    decision := decision
    reasonCode := reasonCode
    reason := some reason
    role := live.role
    sessionId := some live.sessionId
    principal := none
    dryRunId := some live.proposalId }

/-- `audit_refusal_then`: record the refusal, then return it, or say that it
could not be recorded. -/
def auditRefusalThen (cfg : DaemonConfig ω) (statementText role sessionId : String)
    (refusal : RpcError) (clock : Clock ω) : Eff (ServiceState ω) RpcError α := do
  let answer ← Eff.attempt
    (auditDecision cfg clock (refusalEntry statementText role sessionId refusal))
  match answer with
  | .ok () => Eff.fail refusal
  | .error e =>
      Eff.fail (ErrorCode.auditFailed.error ("a write proposal was refused (" ++
        refusal.data.code ++ ") but the refusal could not be appended to the _meta chain: " ++
        e.message))

/-! ## The binding of a ticket -/

/-- Thirty minutes. -/
def defaultRequestTtlMillis : Nat := 30 * 60 * 1000

def defaultWalFloorBytes : Nat := 64 * 1024

/-- `binding_proposal`: the cap is sized from the cached dry-run. -/
def bindingProposal (cfg : DaemonConfig ω) (record : ProposalRecord) (dry : DryRunState) :
    RequestProposal :=
  { proposalId := record.proposal.id
    statementText := record.proposal.statement
    normalizedParams := []
    role := record.role
    sessionId := record.sessionId
    dryRunLsn := dry.blastRadius.cloneLsn
    cap :=
      { maxRows := (dry.blastRadius.suggestedCap cfg.rowHeadroom).maxRows
        maxWalBytes :=
          max (dry.blastRadius.suggestedCap cfg.walHeadroom).maxWalBytes
            defaultWalFloorBytes } }

def operationFor (record : ProposalRecord) (dry : DryRunState) : Operation :=
  match record.kind with
  | .update => .update dry.blastRadius.reversible true
  | .delete => .delete dry.blastRadius.reversible true

/-- `format!("{n:08x}")`. -/
def lowerHex8 (n : Nat) : String :=
  let digits := Nat.toDigits 16 n
  String.ofList (List.replicate (8 - digits.length) '0' ++ digits)

/-- The id of the next ticket; the counter moves on also when no ticket is
opened. -/
def nextRequestId : Eff (ServiceState ω) ε String := fun s =>
  let next := (s.service.nextRequest + 1) % 2 ^ 64
  (.ok ("req-" ++ lowerHex8 next),
    { s with service := { s.service with nextRequest := next } })

/-! ## Results -/

structure ProposeResult where
  proposalId : String
  ttlMillis : Nat
deriving DecidableEq, Repr

structure DryRunResult where
  totalRows : Nat
  pkSetChecksum : String
  reversible : Bool
  confirmToken : String
deriving DecidableEq, Repr

structure RequestElevationResult where
  requestId : String
  ttlMillis : Nat
  capMaxRows : Nat
  capMaxWalBytes : Nat
  sideEffectingTriggers : List String
deriving DecidableEq, Repr

structure ApproveResult where
  requestId : String
  nonce : String
deriving DecidableEq, Repr

structure ApplyResult where
  applied : Bool
  rowsWritten : Nat
  reversible : Bool
deriving DecidableEq, Repr

/-! ## The entry points -/

/-- A live proposal: known, and not expired on the clock of the call. -/
def liveRecord (proposalId : String) (clock : Clock ω) :
    Eff (ServiceState ω) RpcError ProposalRecord := do
  let service ← current
  match service.proposals[proposalId]? with
  | none => Eff.fail proposalNotFound
  | some record => do
      let expired ← onWorld (Eff.ask (record.proposal.isExpired clock))
      if expired then Eff.fail proposalNotFound else pure record

/-- The proposal of this call, with the next value of the process counter. -/
def mint (sql : String) (expectedRows : Option Nat) (clock : Clock ω) :
    Eff (ServiceState ω) ε Proposal := fun s =>
  let out := mintProposal sql expectedRows clock s.seq s.calls.world
  (.ok out.1, { s with
    seq := (s.seq + 1) % 2 ^ 64
    calls := { s.calls with world := out.2 } })

section EntryPoints

variable [Sha256] [Ed25519] [Sql]

/-- `Service::propose`. -/
def propose (cfg : DaemonConfig ω) (sql : String) (expectedRows : Option Nat)
    (role sessionId : String) (clock : Clock ω) :
    Eff (ServiceState ω) RpcError ProposeResult :=
  match classify sql with
  | .error e => auditRefusalThen cfg sql role sessionId (dryRunErrorToRpc e) clock
  | .ok (kind, relation) => do
      let proposal ← mint sql expectedRows clock
      let record : ProposalRecord :=
        { proposal := proposal
          role := role
          sessionId := sessionId
          kind := kind
          relation := relation
          dryRun := none }
      update fun s => { s with proposals := s.proposals.insert proposal.id record }
      pure { proposalId := proposal.id, ttlMillis := proposal.ttlMillis }

/-- Cache a record and answer with its preview. -/
def cacheDryRun (cfg : DaemonConfig ω) (proposalId : String) (record : ProposalRecord)
    (radius : BlastRadius) (clock : Clock ω) : Eff (ServiceState ω) RpcError DryRunResult :=
  match radius.affected.pkSetChecksum[record.relation]? with
  | none =>
      auditRefusalThen cfg record.proposal.statement record.role record.sessionId
        (ErrorCode.pkLess.error ("no pk_set_checksum for target `" ++ record.relation ++ "`"))
        clock
  | some checksum => do
      let totalRows := radius.affected.totalRows
      let confirmToken := "ct-" ++ proposalId ++ "-" ++ toString totalRows
      let cached := { record with dryRun := some ⟨radius, totalRows, confirmToken⟩ }
      update fun s => { s with proposals := s.proposals.insert proposalId cached }
      pure
        { totalRows := totalRows
          pkSetChecksum := checksum
          reversible := radius.reversible
          confirmToken := confirmToken }

/-- `Service::dry_run`. -/
def dryRun (cfg : DaemonConfig ω) (proposalId : String) (rehearsal : Rehearsal ω)
    (clock : Clock ω) : Eff (ServiceState ω) RpcError DryRunResult := do
  let record ← liveRecord proposalId clock
  let answer ← Eff.attempt (onWorld (DryRun.dryRun record.proposal rehearsal clock))
  match answer with
  | .error e =>
      auditRefusalThen cfg record.proposal.statement record.role record.sessionId
        (dryRunErrorToRpc e) clock
  | .ok radius => cacheDryRun cfg proposalId record radius clock

/-- The side-effecting triggers a ticket discloses. -/
def sideEffectingTriggers (radius : BlastRadius) : List String :=
  (radius.triggersFired.filter fun t => decide (t.rows > 0)).map (·.name)

/-- Open the ticket of a dry-run proposal. -/
def elevate (cfg : DaemonConfig ω) (proposalId : String) (record : ProposalRecord)
    (dry : DryRunState) (clock : Clock ω) :
    Eff (ServiceState ω) RpcError RequestElevationResult := do
  let binding := bindingProposal cfg record dry
  let requestId ← nextRequestId
  let contract ← Eff.mapError elevationErrorToRpc
    (onFlow (Approval.requestElevation cfg.seams requestId binding record.sessionId
      (operationFor record dry) defaultRequestTtlMillis clock))
  update fun s => { s with
    requestToProposal := s.requestToProposal.insert requestId proposalId }
  let now ← onWorld (Eff.ask clock.nowUnixMillis)
  pure
    { requestId := requestId
      ttlMillis := contract.expiresAtUnixMillis - now
      capMaxRows := binding.cap.maxRows
      capMaxWalBytes := binding.cap.maxWalBytes
      sideEffectingTriggers := sideEffectingTriggers dry.blastRadius }

/-- `Service::request_elevation`. -/
def requestElevation (cfg : DaemonConfig ω) (proposalId : String) (clock : Clock ω) :
    Eff (ServiceState ω) RpcError RequestElevationResult := do
  let record ← liveRecord proposalId clock
  match record.dryRun with
  | none =>
      Eff.fail (ErrorCode.confirmMismatch.error "dry_run the proposal before elevating")
  | some dry => elevate cfg proposalId record dry clock

/-- `Service::approve`. -/
def approve (cfg : DaemonConfig ω) (requestId approverId : String) (key : SigningKey)
    (nonce : String) (grantTtlMillis : Nat) (clock : Clock ω) :
    Eff (ServiceState ω) RpcError ApproveResult := do
  if Ed25519.verifyingKey key ≠ cfg.verifyingKey then
    Eff.fail (ErrorCode.grantRejected.error
      "approver signing key does not match the configured approver pubkey")
  else do
    let service ← current
    match service.requestToProposal[requestId]? with
    | none => Eff.fail (ErrorCode.proposalNotFound.error "no such approval request")
    | some proposalId => do
        let grant ← Eff.mapError approveErrorToRpc
          (onFlow (Approval.approve cfg.seams requestId (.approver approverId) key nonce
            grantTtlMillis clock))
        update fun s => { s with grants := s.grants.insert proposalId grant }
        pure { requestId := requestId, nonce := nonce }

/-- The confirmation the caller has to give: the row count, and the token where
one is presented. -/
def confirmCheck (confirmRows : Nat) (confirmToken : Option String) (dry : DryRunState) :
    Except RpcError Unit :=
  if confirmRows ≠ dry.totalRows then
    .error (ErrorCode.confirmMismatch.error
      s!"confirm_rows {confirmRows} != dry-run affected rows {dry.totalRows}")
  else
    match confirmToken with
    | none => .ok ()
    | some token =>
        if token ≠ dry.confirmToken then
          .error (ErrorCode.confirmMismatch.error
            "confirm_token does not match the dry-run token")
        else .ok ()

/-- The request facts of an apply, all of them from the stored record. -/
def liveRequestOf (proposalId : String) (record : ProposalRecord) : LiveRequest :=
  { statementText := record.proposal.statement
    normalizedParams := []
    role := record.role
    sessionId := record.sessionId
    proposalId := proposalId }

/-- What is handed to the grant gate. -/
def gateCallOf (proposalId : String) (record : ProposalRecord) (dry : DryRunState)
    (grant : GrantToken) : GateCall :=
  { grant := grant
    live := liveRequestOf proposalId record
    kind := record.kind
    relation := record.relation
    blastRadius := dry.blastRadius }

/-- The call of the grant gate these arguments make. -/
def GateCall.grantCall (g : GateCall) (cfg : DaemonConfig ω) (conn : ApplyConn ω)
    (barrier : ApplyBarrier ω) (clock : Clock ω) : GrantCall ω :=
  { policy := cfg.policy
    grant := g.grant
    live := g.live
    verifyingKey := cfg.verifyingKey
    kind := g.kind
    relation := g.relation
    blastRadius := g.blastRadius
    conn := conn
    barrier := barrier
    clock := clock }

/-- Call the grant gate; the answer is a value. -/
def callGate (cfg : DaemonConfig ω) (g : GateCall) (conn : ApplyConn ω)
    (barrier : ApplyBarrier ω) (clock : Clock ω) :
    Eff (ServiceState ω) RpcError
      (Except GrantedApplyError (AppliedWrite × BridgedApplyConfig)) := fun s =>
  Eff.attempt (onGate (g.grantCall cfg conn barrier clock).run)
    { s with gateCalls := s.gateCalls ++ [g] }

/-- The tail of an apply whose gate succeeded: proposal and grant are consumed,
then the commit is audited. -/
def concludeApplied (cfg : DaemonConfig ω) (g : GateCall) (applied : AppliedWrite)
    (clock : Clock ω) : Eff (ServiceState ω) RpcError (ApplyResult × InversePlan) := do
  update fun s => { s with
    proposals := s.proposals.erase g.live.proposalId
    grants := s.grants.erase g.live.proposalId }
  Eff.mapError
    (fun e => ErrorCode.auditFailed.error ("the bounded write committed but its audit record " ++
      "could not be appended to the _meta chain: " ++ e.message))
    (auditDecision cfg clock (applyEntry g.live .allow "apply_committed"
      s!"{applied.rowsWritten} rows committed (reversible)"))
  pure
    ( { applied := true
        rowsWritten := applied.rowsWritten
        reversible := applied.inverse.kind == .preimageUpsert || !applied.inverse.rows.isEmpty }
    , applied.inverse )

/-- The tail of an apply whose gate failed: the block is audited. -/
def concludeBlocked (cfg : DaemonConfig ω) (g : GateCall) (e : GrantedApplyError)
    (clock : Clock ω) : Eff (ServiceState ω) RpcError (ApplyResult × InversePlan) := do
  let rpc := grantedApplyErrorToRpc e
  Eff.mapError
    (fun ae => ErrorCode.auditFailed.error ("an apply was blocked (" ++ rpc.data.code ++
      ") but the block could not be audited to the _meta chain: " ++ ae.message))
    (auditDecision cfg clock (applyEntry g.live .block rpc.data.code rpc.message))
  Eff.fail rpc

/-- The part of an apply behind the confirmation and the look-up of the grant. -/
def applyGranted (cfg : DaemonConfig ω) (g : GateCall) (conn : ApplyConn ω)
    (barrier : ApplyBarrier ω) (clock : Clock ω) :
    Eff (ServiceState ω) RpcError (ApplyResult × InversePlan) := do
  let answer ← callGate cfg g conn barrier clock
  match answer with
  | .ok applied => concludeApplied cfg g applied.1 clock
  | .error e => concludeBlocked cfg g e clock

/-- The part of an apply behind the look-up of the proposal. -/
def applyRecord (cfg : DaemonConfig ω) (proposalId : String) (record : ProposalRecord)
    (confirmRows : Nat) (confirmToken : Option String) (conn : ApplyConn ω)
    (barrier : ApplyBarrier ω) (clock : Clock ω) :
    Eff (ServiceState ω) RpcError (ApplyResult × InversePlan) :=
  match record.dryRun with
  | none =>
      Eff.fail (ErrorCode.confirmMismatch.error
        "apply requires a prior dry_run to establish the guard")
  | some dry => do
      Eff.lift (confirmCheck confirmRows confirmToken dry)
      let service ← current
      match service.grants[proposalId]? with
      | none =>
          Eff.fail (ErrorCode.approvalRequired.error "no approved grant for this proposal")
      | some grant =>
          applyGranted cfg (gateCallOf proposalId record dry grant) conn barrier clock

/-- `Service::apply_returning_inverse`. -/
def applyReturningInverse (cfg : DaemonConfig ω) (proposalId : String) (confirmRows : Nat)
    (confirmToken : Option String) (conn : ApplyConn ω) (barrier : ApplyBarrier ω)
    (clock : Clock ω) : Eff (ServiceState ω) RpcError (ApplyResult × InversePlan) := do
  let record ← liveRecord proposalId clock
  applyRecord cfg proposalId record confirmRows confirmToken conn barrier clock

end EntryPoints

end PgBrakes.Ports.ApplyService
