import PgBrakes.Ports.PgConn
import PgBrakes.Ports.RefusalEvidence

/-!
# One call of the socket client

`ApplydClient::call` and `round_trip` of `crates/mcp/src/applyd.rs` against `serve_connection`
and `dispatch_line` of `crates/applyd/src/main.rs`.  A request is one line.  The client tries
twice, the second time on a fresh socket after the first one was lost, and cannot tell
whether the daemon has run the line that it lost the answer of.  The daemon may run a line at
any time after it was delivered, also when the client has long returned, and other clients
come in between.

The transport texts of `serde_json` and `tokio` enter as the details of a loss.

## Main results

* `dispatch_committed` — what a committed apply leaves behind, and how it can be answered with
  an error.
* `next_inv` — what is known in the middle of a call.
* `one_call_runs_at_most_twice` — the copies the daemon runs, what they commit, and what a
  block means.
* `committed_apply_blocked` — a write that is committed and reported as not found.
-/

namespace PgBrakes.Ports.McpClient

open PgBrakes.Verified.Effect
open PgBrakes.Verified.History
open PgBrakes.Ports.KeyChecksum
open PgBrakes.Ports.TypedInverse
open PgBrakes.Ports.BlastRecord
open PgBrakes.Ports.GuardedApply
open PgBrakes.Ports.GuardedApplyAtomicity
open PgBrakes.Ports.SqlAst
open PgBrakes.Ports.Grant
open PgBrakes.Ports.GrantedApply
open PgBrakes.Ports.DryRun
open PgBrakes.Ports.Approval
open PgBrakes.Ports.ApplyService
open PgBrakes.Ports.ServiceRun
open PgBrakes.Ports.ServiceLifecycle
open PgBrakes.Ports.RefusalEvidence (serviceStep_of_run filedUnder_cases applyRecord_cases
  zeroClock)

variable {ω : Type}

/-! ## The answer, as the client reads it -/

/-- The payload of a success.  The inverse of an apply stays in the daemon. -/
inductive Payload where
  | proposed (r : ProposeResult)
  | dryRan (r : DryRunResult)
  | elevated (r : RequestElevationResult)
  | approved (r : ApproveResult)
  | applied (r : ApplyResult)
deriving DecidableEq

def payloadOf : Reply → Payload
  | .proposed r => .proposed r
  | .dryRan r => .dryRan r
  | .elevated r => .elevated r
  | .approved r => .approved r
  | .applied r _ => .applied r

structure RpcErrorWire where
  message : String
  data : Option BlockData
deriving DecidableEq

structure RpcResponse where
  result : Option Payload
  error : Option RpcErrorWire
deriving DecidableEq

/-- `to_response`: the line the daemon writes, read back. -/
def toResponse : Except RpcError Reply → RpcResponse
  | .ok r => ⟨some (payloadOf r), none⟩
  | .error e => ⟨none, some ⟨e.message, some e.data⟩⟩

structure BlockContract where
  code : String
  reason : String
  remedy : String
  retryable : Bool
deriving DecidableEq

inductive ApplydOutcome where
  | ok (payload : Payload)
  | blocked (b : BlockContract)
deriving DecidableEq

def blockOf (err : RpcErrorWire) : BlockContract :=
  match err.data with
  | some d =>
      { code := d.code
        reason := err.message
        remedy := if d.remedy = "" then "see the applyd error for the next step" else d.remedy
        retryable := d.retryable }
  | none =>
      { code := "APPLYD_ERROR"
        reason :=
          if err.message = "" then "applyd returned an error with no recoverable data"
          else err.message
        remedy := "retry; if it persists, inspect the applyd daemon logs"
        retryable := false }

def mapResponse (resp : RpcResponse) : ApplydOutcome :=
  match resp.error with
  | some err => .blocked (blockOf err)
  | none =>
      match resp.result with
      | some v => .ok v
      | none => .blocked
          { code := "APPLYD_ERROR"
            reason := "applyd returned a response with neither result nor error"
            remedy := "retry; if it persists, inspect the applyd daemon logs"
            retryable := false }

/-- The socket is down or was lost. -/
def applydUnavailable (detail : String) : BlockContract where
  code := "APPLYD_UNAVAILABLE"
  reason := "the applyd write daemon is unavailable: " ++ detail
  remedy := "the applyd daemon may be down or the socket was reset; retry — the write " ++
    "will re-dial the applyd socket"
  retryable := true

def applydTimeout (method : String) (timeoutMs : Nat) : BlockContract where
  code := "APPLYD_UNAVAILABLE"
  reason := "the applyd `" ++ method ++ "` call timed out after " ++ toString timeoutMs ++ "ms"
  remedy := "the applyd daemon did not respond in time; retry — the write will re-dial"
  retryable := true

/-! ## The daemon behind the socket -/

structure ApplydConfig where
  socketPath : String
  role : String
  sessionId : String
  timeoutMs : Nat

/-- The methods of the client. -/
inductive ClientCall where
  | propose (sql : String) (expectedRows : Option Nat)
  | dryRun (proposalId : String)
  | requestElevation (proposalId reason : String)
  | apply (proposalId : String) (confirmRows : Nat) (confirmToken : Option String)
deriving DecidableEq

def ClientCall.method : ClientCall → String
  | .propose _ _ => "propose"
  | .dryRun _ => "dry_run"
  | .requestElevation _ _ => "request_elevation"
  | .apply _ _ _ => "apply"

/-- The resident connections.  An apply gets the connection made for the stored statement,
which reports keys of one arity. -/
structure Backends (ω : Type) where
  rehearsal : Rehearsal ω
  connFor : String → ApplyConn ω
  clock : Clock ω
  keys : ∀ statement, KeysOfOneArity (connFor statement)

/-- The keys that `PgApplyConn` reports are single integers: `Backends.keys` is true of it. -/
theorem pgApplyConn_keysOfOneArity [Sql] (server : PgTable.Server)
    (forwardSql whereSql : String) :
    KeysOfOneArity (PgConn.pgApplyConn server forwardSql whereSql) := by
  intro kind relation cascades w forward w' h
  replace h : PgConn.applyForward server forwardSql whereSql kind relation w =
    (.ok forward, w') := h
  obtain ⟨imageCols, w₁, -, h⟩ := Eff.bind_ok_iff.mp h
  obtain ⟨rows, w₂, -, h⟩ := Eff.bind_ok_iff.mp h
  obtain ⟨preimage, w₃, -, h⟩ := Eff.bind_ok_iff.mp h
  obtain ⟨returned, w₄, -, h⟩ := Eff.bind_ok_iff.mp h
  obtain ⟨written, w₅, hwritten, h⟩ := Eff.bind_ok_iff.mp h
  obtain ⟨keys, -, -, hkeys⟩ := PgConn.captureWritten_ok (Prod.mk.inj hwritten).1
  cases h
  rw [PgConn.declareColumns_written, hkeys, List.map_map]
  intro t ht t' ht'
  obtain ⟨k, -, rfl⟩ := List.mem_map.mp ht
  obtain ⟨k', -, rfl⟩ := List.mem_map.mp ht'
  rfl

/-- What the daemon did for a line: its answer, and the calls of the connection. -/
structure Execution where
  reply : Except RpcError Reply
  log : List ApplyCall

/-- `apply_sql_for`: the statement of a stored proposal, unless it has expired. -/
def applySqlFor (p : String) (clock : Clock ω) (s : DaemonState ω) :
    Option String × DaemonState ω :=
  match s.service.proposals[p]? with
  | some record =>
      ( if (record.proposal.isExpired clock s.world).1 then none
        else some record.proposal.statement
      , { s with world := (record.proposal.isExpired clock s.world).2 } )
  | none => (none, s)

section Dispatch

variable [Sha256] [Ed25519] [Sql]

/-- One call of the service. -/
def serve (cfg : DaemonConfig ω) (i : ServiceInput ω) (s : DaemonState ω) :
    Execution × DaemonState ω :=
  let out := serviceStep cfg i s
  (⟨out.1.reply, out.1.log⟩, out.2)

/-- `dispatch_line`, on a line that the client wrote. -/
def dispatch (cfg : DaemonConfig ω) (backends : Backends ω) (client : ApplydConfig)
    (call : ClientCall) (s : DaemonState ω) : Execution × DaemonState ω :=
  match call with
  | .propose sql expectedRows =>
      serve cfg ⟨.propose sql expectedRows client.role client.sessionId, backends.clock⟩ s
  | .dryRun p => serve cfg ⟨.dryRun p backends.rehearsal, backends.clock⟩ s
  | .requestElevation p reason => serve cfg ⟨.requestElevation p reason, backends.clock⟩ s
  | .apply p confirmRows confirmToken =>
      match applySqlFor p backends.clock s with
      | (none, s') => (⟨.error proposalNotFound, []⟩, s')
      | (some statement, s') =>
          serve cfg ⟨.apply p confirmRows confirmToken (backends.connFor statement) .noop,
            backends.clock⟩ s'

/-! ## What an apply leaves behind -/

omit [Sha256] [Ed25519] [Sql] in
/-- A write that went through is answered with an error only when it could not be
recorded. -/
theorem concludeApplied_error {cfg : DaemonConfig ω} {g : GateCall} {applied : AppliedWrite}
    {clock : Clock ω} {s s' : ServiceState ω} {e : RpcError}
    (h : concludeApplied cfg g applied clock s = (.error e, s')) :
    e.data.code = "AUDIT_FAILED" := by
  let erased : ServiceState ω := { s with service := { s.service with
    proposals := s.service.proposals.erase g.live.proposalId
    grants := s.service.grants.erase g.live.proposalId } }
  rw [concludeApplied, Eff.bind_of_ok (show update _ s = (.ok (), erased) from rfl)] at h
  rcases haudit : auditDecision cfg clock (applyEntry g.live .allow "apply_committed"
    s!"{applied.rowsWritten} rows committed (reversible)") erased with ⟨e' | ⟨⟩, s₁⟩
  · simp only [Eff.bind_apply, Eff.mapError_apply, haudit] at h
    cases h
    rfl
  · simp only [Eff.bind_apply, Eff.mapError_apply, haudit] at h
    cases h

/-- Over keys of one arity the gate commits nothing that it answers with an error. -/
theorem gateRun_of_commits {cfg : DaemonConfig ω} {conn : ApplyConn ω} {barrier : ApplyBarrier ω}
    {clock : Clock ω} {g : GateCall} {nonces : NonceStore} {w : ω}
    (hkeys : KeysOfOneArity conn)
    (hcommit : 0 < commits (gateRun cfg g conn barrier clock nonces w).2.calls.log) :
    ∃ applied, (gateRun cfg g conn barrier clock nonces w).1 = .ok applied := by
  obtain ⟨kind, relation, cascades, w₁, forward, w₂, hforward, -, hok⟩ :=
    gate_forward (g.grantCall cfg conn barrier clock) nonces w hcommit
  exact hok (hkeys kind relation cascades w₁ forward w₂ hforward)

/-- An apply that commits does so once, and consumes its proposal. -/
theorem consumed_of_commits {cfg : DaemonConfig ω} {before after : Service} {r : ServiceRecord ω}
    (h : Outcome cfg before r after) {p : String} {confirmRows : Nat}
    {confirmToken : Option String} {conn : ApplyConn ω} {barrier : ApplyBarrier ω}
    (hcall : r.call = .apply p confirmRows confirmToken conn barrier)
    (hkeys : KeysOfOneArity conn) (hcommit : 0 < commits r.log) :
    commits r.log ≤ 1 ∧ after.proposals[p]? = none := by
  cases h with
  | gated proposalId confirmRows confirmToken conn barrier clock w record dry grant call stored
      cached granted gate log settled =>
      cases hcall.symm.trans call
      rw [log] at hcommit ⊢
      refine ⟨(gate_commits ((gateCallOf p record dry grant).grantCall cfg conn barrier clock)
        before.applyNonces w).1, ?_⟩
      obtain ⟨a, ha⟩ := gateRun_of_commits hkeys hcommit
      rw [(settled.applied a ha).1]
      exact Std.TreeMap.getElem?_erase_self
  | _ => exact absurd (by assumption) (ne_nil_of_commits hcommit)

/-- The connection that is handed to an apply reports keys of one arity. -/
def KeysOfOneArityIn (call : ServiceCall ω) : Prop :=
  ∀ p confirmRows confirmToken conn barrier,
    call = .apply p confirmRows confirmToken conn barrier → KeysOfOneArity conn

theorem consumes_of_keys {cfg : DaemonConfig ω} {before after : Service} {r : ServiceRecord ω}
    (h : Outcome cfg before r after) (hkeys : KeysOfOneArityIn r.call) : Consumes r after := by
  intro p hp hcommit
  unfold ServiceRecord.applies at hp
  split at hp
  next p' confirmRows confirmToken conn barrier hcall =>
    obtain rfl : p' = p := Option.some.inj hp
    exact (consumed_of_commits h hcall (hkeys _ _ _ _ _ hcall) hcommit).2
  next => cases hp

section Apply

variable {cfg : DaemonConfig ω} {p : String} {confirmRows : Nat} {confirmToken : Option String}
  {conn : ApplyConn ω} {barrier : ApplyBarrier ω} {clock : Clock ω} {s : DaemonState ω}

theorem log_of_apply :
    (serviceStep cfg ⟨.apply p confirmRows confirmToken conn barrier, clock⟩ s).1.log =
      (applyReturningInverse cfg p confirmRows confirmToken conn barrier clock
        s.start).2.calls.log := by
  rcases happly : applyReturningInverse cfg p confirmRows confirmToken conn barrier clock
    s.start with ⟨e | result, s'⟩
  · exact (serviceStep_of_run cfg _ (Eff.bind_of_error happly)).2.2
  · exact (serviceStep_of_run cfg _ ((Eff.bind_of_ok happly).trans rfl)).2.2

/-- An apply that called the connection came to the gate. -/
theorem gate_of_log (hcalled : (serviceStep cfg
      ⟨.apply p confirmRows confirmToken conn barrier, clock⟩ s).1.log ≠ []) :
    ∃ g s₁, s₁.calls.log = [] ∧
      applyReturningInverse cfg p confirmRows confirmToken conn barrier clock s.start =
        applyGranted cfg g conn barrier clock s₁ := by
  rw [log_of_apply] at hcalled
  rcases filedUnder_cases p clock s with ⟨-, e, s₁, hlive, hlog⟩ | ⟨record, -, -, -, hlive⟩
  · rw [show applyReturningInverse cfg p confirmRows confirmToken conn barrier clock s.start =
      (.error e, s₁) from Eff.bind_of_error hlive] at hcalled
    exact absurd hlog hcalled
  let s₁ : ServiceState ω :=
    { s.start with calls := ⟨(record.proposal.isExpired clock s.world).2, []⟩ }
  have hout : applyReturningInverse cfg p confirmRows confirmToken conn barrier clock s.start =
      applyRecord cfg p record confirmRows confirmToken conn barrier clock s₁ :=
    Eff.bind_of_ok hlive
  rcases applyRecord_cases cfg p record confirmRows confirmToken conn barrier clock s₁ with
    ⟨e, hexit, -⟩ | ⟨dry, grant, -, -, -, hgate⟩
  · rw [hout.trans hexit] at hcalled
    exact absurd rfl hcalled
  · exact ⟨gateCallOf p record dry grant, s₁, rfl, hout.trans hgate⟩

/-- A committed apply is answered with an error only when it could not be recorded. -/
theorem error_of_commits (hkeys : KeysOfOneArity conn)
    (hcommit : 0 < commits (serviceStep cfg
      ⟨.apply p confirmRows confirmToken conn barrier, clock⟩ s).1.log) {e : RpcError}
    (hreply : (serviceStep cfg ⟨.apply p confirmRows confirmToken conn barrier, clock⟩ s).1.reply =
      .error e) : e.data.code = "AUDIT_FAILED" := by
  let i : ServiceInput ω := ⟨.apply p confirmRows confirmToken conn barrier, clock⟩
  obtain ⟨g, s₁, hquiet, hout⟩ := gate_of_log (ne_nil_of_commits hcommit)
  rcases hrun : gateRun cfg g conn barrier clock s₁.service.applyNonces s₁.calls.world with
    ⟨gateError | applied, after⟩
  · have hmoves := concludeBlocked_moves cfg g gateError clock (behindGate s₁ g after)
    rw [← applyGranted_of_blocked hquiet hrun, ← hout] at hmoves
    rw [log_of_apply, hmoves.log] at hcommit
    obtain ⟨applied, happlied⟩ := gateRun_of_commits hkeys (by rw [hrun]; exact hcommit)
    rw [hrun] at happlied
    cases happlied
  · have hgranted := hout.trans (applyGranted_of_applied hquiet hrun)
    rcases happlied : concludeApplied cfg g applied.1 clock (behindGate s₁ g after) with
      ⟨e' | result, s'⟩
    · have hr := (serviceStep_of_run cfg i (Eff.bind_of_error (hgranted.trans happlied))).1
      cases hr.symm.trans hreply
      exact concludeApplied_error happlied
    · have hr := (serviceStep_of_run cfg i
        ((Eff.bind_of_ok (hgranted.trans happlied)).trans rfl)).1
      cases hr.symm.trans hreply

end Apply

/-- What a committed apply leaves behind. -/
structure Committed (p : String) (x : Execution) (after : DaemonState ω) : Prop where
  once : commits x.log ≤ 1
  consumed : after.service.proposals[p]? = none
  answer : ∀ e, x.reply = .error e → e.data.code = "AUDIT_FAILED"

theorem dispatch_committed (cfg : DaemonConfig ω) (backends : Backends ω) (client : ApplydConfig)
    {p : String} {confirmRows : Nat} {confirmToken : Option String} {s : DaemonState ω}
    (hcommit : 0 < commits (dispatch cfg backends client (.apply p confirmRows confirmToken)
      s).1.log) :
    Committed p (dispatch cfg backends client (.apply p confirmRows confirmToken) s).1
      (dispatch cfg backends client (.apply p confirmRows confirmToken) s).2 := by
  rcases hsql : applySqlFor p backends.clock s with ⟨_ | statement, s'⟩
  · simp only [dispatch, hsql] at hcommit
    exact absurd hcommit (Nat.lt_irrefl 0)
  · simp only [dispatch, hsql, serve] at hcommit ⊢
    have hkeys := backends.keys statement
    obtain ⟨honce, hconsumed⟩ :=
      consumed_of_commits (serviceStep_outcome cfg _ s') rfl hkeys hcommit
    exact ⟨honce, hconsumed, fun e he => error_of_commits hkeys hcommit he⟩

/-- An apply of a proposal that is gone touches nothing. -/
theorem dispatch_unknown (cfg : DaemonConfig ω) (backends : Backends ω) (client : ApplydConfig)
    {p : String} {confirmRows : Nat} {confirmToken : Option String} {s : DaemonState ω}
    (hgone : s.service.proposals[p]? = none) :
    (dispatch cfg backends client (.apply p confirmRows confirmToken) s).1.log = [] ∧
      (dispatch cfg backends client (.apply p confirmRows confirmToken) s).2 = s := by
  have hsql : applySqlFor p backends.clock s = (none, s) := by
    simp only [applySqlFor, hgone]
  simp only [dispatch, hsql, and_self]

end Dispatch

/-! ## The client and the wire -/

/-- How an attempt of the client ended. -/
inductive Ending where
  | lost
  | timedOut
  | answered
deriving DecidableEq

inductive Phase where
  | dialing (attempt : Nat)
  | exchanging (attempt : Nat)
  | returned (outcome : ApplydOutcome)
deriving DecidableEq

/-- One call of the client, the lines it has on the wire, and the daemon.  A line is known by
the attempt that wrote it.  How the attempts ended and what was run is kept for the record. -/
structure System (ω : Type) where
  phase : Phase
  inFlight : List Nat
  executions : List (Nat × Execution)
  endings : List (Nat × Ending)
  daemon : DaemonState ω

inductive Event (ω : Type) where
  | dialOk
  | dialFails (detail : String)
  | deliver
  | lose (detail : String)
  | timeOut
  | answer
  | execute (attempt : Nat)
  | other (i : ServiceInput ω)

/-- Whose socket it is, and which call. -/
structure Deployment (ω : Type) where
  cfg : DaemonConfig ω
  backends : Backends ω
  client : ApplydConfig
  call : ClientCall

/-- The call begins, with a socket held from an earlier call or without. -/
def System.start (held : Bool) (daemon : DaemonState ω) : System ω :=
  ⟨if held then .exchanging 0 else .dialing 0, [], [], [], daemon⟩

def System.delivered (s : System ω) : List Nat := s.inFlight ++ s.executions.map (·.1)

section Run

variable [Sha256] [Ed25519] [Sql]

/-- One step of the client, of the wire or of the daemon.  An event that cannot happen changes
nothing. -/
def next (d : Deployment ω) (s : System ω) : Event ω → System ω
  | .dialOk =>
      match s.phase with
      | .dialing k => { s with phase := .exchanging k }
      | _ => s
  | .dialFails detail =>
      match s.phase with
      | .dialing _ => { s with phase := .returned (.blocked (applydUnavailable
          ("could not connect to the applyd socket at " ++ d.client.socketPath ++ ": " ++
            detail))) }
      | _ => s
  | .deliver =>
      match s.phase with
      | .exchanging k => if k ∈ s.delivered then s else { s with inFlight := k :: s.inFlight }
      | _ => s
  | .lose detail =>
      match s.phase with
      | .exchanging k =>
          { s with
            endings := (k, .lost) :: s.endings
            phase :=
              if k = 0 then .dialing (k + 1)
              else .returned (.blocked (applydUnavailable detail)) }
      | _ => s
  | .timeOut =>
      match s.phase with
      | .exchanging k =>
          { s with
            endings := (k, .timedOut) :: s.endings
            phase := .returned
              (.blocked (applydTimeout d.call.method d.client.timeoutMs)) }
      | _ => s
  | .answer =>
      match s.phase with
      | .exchanging k =>
          match s.executions.lookup k with
          | some x =>
              { s with
                endings := (k, .answered) :: s.endings
                phase := .returned (mapResponse (toResponse x.reply)) }
          | none => s
      | _ => s
  | .execute k =>
      if k ∈ s.inFlight then
        let out := dispatch d.cfg d.backends d.client d.call s.daemon
        { s with
          inFlight := s.inFlight.erase k
          executions := s.executions ++ [(k, out.1)]
          daemon := out.2 }
      else s
  | .other i => { s with daemon := (serviceStep d.cfg i s.daemon).2 }

structure StepRecord (ω : Type) where
  before : System ω
  event : Event ω

def step (d : Deployment ω) (e : Event ω) (s : System ω) : StepRecord ω × System ω :=
  (⟨s, e⟩, next d s e)

end Run

/-- The writes that the call committed. -/
def System.committed (s : System ω) : Nat := (s.executions.map fun x => commits x.2.log).sum

/-! ## What is known in the middle of a call -/

section Invariant

variable [Sha256] [Ed25519] [Sql]

structure Inv (d : Deployment ω) (s : System ω) : Prop where
  /-- No line is run twice. -/
  nodup : s.delivered.Nodup
  attempts : ∀ k ∈ s.delivered, k = 0 ∨ k = 1 ∧ (0, .lost) ∈ s.endings
  current : ∀ k, s.phase = .dialing k ∨ s.phase = .exchanging k →
    k = 0 ∧ s.endings = [] ∨ k = 1 ∧ s.endings = [(0, .lost)]
  answered : ∀ k, (k, .answered) ∈ s.endings →
    ∃ x, (k, x) ∈ s.executions ∧ s.phase = .returned (mapResponse (toResponse x.reply))
  dispatched : ∀ k x, (k, x) ∈ s.executions →
    ∃ daemon, x = (dispatch d.cfg d.backends d.client d.call daemon).1

variable {d : Deployment ω} {s : System ω} {p : String}

theorem Inv.not_answered (h : Inv d s) {k : Nat}
    (hphase : s.phase = .dialing k ∨ s.phase = .exchanging k) (j : Nat) :
    (j, .answered) ∉ s.endings := by
  rcases h.current k hphase with ⟨-, hnone⟩ | ⟨-, hlost⟩
  · simp [hnone]
  · simp [hlost]

/-- The client moves on without an answer. -/
theorem Inv.moveOn (h : Inv d s) {k : Nat}
    (hphase : s.phase = .dialing k ∨ s.phase = .exchanging k) {phase : Phase}
    {endings : List (Nat × Ending)} (hkept : ∀ e ∈ s.endings, e ∈ endings)
    (hnew : ∀ j, (j, .answered) ∈ endings → (j, .answered) ∈ s.endings)
    (hcurrent : ∀ j, phase = .dialing j ∨ phase = .exchanging j →
      j = 0 ∧ endings = [] ∨ j = 1 ∧ endings = [(0, .lost)]) :
    Inv d { s with phase := phase, endings := endings } := by
  refine ⟨h.nodup, ?_, hcurrent, ?_, h.dispatched⟩
  · intro j hj
    rcases h.attempts j hj with hzero | ⟨hone, hlost⟩
    · exact .inl hzero
    · exact .inr ⟨hone, hkept _ hlost⟩
  · intro j hj
    exact absurd (hnew j hj) (h.not_answered hphase j)

theorem start_inv (d : Deployment ω) (held : Bool) (daemon : DaemonState ω) :
    Inv d (System.start held daemon) := by
  refine ⟨List.nodup_nil, nofun, ?_, nofun, nofun⟩
  intro k hk
  cases held
  · rcases hk with hk | hk
    · cases hk
      exact .inl ⟨rfl, rfl⟩
    · cases hk
  · rcases hk with hk | hk
    · cases hk
    · cases hk
      exact .inl ⟨rfl, rfl⟩

theorem deliver_inv (h : Inv d s) : Inv d (next d s .deliver) := by
  simp only [next]
  split
  next k hphase =>
    split
    · exact h
    next hk =>
      refine ⟨List.nodup_cons.mpr ⟨hk, h.nodup⟩, ?_, h.current, h.answered, h.dispatched⟩
      intro j hj
      rcases List.mem_cons.mp hj with rfl | hj
      · rcases h.current j (.inr hphase) with ⟨hzero, -⟩ | ⟨hone, hlost⟩
        · exact .inl hzero
        · exact .inr ⟨hone, by rw [hlost]; exact List.mem_singleton_self _⟩
      · exact h.attempts j hj
  next => exact h

theorem execute_inv (h : Inv d s) (k : Nat) : Inv d (next d s (.execute k)) := by
  simp only [next]
  split
  next hk =>
    -- The line goes from one list to the other.
    have hperm : (s.inFlight.erase k ++ (s.executions.map (·.1) ++ [k])).Perm s.delivered := by
      have hfront : (k :: (s.inFlight.erase k ++ s.executions.map (·.1))).Perm s.delivered :=
        (List.perm_cons_erase hk).symm.append_right _
      refine List.Perm.trans ?_ hfront
      rw [← List.append_assoc]
      exact List.perm_append_singleton k _
    refine ⟨?_, ?_, h.current, ?_, ?_⟩
    · simpa [System.delivered] using hperm.nodup_iff.mpr h.nodup
    · intro j hj
      exact h.attempts j (hperm.mem_iff.mp (by simpa [System.delivered] using hj))
    · intro j hj
      obtain ⟨x, hx, hphase⟩ := h.answered j hj
      exact ⟨x, List.mem_append_left _ hx, hphase⟩
    · intro j x hx
      rcases List.mem_append.mp hx with hx | hx
      · exact h.dispatched j x hx
      · obtain ⟨-, rfl⟩ := Prod.mk.inj (List.mem_singleton.mp hx)
        exact ⟨s.daemon, rfl⟩
  next => exact h

theorem next_inv (h : Inv d s) (e : Event ω) : Inv d (next d s e) := by
  cases e with
  | deliver => exact deliver_inv h
  | execute k => exact execute_inv h k
  | other i => exact ⟨h.nodup, h.attempts, h.current, h.answered, h.dispatched⟩
  | dialOk =>
      simp only [next]
      split
      next k hphase =>
        refine h.moveOn (.inl hphase) (fun _ => id) (fun _ => id) ?_
        rintro j (hj | hj)
        · cases hj
        · cases hj
          exact h.current k (.inl hphase)
      next => exact h
  | dialFails detail =>
      simp only [next]
      split
      next k hphase =>
        exact h.moveOn (.inl hphase) (fun _ => id) (fun _ => id) (by simp)
      next => exact h
  | lose detail =>
      simp only [next]
      split
      next k hphase =>
        refine h.moveOn (.inr hphase) (fun _ => List.mem_cons_of_mem _) (by simp) ?_
        intro j hj
        rcases h.current k (.inr hphase) with ⟨rfl, hnone⟩ | ⟨rfl, -⟩
        · rcases hj with hj | hj
          · cases hj
            exact .inr ⟨rfl, by rw [hnone]⟩
          · cases hj
        · simp at hj
      next => exact h
  | timeOut =>
      simp only [next]
      split
      next k hphase =>
        exact h.moveOn (.inr hphase) (fun _ => List.mem_cons_of_mem _) (by simp) (by simp)
      next => exact h
  | answer =>
      simp only [next]
      split
      next k hphase =>
        split
        next x hx =>
          obtain ⟨l₁, l₂, heq, -⟩ := List.lookup_eq_some_iff.mp hx
          have hmem : (k, x) ∈ s.executions := by
            rw [heq]
            simp
          refine ⟨h.nodup, ?_, by simp, ?_, h.dispatched⟩
          · intro j hj
            rcases h.attempts j hj with hzero | ⟨hone, hlost⟩
            · exact .inl hzero
            · exact .inr ⟨hone, List.mem_cons_of_mem _ hlost⟩
          · intro j hj
            rcases List.mem_cons.mp hj with hj | hj
            · cases hj
              exact ⟨x, hmem, rfl⟩
            · exact absurd hj (h.not_answered (.inr hphase) j)
        next => exact h
      next => exact h

/-- No line is run twice, so an attempt has one execution. -/
theorem Inv.execution_unique (h : Inv d s) {k : Nat} {x y : Execution}
    (hx : (k, x) ∈ s.executions) (hy : (k, y) ∈ s.executions) : x = y := by
  have hnodup : (s.executions.map (·.1)).Nodup := (List.nodup_append.mp h.nodup).2.1
  exact (Prod.mk.inj (List.inj_on_of_nodup_map hnodup hx hy rfl)).2

theorem Inv.executions_le (h : Inv d s) : s.executions.length ≤ 2 := by
  have hnodup : (s.executions.map (·.1)).Nodup := (List.nodup_append.mp h.nodup).2.1
  have hsub : s.executions.map (·.1) ⊆ [0, 1] := by
    intro k hk
    rcases h.attempts k (List.mem_append_right _ hk) with rfl | ⟨rfl, -⟩
    · simp
    · simp
  simpa using (List.subperm_of_subset hnodup hsub).length_le

/-- A second line is written when the first was lost. -/
theorem Inv.lost_of_two (h : Inv d s) (htwo : s.executions.length = 2) :
    (0, .lost) ∈ s.endings := by
  by_contra hlost
  have hnodup : (s.executions.map (·.1)).Nodup := (List.nodup_append.mp h.nodup).2.1
  have hsub : s.executions.map (·.1) ⊆ [0] := by
    intro k hk
    rcases h.attempts k (List.mem_append_right _ hk) with rfl | ⟨-, hbad⟩
    · simp
    · exact absurd hbad hlost
  have hle := (List.subperm_of_subset hnodup hsub).length_le
  simp [htwo] at hle

/-- A call that is answered with a block although it committed: the daemon could not record
the write, or its answer did not reach the client. -/
theorem Inv.blocked (h : Inv d s) {confirmRows : Nat} {confirmToken : Option String}
    (hcall : d.call = .apply p confirmRows confirmToken) {b : BlockContract}
    (hphase : s.phase = .returned (.blocked b)) (hcommitted : 0 < s.committed) :
    b.code = "AUDIT_FAILED" ∨
      ∃ k x, (k, x) ∈ s.executions ∧ 0 < commits x.log ∧ (k, .answered) ∉ s.endings := by
  obtain ⟨n, hn, hcommit⟩ := List.sum_pos_iff_exists_pos_nat.mp hcommitted
  obtain ⟨⟨k, x⟩, hx, rfl⟩ := List.mem_map.mp hn
  by_cases hanswered : (k, .answered) ∈ s.endings
  · left
    obtain ⟨y, hy, hreturned⟩ := h.answered k hanswered
    obtain rfl := h.execution_unique hx hy
    obtain ⟨daemon, hdispatched⟩ := h.dispatched k x hx
    rw [hcall] at hdispatched
    have hleft := (dispatch_committed d.cfg d.backends d.client (hdispatched ▸ hcommit)).answer
    rw [hphase] at hreturned
    have hmapped := Phase.returned.inj hreturned
    rcases hreply : x.reply with e | reply
    · rw [hreply] at hmapped
      rw [ApplydOutcome.blocked.inj hmapped]
      exact hleft e (hdispatched ▸ hreply)
    · rw [hreply] at hmapped
      cases hmapped
  · exact .inr ⟨k, x, hx, hcommit, hanswered⟩

/-! ## What is committed -/

/-- No other client is given the id of the proposal. -/
def StepRecord.LeavesId (d : Deployment ω) (p : String) (r : StepRecord ω) : Prop :=
  ∀ i, r.event = .other i → ∀ result,
    (serviceStep d.cfg i r.before.daemon).1.reply = .ok (.proposed result) →
      result.proposalId ≠ p

/-- Once the call has committed, its proposal is gone. -/
def CommitInv (p : String) (s : System ω) : Prop :=
  s.committed ≤ 1 ∧ (0 < s.committed → s.daemon.service.proposals[p]? = none)

theorem execute_commitInv (h : CommitInv p s) {confirmRows : Nat} {confirmToken : Option String}
    (hcall : d.call = .apply p confirmRows confirmToken) (k : Nat) :
    CommitInv p (next d s (.execute k)) := by
  simp only [next]
  split
  · have hsum : ∀ (x : Execution) (inFlight : List Nat) (daemon : DaemonState ω),
        ({ s with inFlight := inFlight, executions := s.executions ++ [(k, x)],
                  daemon := daemon } : System ω).committed = s.committed + commits x.log := by
      intro x inFlight daemon
      simp [System.committed]
    unfold CommitInv
    rw [hsum, hcall]
    by_cases hsome : 0 < s.committed
    · obtain ⟨hlog, hdaemon⟩ := dispatch_unknown d.cfg d.backends d.client (h.2 hsome)
      rw [hlog, hdaemon]
      exact h
    · by_cases hcommit : 0 < commits (dispatch d.cfg d.backends d.client
          (.apply p confirmRows confirmToken) s.daemon).1.log
      · have hleft := dispatch_committed d.cfg d.backends d.client hcommit
        have honce := hleft.once
        exact ⟨by omega, fun _ => hleft.consumed⟩
      · exact ⟨by omega, fun hpos => absurd hpos (by omega)⟩
  · exact h

theorem next_commitInv (h : CommitInv p s) {confirmRows : Nat} {confirmToken : Option String}
    (hcall : d.call = .apply p confirmRows confirmToken) {e : Event ω}
    (hleaves : StepRecord.LeavesId d p ⟨s, e⟩) : CommitInv p (next d s e) := by
  have hsame : ∀ s' : System ω, s'.executions = s.executions → s'.daemon = s.daemon →
      CommitInv p s' := by
    intro s' hexecutions hdaemon
    unfold CommitInv System.committed
    rw [hexecutions, hdaemon]
    exact h
  cases e with
  | execute k => exact execute_commitInv h hcall k
  | other i =>
      refine ⟨h.1, fun hpos => ?_⟩
      rcases hafter : (serviceStep d.cfg i s.daemon).2.service.proposals[p]? with _ | record
      · exact hafter
      · have hgone := h.2 hpos
        rcases (serviceStep_outcome d.cfg i s.daemon).proposals hafter with
          hbefore | ⟨⟨expectedRows, ttlMillis, -, hreply⟩, -, -⟩ | ⟨old, dry, -, hbefore, -⟩
        · exact absurd (hgone.symm.trans hbefore) nofun
        · exact absurd rfl (hleaves i rfl _ hreply)
        · exact absurd (hgone.symm.trans hbefore) nofun
  | dialOk =>
      simp only [next]
      split <;> exact hsame _ rfl rfl
  | dialFails detail =>
      simp only [next]
      split <;> exact hsame _ rfl rfl
  | deliver =>
      simp only [next]
      split
      · split <;> exact hsame _ rfl rfl
      · exact h
  | lose detail =>
      simp only [next]
      split <;> exact hsame _ rfl rfl
  | timeOut =>
      simp only [next]
      split <;> exact hsame _ rfl rfl
  | answer =>
      simp only [next]
      split
      · split <;> exact hsame _ rfl rfl
      · exact h

/-! ## Whole calls -/

/-- What one call of the client guarantees, whatever happens on the wire and in the daemon. -/
structure Guarantee (d : Deployment ω) (history : List (StepRecord ω)) (s : System ω) :
    Prop where
  atMostTwice : s.executions.length ≤ 2
  onlyAfterLoss : s.executions.length = 2 → (0, .lost) ∈ s.endings
  commitsOnce : ∀ p confirmRows confirmToken, d.call = .apply p confirmRows confirmToken →
    (∀ r ∈ history, r.LeavesId d p) → s.committed ≤ 1
  blocked : ∀ p confirmRows confirmToken, d.call = .apply p confirmRows confirmToken →
    ∀ b, s.phase = .returned (.blocked b) → 0 < s.committed → b.code = "AUDIT_FAILED" ∨
      ∃ k x, (k, x) ∈ s.executions ∧ 0 < commits x.log ∧ (k, .answered) ∉ s.endings

/-- A call makes the daemon run its request at most twice, and twice only when the first copy
was lost.  An apply commits at most once.  When it is reported as blocked and has committed,
the daemon could not record the write, or the answer of the copy that committed did not reach
the client. -/
theorem one_call_runs_at_most_twice (d : Deployment ω) (held : Bool) (daemon : DaemonState ω)
    (events : List (Event ω)) :
    Guarantee d (run (step d) events (.start held daemon)).1
      (run (step d) events (.start held daemon)).2 := by
  have hinv := (run_rule (step d) (fun _ s => Inv d s) (fun _ => True) (fun _ _ => True)
    (fun _ s e _ h => ⟨trivial, next_inv h e⟩) (start_inv d held daemon)
    (fun e (_ : e ∈ events) => trivial)).1
  refine ⟨hinv.executions_le, hinv.lost_of_two, ?_, ?_⟩
  · intro p confirmRows confirmToken hcall hleaves
    have hcommit := (run_rule_where (step d) (fun _ s => CommitInv p s) (fun _ => True)
      (fun _ r => r.LeavesId d p) (fun _ _ => True)
      (fun _ s e _ hmet h => ⟨trivial, next_commitInv h hcall hmet⟩)
      (s := .start held daemon) ⟨Nat.zero_le _, fun h => absurd h (Nat.lt_irrefl 0)⟩
      (fun e (_ : e ∈ events) => trivial) (everyStep_iff_forall.mpr hleaves)).1
    exact hcommit.1
  · intro p confirmRows confirmToken hcall b hphase hcommitted
    exact hinv.blocked hcall hphase hcommitted

end Invariant

/-! ## A lost answer -/

/-- A deployment with a scripted connection. -/
def accountsDeployment [Ed25519] : Deployment Unit where
  cfg := accountsDaemon
  backends :=
    { rehearsal := accountsRehearsal
      connFor := fun _ => .scripted GrantSingleUse.plainForward [⟨"public.accounts", 0, 2, 0⟩]
      clock := zeroClock
      keys := by
        intro _ kind relation cascades w forward w' hforward
        cases hforward
        decide }
  client := ⟨"/run/pgb/applyd.sock", "app", "agent", 30000⟩
  call := .apply accountsId 2 none

/-- A proposal that was rehearsed and approved. -/
def approved [Sha256] [Ed25519] [Sql] : DaemonState Unit :=
  (run (serviceStep accountsDaemon)
    ((applyTwice (.scripted GrantSingleUse.plainForward [])).take 4) ⟨.new, 0, ()⟩).2

/-- The daemon runs the line, its answer is lost, and the second copy is answered. -/
def lostAnswer : List (Event Unit) :=
  [.deliver, .execute 0, .lose "applyd socket closed (EOF)", .dialOk, .deliver, .execute 1, .answer]

/-- What the client reports. -/
def System.report (s : System ω) : Option BlockContract :=
  match s.phase with
  | .returned (.blocked b) => some b
  | _ => none

/-- The write is committed, run again, and reported as a proposal that is not there. -/
theorem committed_apply_blocked :
    letI := Sha256.standard
    letI := GrantSingleUse.sharedBytes
    letI := accountsSql
    let s := (run (step accountsDeployment) lostAnswer (.start true approved)).2
    ¬ s.executions.length ≤ 1 ∧
      ¬ ∀ b, s.phase = .returned (.blocked b) → s.committed = 0 := by
  let _ := Sha256.standard
  let _ := GrantSingleUse.sharedBytes
  let _ := accountsSql
  intro s
  have hrun : s.executions.length = 2 ∧ s.committed = 1 ∧
      s.report.map BlockContract.code = some "PROPOSAL_NOT_FOUND" := by
    decide +kernel
  obtain ⟨htwo, hone, hreport⟩ := hrun
  refine ⟨by omega, fun hclaim => ?_⟩
  unfold System.report at hreport
  split at hreport
  next b hphase =>
    have hzero := hclaim b hphase
    omega
  next => cases hreport

end PgBrakes.Ports.McpClient
