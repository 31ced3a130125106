import PgBrakes.Verified.LineRpc
import PgBrakes.Ports.ApplydWire

/-!
# A session of the socket client

The socket client of `crates/mcp/src/applyd.rs` over all of its calls, against the daemon of
`crates/applyd/src/main.rs`.  The calls follow one another under the mutex; the socket they
use, the lines and the answers are those of `Verified/LineRpc`, with the daemon as the
server.  The lines of every other socket, an operator's among them, come in between.

A line that the client cannot read is a loss, like a socket that was closed.

## Main results

* `session_answers` — what a call returns was answered to that call.
* `session_applies_honestly` — what a success or a block of an apply says about commits.
* `session_needs_approval` — the connection is not called before another socket presented
  the configured key.
* `session_lifecycle_safe` — a proposal is committed at most once.
-/

namespace PgBrakes.Ports.McpSession

open PgBrakes.Verified
open PgBrakes.Verified.Effect
open PgBrakes.Verified.History
open PgBrakes.Verified.LineRpc hiding step Inv Phase
open PgBrakes.Verified.JsonValue
open PgBrakes.Ports.KeyChecksum
open PgBrakes.Ports.TypedInverse
open PgBrakes.Ports.BlastRecord
open PgBrakes.Ports.GuardedApply
open PgBrakes.Ports.GuardedApplyRun
open PgBrakes.Ports.GuardedApplyAtomicity
open PgBrakes.Ports.SqlAst
open PgBrakes.Ports.Grant
open PgBrakes.Ports.GrantedApply
open PgBrakes.Ports.DryRun
open PgBrakes.Ports.Approval
open PgBrakes.Ports.ApplyService
open PgBrakes.Ports.ServiceRun
open PgBrakes.Ports.ServiceLifecycle
open PgBrakes.Ports.RefusalEvidence (serviceStep_of_run filedUnder_cases applyRecord_cases)
open PgBrakes.Ports.McpClient hiding System System.start Event Phase Inv step
open PgBrakes.Ports.ApplydWire

variable {ω : Type}

/-- What a step of a session did. -/
abbrev SessionRecord (ω : Type) := Record (DaemonState ω) WireCall Dispatched (Option Line)

/-! ## A success was committed -/

section Applied

variable [Sha256] [Ed25519] [Sql]

/-- A success of the gate was committed. -/
theorem gate_commits_of_ok {g : GrantCall ω} {nonces : NonceStore} {w : ω}
    {a : AppliedWrite × BridgedApplyConfig} (h : (g.run ⟨nonces, ⟨w, []⟩⟩).1 = .ok a) :
    0 < commits (g.run ⟨nonces, ⟨w, []⟩⟩).2.calls.log := by
  rcases run_granted_cases g ⟨nonces, ⟨w, []⟩⟩ with ⟨e, s', hrefused⟩ | hgranted
  · rw [hrefused.run] at h
    cases h
  have hfirst := congrArg Prod.fst hgranted.run
  rw [h] at hfirst
  rcases run_cases g.invocation (engineStart g nonces w) with ⟨e, w', es, hrun, -⟩ |
    ⟨e, w', before, body, answer, hrun, -, -⟩ | ⟨t, ht⟩
  · rw [show (afterClock g.clock (afterPkColumn g ⟨nonces, ⟨w, []⟩⟩)).calls =
      engineStart g nonces w from rfl, hrun] at hfirst
    cases hfirst
  · rw [show (afterClock g.clock (afterPkColumn g ⟨nonces, ⟨w, []⟩⟩)).calls =
      engineStart g nonces w from rfl, hrun] at hfirst
    cases hfirst
  · rw [(gate_commits_iff g nonces w)]
    refine ⟨hgranted, t, ht, ?_⟩
    rcases hcommit : (g.conn.commit t.final).1 with e | ⟨⟩
    · have hrun := run_of_commitPoint ht (engineStart g nonces w).log
      rw [show (afterClock g.clock (afterPkColumn g ⟨nonces, ⟨w, []⟩⟩)).calls =
        ⟨(engineStart g nonces w).world, (engineStart g nonces w).log⟩ from rfl, hrun,
        show g.invocation.conn = g.conn from rfl, hcommit] at hfirst
      cases hfirst
    · rfl

omit [Sha256] [Ed25519] [Sql] in
/-- A blocked apply is answered with an error. -/
theorem concludeBlocked_error (cfg : DaemonConfig ω) (g : GateCall) (e : GrantedApplyError)
    (clock : Clock ω) (s : ServiceState ω) :
    ∃ e' s', concludeBlocked cfg g e clock s = (.error e', s') := by
  rcases haudit : auditDecision cfg clock (applyEntry g.live .block
    (grantedApplyErrorToRpc e).data.code (grantedApplyErrorToRpc e).message) s with
    ⟨e' | ⟨⟩, s₁⟩
  · simp only [concludeBlocked, Eff.bind_apply, Eff.mapError_apply, haudit]
    exact ⟨_, _, rfl⟩
  · simp only [concludeBlocked, Eff.bind_apply, Eff.mapError_apply, haudit]
    exact ⟨_, _, rfl⟩

variable {cfg : DaemonConfig ω} {p : String} {confirmRows : Nat} {confirmToken : Option String}
  {conn : ApplyConn ω} {barrier : ApplyBarrier ω} {clock : Clock ω} {s : DaemonState ω}

/-- An apply that is answered with a success committed. -/
theorem commits_of_reply {reply : Reply} (h : (serviceStep cfg
      ⟨.apply p confirmRows confirmToken conn barrier, clock⟩ s).1.reply = .ok reply) :
    0 < commits (serviceStep cfg
      ⟨.apply p confirmRows confirmToken conn barrier, clock⟩ s).1.log := by
  rw [log_of_apply]
  rcases happly : applyReturningInverse cfg p confirmRows confirmToken conn barrier clock
    s.start with ⟨e | result, s'⟩
  · have herror := (serviceStep_of_run cfg
      ⟨.apply p confirmRows confirmToken conn barrier, clock⟩ (Eff.bind_of_error happly)).1
    cases herror.symm.trans h
  rcases filedUnder_cases p clock s with ⟨-, e, s₁, hlive, -⟩ | ⟨record, -, -, -, hlive⟩
  · rw [show applyReturningInverse cfg p confirmRows confirmToken conn barrier clock s.start =
      (.error e, s₁) from Eff.bind_of_error hlive] at happly
    cases happly
  let s₁ : ServiceState ω :=
    { s.start with calls := ⟨(record.proposal.isExpired clock s.world).2, []⟩ }
  have hout : applyReturningInverse cfg p confirmRows confirmToken conn barrier clock s.start =
      applyRecord cfg p record confirmRows confirmToken conn barrier clock s₁ :=
    Eff.bind_of_ok hlive
  rcases applyRecord_cases cfg p record confirmRows confirmToken conn barrier clock s₁ with
    ⟨e, hexit, -⟩ | ⟨dry, grant, -, -, -, hgate⟩
  · rw [hout.trans hexit] at happly
    cases happly
  let g := gateCallOf p record dry grant
  rcases hrun : gateRun cfg g conn barrier clock s₁.service.applyNonces s₁.calls.world with
    ⟨gateError | applied, after⟩
  · obtain ⟨e, s₂, hblocked⟩ := concludeBlocked_error cfg g gateError clock (behindGate s₁ g after)
    rw [hout.trans (hgate.trans (applyGranted_of_blocked rfl hrun)), hblocked] at happly
    cases happly
  · have happlied := hout.trans (hgate.trans (applyGranted_of_applied rfl hrun))
    have hlog := (concludeApplied_moves cfg g applied.1 clock (behindGate s₁ g after)).log
    rw [← happlied, happly] at hlog
    show 0 < commits s'.calls.log
    rw [hlog]
    have hcommits := gate_commits_of_ok (congrArg Prod.fst hrun)
    rw [show (g.grantCall cfg conn barrier clock).run ⟨s₁.service.applyNonces,
      ⟨s₁.calls.world, []⟩⟩ = (.ok applied, after) from hrun] at hcommits
    exact hcommits

/-- An apply of the client that is answered with a success committed. -/
theorem dispatch_commits {backends : Backends ω} {client : ApplydConfig} {reply : Reply}
    (h : (dispatch cfg backends client (.apply p confirmRows confirmToken) s).1.reply =
      .ok reply) :
    0 < commits (dispatch cfg backends client (.apply p confirmRows confirmToken) s).1.log := by
  rcases hsql : applySqlFor p backends.clock s with ⟨_ | statement, s'⟩
  · simp only [dispatch, hsql] at h
    cases h
  · simp only [dispatch, hsql, serve] at h ⊢
    exact commits_of_reply h

/-- An apply of the client commits once where it is answered with a success.  Where it is
answered with an error it committed nothing, unless its record could not be written. -/
theorem dispatch_applied (cfg : DaemonConfig ω) (backends : Backends ω) (client : ApplydConfig)
    (p : String) (confirmRows : Nat) (confirmToken : Option String) (s : DaemonState ω) :
    (∀ reply, (dispatch cfg backends client (.apply p confirmRows confirmToken) s).1.reply =
        .ok reply →
      commits (dispatch cfg backends client (.apply p confirmRows confirmToken) s).1.log = 1) ∧
    ∀ e, (dispatch cfg backends client (.apply p confirmRows confirmToken) s).1.reply =
        .error e →
      e.data.code = "AUDIT_FAILED" ∨
      commits (dispatch cfg backends client (.apply p confirmRows confirmToken) s).1.log = 0 := by
  constructor
  · intro reply hreply
    have hpos := dispatch_commits hreply
    have honce := (dispatch_committed cfg backends client hpos).once
    omega
  · intro e he
    by_cases hpos : 0 < commits
        (dispatch cfg backends client (.apply p confirmRows confirmToken) s).1.log
    · exact .inl ((dispatch_committed cfg backends client hpos).answer e he)
    · exact .inr (by omega)

end Applied

/-- What the client reads off an answer of the service. -/
theorem onWire_ok {reply : Except RpcError Reply} {payload : Json}
    (h : onWire (mapResponse (toResponse reply)) = .ok payload) : ∃ r, reply = .ok r := by
  cases reply with
  | ok r => exact ⟨r, rfl⟩
  | error e => cases h

theorem onWire_blocked {reply : Except RpcError Reply} {b : BlockContract}
    (h : onWire (mapResponse (toResponse reply)) = .blocked b) :
    ∃ e, reply = .error e ∧ b.code = e.data.code := by
  cases reply with
  | ok r => cases h
  | error e =>
      cases h
      exact ⟨e, rfl, rfl⟩

section Session

variable [Texts] [Sha256] [Ed25519] [Sql]

/-- The daemon behind the sockets: a line of the client, and a line of another socket. -/
def daemonServer (d : Daemon ω) (client : ApplydConfig) :
    Server (DaemonState ω) WireCall Dispatched (Option Line) where
  serve serial c s := dispatchLine d (requestLine client serial c.call) s
  other line s := (serveLine d line s).2

/-- The records of a session with a fresh service. -/
def session (d : Daemon ω) (client : ApplydConfig) (seq : Nat) (w : ω)
    (events : List (Event WireCall (Option Line))) :
    List (SessionRecord ω) :=
  (run (LineRpc.step (daemonServer d client)) events (System.start ⟨.new, seq, w⟩)).1

/-- `call`: what is returned where the exchange ended so.  An answer that cannot be read is
none. -/
def returns (client : ApplydConfig) (c : ClientCall) : Outcome Dispatched → Option WireOutcome
  | .answered rep => readOutcome rep.response.toJson
  | .refused e => some (.blocked (applydUnavailable
      ("could not connect to the applyd socket at " ++ client.socketPath ++ ": " ++ e)))
  | .lost detail => some (.blocked (applydUnavailable detail))
  | .timedOut => some (.blocked (applydTimeout c.method client.timeoutMs))

/-! ## What a call returns -/

/-- What the client makes of the daemon's answer to a line of a call. -/
def answerTo (d : Daemon ω) (client : ApplydConfig) (c : WireCall) (s : DaemonState ω) :
    WireOutcome :=
  onWire (mapResponse (toResponse (dispatch d.cfg d.backends client c.call s).1.reply))

/-- A call that returned reports a loss, or what the service answered to a line of that
call. -/
def Answered (d : Daemon ω) (client : ApplydConfig)
    (before : List (SessionRecord ω)) :
    SessionRecord ω → Prop
  | .returned n outcome => ∃ c result, .called n c ∈ before ∧
      returns client c.call outcome = some result ∧
      ((∃ b, result = .blocked b ∧ b.code = "APPLYD_UNAVAILABLE") ∨
        ∃ attempt serial s, .ran n attempt serial c s ∈ before ∧
          result = answerTo d client c s)
  | _ => True

/-- The answer to a line of the client, as the client reads it. -/
theorem readOutcome_serve {d : Daemon ω} {client : ApplydConfig} (serial : Nat) (c : WireCall)
    (s : DaemonState ω) :
    readOutcome ((daemonServer d client).serve serial c s).1.response.toJson =
      some (answerTo d client c s) := by
  show readOutcome (dispatchLine d (requestLine client serial c.call) s).1.response.toJson = _
  rw [dispatchLine_requestLine]
  exact readOutcome_respond _ _

theorem answered_of_paired {d : Daemon ω} {client : ApplydConfig}
    {before : List (SessionRecord ω)}
    {r : SessionRecord ω}
    (h : LineRpc.Paired (daemonServer d client) before r) : Answered d client before r := by
  cases r with
  | returned n outcome =>
      obtain ⟨c, hcalled, hanswer⟩ := h
      cases outcome with
      | answered rep =>
          obtain ⟨attempt, serial, s, hran, hrep⟩ := hanswer rep rfl
          refine ⟨c, _, hcalled, ?_, .inr ⟨attempt, serial, s, hran, rfl⟩⟩
          show readOutcome rep.response.toJson = _
          rw [hrep]
          exact readOutcome_serve serial c s
      | refused e => exact ⟨c, _, hcalled, rfl, .inl ⟨_, rfl, rfl⟩⟩
      | lost detail => exact ⟨c, _, hcalled, rfl, .inl ⟨_, rfl, rfl⟩⟩
      | timedOut => exact ⟨c, _, hcalled, rfl, .inl ⟨_, rfl, rfl⟩⟩
  | _ => trivial

/-- In every session a call returns what the daemon answered to that very call, or says that
the daemon was unavailable; its line is run at most twice, and twice only where the first
socket was lost. -/
theorem session_answers (d : Daemon ω) (client : ApplydConfig) (seq : Nat) (w : ω)
    (events : List (Event WireCall (Option Line))) :
    let history := session d client seq w events
    EveryStep (Answered d client) history ∧
      ∀ n, (attemptsRun history n).length ≤ 2 ∧
        (2 ≤ (attemptsRun history n).length → .lostFirst n ∈ history) := by
  intro history
  constructor
  · intro before r after heq
    exact answered_of_paired (run_paired (daemonServer d client) _ events before r after heq)
  · exact runs_le_two (daemonServer d client) _ events

/-! ## What an apply says -/

/-- What a line of an apply committed. -/
def committedBy (d : Daemon ω) (client : ApplydConfig) (c : WireCall) (s : DaemonState ω) : Nat :=
  commits (dispatch d.cfg d.backends client c.call s).1.log

/-- A success of an apply says that the line of the call whose answer it is committed once.
A block that is no complaint about the socket or the sink, after a call that lost no line,
says that no line of the call committed. -/
def AppliesHonestly (d : Daemon ω) (client : ApplydConfig) (before : List (SessionRecord ω)) :
    SessionRecord ω → Prop
  | .returned n outcome => ∃ c, .called n c ∈ before ∧
      ∀ p confirmRows confirmToken, c.call = .apply p confirmRows confirmToken →
        (∀ payload, returns client c.call outcome = some (.ok payload) →
          ∃ attempt serial s, .ran n attempt serial c s ∈ before ∧
            answerTo d client c s = .ok payload ∧ committedBy d client c s = 1) ∧
        ∀ b, returns client c.call outcome = some (.blocked b) →
          b.code = "APPLYD_UNAVAILABLE" ∨ b.code = "AUDIT_FAILED" ∨ .lostFirst n ∈ before ∨
            ∀ attempt serial c' s, .ran n attempt serial c' s ∈ before →
              committedBy d client c' s = 0
  | _ => True

theorem appliesHonestly_of_paired {d : Daemon ω} {client : ApplydConfig}
    {before : List (SessionRecord ω)} {r : SessionRecord ω}
    (hnodup : (ranIds before).Nodup) (hbefore : EveryStep (Paired (daemonServer d client)) before)
    (h : Paired (daemonServer d client) before r) : AppliesHonestly d client before r := by
  cases r with
  | returned n outcome =>
      obtain ⟨c, hcalled, hanswer⟩ := h
      refine ⟨c, hcalled, ?_⟩
      intro p confirmRows confirmToken hcall
      cases outcome with
      | refused e => exact ⟨nofun, fun b hb => .inl (by cases hb; rfl)⟩
      | lost detail => exact ⟨nofun, fun b hb => .inl (by cases hb; rfl)⟩
      | timedOut => exact ⟨nofun, fun b hb => .inl (by cases hb; rfl)⟩
      | answered rep =>
          obtain ⟨attempt, serial, s, hran, hrep⟩ := hanswer rep rfl
          have hread : returns client c.call (.answered rep) = some (answerTo d client c s) := by
            show readOutcome rep.response.toJson = _
            rw [hrep]
            exact readOutcome_serve serial c s
          have happlied := dispatch_applied d.cfg d.backends client p confirmRows confirmToken s
          rw [← hcall] at happlied
          rw [hread]
          constructor
          · intro payload hpayload
            have hanswered := Option.some.inj hpayload
            obtain ⟨reply, hreply⟩ := onWire_ok hanswered
            exact ⟨attempt, serial, s, hran, hanswered, happlied.1 reply hreply⟩
          · intro b hb
            obtain ⟨e, he, hcode⟩ := onWire_blocked (Option.some.inj hb)
            rcases happlied.2 e he with haudit | hnone
            · exact .inr (.inl (hcode.trans haudit))
            by_cases hlost : .lostFirst n ∈ before
            · exact .inr (.inr (.inl hlost))
            -- The line that was answered is the only one of the call.
            refine .inr (.inr (.inr fun attempt' serial' c' s' hran' => ?_))
            have hfirst := first_attempt hbefore hran hlost
            have hfirst' := first_attempt hbefore hran' hlost
            subst hfirst hfirst'
            obtain ⟨-, rfl, rfl⟩ := ran_unique hnodup hran hran'
            exact hnone
  | _ => trivial

/-- In every session an apply that returns a success was committed, once by the line that was
answered; and one that is blocked after a single attempt, other than for the socket or the
sink, committed nothing. -/
theorem session_applies_honestly (d : Daemon ω) (client : ApplydConfig) (seq : Nat) (w : ω)
    (events : List (Event WireCall (Option Line))) :
    EveryStep (AppliesHonestly d client) (session d client seq w events) := by
  intro before r after heq
  have hpaired := run_paired (daemonServer d client) (⟨.new, seq, w⟩ : DaemonState ω) events
  have hnodup := run_nodup (daemonServer d client) (⟨.new, seq, w⟩ : DaemonState ω) events heq
  refine appliesHonestly_of_paired hnodup ?_ (hpaired before r after heq)
  rw [show (run (LineRpc.step (daemonServer d client)) events _).1 = _ from heq] at hpaired
  exact hpaired.front

/-! ## What the daemon does for a line -/

/-- The line a record is about, and the daemon that found it. -/
def handled (client : ApplydConfig) :
    SessionRecord ω → Option (Line × DaemonState ω)
  | .ran _ _ serial c s => some (requestLine client serial c.call, s)
  | .touched (some line) s => some (line, s)
  | _ => none

/-- The calls of the apply connection. -/
def connectionCalls (d : Daemon ω) (client : ApplydConfig)
    (r : SessionRecord ω) : List ApplyCall :=
  match handled client r with
  | some (line, s) => (dispatchLine d line s).1.log
  | none => []

/-- The line is an approval, with these arguments. -/
def Asks (line : Line) (requestId approverId : String) (key : SigningKey) (nonce : String) :
    Prop :=
  ∃ grantTtlMillis, (parseLine line).2 =
    .ok (.approve requestId approverId key nonce grantTtlMillis)

/-- The line, where it found the daemon so, approved a ticket of the proposal with the
configured key, as someone else than its requester, and was answered with the grant. -/
def LineApproves (d : Daemon ω) (p : String) (line : Line) (s : DaemonState ω) : Prop :=
  ∃ requestId approverId key nonce request, Asks line requestId approverId key nonce ∧
    Ed25519.verifyingKey key = d.cfg.verifyingKey ∧
    s.service.requestToProposal[requestId]? = some p ∧
    s.service.flow.requests[requestId]? = some request ∧ approverId ≠ request.requesterId ∧
    (dispatchLine d line s).1.response =
      .ok (parseLine line).1 (payloadJson (.approved ⟨requestId, nonce⟩))

/-- The line of another socket approved a ticket of the proposal. -/
def Approves (d : Daemon ω) (p : String) :
    SessionRecord ω → Prop
  | .touched (some line) s => LineApproves d p line s
  | _ => False

/-- A record that called the connection was an apply of a proposal that was approved. -/
def ApprovedBefore (d : Daemon ω) (client : ApplydConfig)
    (before : List (SessionRecord ω))
    (r : SessionRecord ω) : Prop :=
  connectionCalls d client r ≠ [] →
    ∃ line s p confirmRows confirmToken, handled client r = some (line, s) ∧
      (parseLine line).2 = .ok (.apply p confirmRows confirmToken) ∧
      ∃ r' ∈ before, Approves d p r'

/-- Where a grant comes from. -/
theorem dispatchLine_grants {d : Daemon ω} {line : Line} {s : DaemonState ω} {p : String}
    {grant : GrantToken} (h : (dispatchLine d line s).2.service.grants[p]? = some grant) :
    s.service.grants[p]? = some grant ∨ LineApproves d p line s := by
  rcases hparse : parseLine line with ⟨id, e | c⟩
  · simp only [dispatchLine, hparse] at h
    exact .inl h
  simp only [dispatchLine, hparse] at h
  rcases runCommand_cases d id c s with ⟨hservice, -⟩ | ⟨call, s', hservice, hrun, happrove, -⟩
  · rw [hservice] at h
    exact .inl h
  rw [hrun] at h
  rcases (serviceStep_outcome d.cfg ⟨call, d.backends.clock⟩ s').grants h with h |
    ⟨requestId, approverId, key, nonce, request, expiry, hcall, hkey, hticket, hrequest, hother, -⟩
  · rw [hservice] at h
    exact .inl h
  · obtain ⟨grantTtlMillis, hcall, hreply⟩ := hcall
    rw [hservice] at hticket hrequest
    have hline : (parseLine line).2 =
        .ok (.approve requestId approverId key nonce grantTtlMillis) := by
      rw [hparse]
      exact congrArg Except.ok (happrove _ _ _ _ _ hcall)
    have hanswer : (serveCall d id call s').1.response = respond id
        (serviceStep d.cfg ⟨call, d.backends.clock⟩ s').1.reply := rfl
    refine .inr ⟨requestId, approverId, key, nonce, request, ⟨grantTtlMillis, hline⟩, hkey,
      hticket, hrequest, hother, ?_⟩
    simp only [dispatchLine, hparse, hrun]
    rw [hanswer, hreply]
    rfl

/-- The connection is called for an apply of a proposal with a grant. -/
theorem dispatchLine_calls {d : Daemon ω} {line : Line} {s : DaemonState ω}
    (h : (dispatchLine d line s).1.log ≠ []) :
    ∃ p confirmRows confirmToken grant,
      (parseLine line).2 = .ok (.apply p confirmRows confirmToken) ∧
        s.service.grants[p]? = some grant := by
  rcases hparse : parseLine line with ⟨id, e | c⟩
  · simp only [dispatchLine, hparse] at h
    exact absurd rfl h
  simp only [dispatchLine, hparse] at h
  rcases runCommand_cases d id c s with ⟨-, hlog⟩ | ⟨call, s', hservice, hrun, -, happly⟩
  · exact absurd hlog h
  rw [hrun] at h
  obtain ⟨p, confirmRows, confirmToken, conn, barrier, -, -, -, -, grant, hcall, -, -, hgrant, -⟩ :=
    (serviceStep_outcome d.cfg ⟨call, d.backends.clock⟩ s').reached h
  rw [hservice] at hgrant
  exact ⟨p, confirmRows, confirmToken, grant,
    congrArg Except.ok (happly _ _ _ _ _ hcall), hgrant⟩

/-! ## No grant without an approval -/

/-- Every grant of the service was approved in the history. -/
def GrantsApproved (d : Daemon ω)
    (history : List (SessionRecord ω))
    (s : DaemonState ω) : Prop :=
  ∀ p grant, s.service.grants[p]? = some grant → ∃ r ∈ history, Approves d p r

theorem grantsApproved_line {d : Daemon ω} {history : List (SessionRecord ω)} {line : Line}
    {s : DaemonState ω} {r : SessionRecord ω} (h : GrantsApproved d history s)
    (hr : ∀ p, LineApproves d p line s → Approves d p r) :
    GrantsApproved d (history ++ [r]) (dispatchLine d line s).2 := by
  intro p grant hgrant
  rcases dispatchLine_grants hgrant with hbefore | happroves
  · obtain ⟨r', hr', happroves⟩ := h p grant hbefore
    exact ⟨r', List.mem_append_left _ hr', happroves⟩
  · exact ⟨r, by simp, hr p happroves⟩

omit [Sha256] [Ed25519] [Sql] in
/-- The client has no line for an approval. -/
theorem requestLine_asks_nothing (client : ApplydConfig) (serial : Nat) (c : WireCall)
    (requestId approverId : String) (key : SigningKey) (nonce : String) :
    ¬ Asks (requestLine client serial c.call) requestId approverId key nonce := by
  intro ⟨grantTtlMillis, hline⟩
  rw [parseLine_requestLine] at hline
  cases hcall : c.call with
  | _ =>
      rw [hcall] at hline
      cases hline

theorem approvedBefore_line {d : Daemon ω} {client : ApplydConfig}
    {history : List (SessionRecord ω)} {line : Line} {s : DaemonState ω} {r : SessionRecord ω}
    (h : GrantsApproved d history s) (hr : handled client r = some (line, s)) :
    ApprovedBefore d client history r := by
  intro hcalls
  have hlog : (dispatchLine d line s).1.log ≠ [] := by
    rwa [connectionCalls, hr] at hcalls
  obtain ⟨p, confirmRows, confirmToken, grant, hline, hgrant⟩ := dispatchLine_calls hlog
  exact ⟨line, s, p, confirmRows, confirmToken, hr, hline, h p grant hgrant⟩

theorem grantsApproved_step {d : Daemon ω} {client : ApplydConfig}
    (history : List (SessionRecord ω)) (r : SessionRecord ω) (s s' : DaemonState ω)
    (hmoves : r.Moves (daemonServer d client) s s') (h : GrantsApproved d history s) :
    ApprovedBefore d client history r ∧ GrantsApproved d (history ++ [r]) s' := by
  have hquiet (r : SessionRecord ω) : GrantsApproved d (history ++ [r]) s := by
    intro p grant hgrant
    obtain ⟨r', hr', happroves⟩ := h p grant hgrant
    exact ⟨r', List.mem_append_left _ hr', happroves⟩
  cases r with
  | ran n attempt serial c before =>
      obtain ⟨rfl, rfl⟩ := hmoves
      refine ⟨approvedBefore_line h rfl, grantsApproved_line h ?_⟩
      intro p happroves
      obtain ⟨requestId, approverId, key, nonce, request, hasks, -⟩ := happroves
      exact absurd hasks (requestLine_asks_nothing client serial c _ _ _ _)
  | touched line before =>
      obtain ⟨rfl, rfl⟩ := hmoves
      cases line with
      | none => exact ⟨fun hcalls => absurd rfl hcalls, hquiet _⟩
      | some line =>
          exact ⟨approvedBefore_line h rfl, grantsApproved_line h fun p happroves => happroves⟩
  | called n c =>
      cases hmoves
      exact ⟨fun hcalls => absurd rfl hcalls, hquiet _⟩
  | lostFirst n =>
      cases hmoves
      exact ⟨fun hcalls => absurd rfl hcalls, hquiet _⟩
  | returned n outcome =>
      cases hmoves
      exact ⟨fun hcalls => absurd rfl hcalls, hquiet _⟩
  | silent =>
      cases hmoves
      exact ⟨fun hcalls => absurd rfl hcalls, hquiet _⟩

/-- In every session the apply connection is called only for an apply of a proposal that
another socket approved before with the configured key; no line of the client is an
approval. -/
theorem session_needs_approval (d : Daemon ω) (client : ApplydConfig) (seq : Nat) (w : ω)
    (events : List (Event WireCall (Option Line))) :
    EveryStep (ApprovedBefore d client) (session d client seq w events) ∧
      ∀ n attempt serial c s, .ran n attempt serial c s ∈ session d client seq w events →
        ∀ requestId approverId key nonce,
          ¬ Asks (requestLine client serial c.call) requestId approverId key nonce := by
  have hstart : GrantsApproved d [] (⟨.new, seq, w⟩ : DaemonState ω) := by
    intro p grant hgrant
    simp [Service.new] at hgrant
  constructor
  · exact (server_rule (daemonServer d client) (GrantsApproved d) _ grantsApproved_step hstart
      events).2
  · intro n attempt serial c s _
    exact requestLine_asks_nothing client serial c

/-! ## The service of a session -/

/-- The call of the service that a command is; none where the daemon answers by itself. -/
def serviceCall (d : Daemon ω) (c : Command) (s : DaemonState ω) :
    Option (ServiceCall ω × DaemonState ω) :=
  match c with
  | .propose sql expectedRows role sessionId =>
      some (.propose sql expectedRows role sessionId, s)
  | .dryRun p => some (.dryRun p d.backends.rehearsal, s)
  | .requestElevation p reason => some (.requestElevation p reason, s)
  | .approve requestId approverId key nonce grantTtlMillis =>
      some (.approve requestId approverId key nonce grantTtlMillis, s)
  | .apply p confirmRows confirmToken =>
      match applySqlFor p d.backends.clock s with
      | (none, _) => none
      | (some statement, s') =>
          some (.apply p confirmRows confirmToken (d.backends.connFor statement) .noop, s')
  | .getAudit _ => none

/-- What the service did for a record of the session. -/
def serviceRecord (d : Daemon ω) (client : ApplydConfig) (r : SessionRecord ω) :
    Option (ServiceRecord ω) :=
  match handled client r with
  | some (line, s) =>
      match (parseLine line).2 with
      | .ok c => (serviceCall d c s).map fun i =>
          (serviceStep d.cfg ⟨i.1, d.backends.clock⟩ i.2).1
      | .error _ => none
  | none => none

/-- The run of the service in a session. -/
def serviceRecords (d : Daemon ω) (client : ApplydConfig) (history : List (SessionRecord ω)) :
    List (ServiceRecord ω) :=
  history.filterMap (serviceRecord d client)

theorem serviceRecords_snoc (d : Daemon ω) (client : ApplydConfig)
    (history : List (SessionRecord ω)) (r : SessionRecord ω) :
    serviceRecords d client (history ++ [r]) =
      serviceRecords d client history ++ (serviceRecord d client r).toList := by
  rw [serviceRecords, List.filterMap_append]
  cases h : serviceRecord d client r with
  | none => simp [serviceRecords, h]
  | some x => simp [serviceRecords, h]

omit [Texts] in
/-- A command is its call of the service, or leaves the service alone. -/
theorem runCommand_serviceCall (d : Daemon ω) (id : Json) (c : Command) (s : DaemonState ω) :
    (serviceCall d c s = none ∧ (runCommand d id c s).2.service = s.service ∧
        (runCommand d id c s).1.log = []) ∨
      ∃ call s', serviceCall d c s = some (call, s') ∧ s'.service = s.service ∧
        KeysOfOneArityIn call ∧ runCommand d id c s = serveCall d id call s' := by
  cases c with
  | propose sql expectedRows role sessionId => exact .inr ⟨_, _, rfl, rfl, nofun, rfl⟩
  | dryRun p => exact .inr ⟨_, _, rfl, rfl, nofun, rfl⟩
  | requestElevation p reason => exact .inr ⟨_, _, rfl, rfl, nofun, rfl⟩
  | approve requestId approverId key nonce grantTtlMillis =>
      exact .inr ⟨_, _, rfl, rfl, nofun, rfl⟩
  | apply p confirmRows confirmToken =>
      have hservice : (applySqlFor p d.backends.clock s).2.service = s.service := by
        unfold applySqlFor
        split <;> rfl
      rcases hsql : applySqlFor p d.backends.clock s with ⟨_ | statement, s'⟩
      · rw [hsql] at hservice
        left
        simp only [serviceCall, runCommand, hsql]
        exact ⟨trivial, hservice, trivial⟩
      · rw [hsql] at hservice
        right
        simp only [serviceCall, runCommand, hsql]
        refine ⟨_, s', rfl, hservice, ?_, rfl⟩
        intro p' confirmRows' confirmToken' conn barrier hcall
        cases hcall
        exact d.backends.keys statement
  | getAudit limit => exact .inl ⟨rfl, rfl, rfl⟩

/-- What a record did to the service is what its call of the service did, and the calls of the
connection are those of that call. -/
theorem serviceRecord_moves {d : Daemon ω} {client : ApplydConfig} {r : SessionRecord ω}
    {s s' : DaemonState ω} (h : r.Moves (daemonServer d client) s s') :
    (serviceRecord d client r = none ∧ s'.service = s.service ∧
        connectionCalls d client r = []) ∨
      ∃ x, serviceRecord d client r = some x ∧ Outcome d.cfg s.service x s'.service ∧
        Consumes x s'.service ∧ connectionCalls d client r = x.log := by
  have hline (line : Line) (hhandled : handled client r = some (line, s))
      (hs' : s' = (dispatchLine d line s).2) :
      (serviceRecord d client r = none ∧ s'.service = s.service ∧
          connectionCalls d client r = []) ∨
        ∃ x, serviceRecord d client r = some x ∧ Outcome d.cfg s.service x s'.service ∧
          Consumes x s'.service ∧ connectionCalls d client r = x.log := by
    subst hs'
    simp only [serviceRecord, connectionCalls, hhandled]
    rcases hparse : parseLine line with ⟨id, e | c⟩
    · left
      simp only [dispatchLine, hparse, and_self]
    simp only [dispatchLine, hparse]
    rcases runCommand_serviceCall d id c s with ⟨hnone, hservice, hlog⟩ |
      ⟨call, s₁, hcall, hservice, hkeys, hrun⟩
    · left
      simp only [hnone, Option.map_none, true_and]
      exact ⟨hservice, hlog⟩
    · right
      rw [hcall, hrun, ← hservice]
      have houtcome := serviceStep_outcome d.cfg ⟨call, d.backends.clock⟩ s₁
      exact ⟨_, rfl, houtcome, consumes_of_keys houtcome hkeys, rfl⟩
  cases r with
  | ran n attempt serial c before =>
      obtain ⟨rfl, hs'⟩ := h
      exact hline _ rfl hs'
  | touched line before =>
      obtain ⟨rfl, hs'⟩ := h
      cases line with
      | none => exact .inl ⟨rfl, congrArg DaemonState.service hs', rfl⟩
      | some line => exact hline line rfl hs'
  | called n c => exact .inl ⟨rfl, congrArg DaemonState.service h, rfl⟩
  | lostFirst n => exact .inl ⟨rfl, congrArg DaemonState.service h, rfl⟩
  | returned n outcome => exact .inl ⟨rfl, congrArg DaemonState.service h, rfl⟩
  | silent => exact .inl ⟨rfl, congrArg DaemonState.service h, rfl⟩

/-- What a session keeps of the life of the proposals. -/
def SessionLifecycle (d : Daemon ω) (client : ApplydConfig) (history : List (SessionRecord ω))
    (s : DaemonState ω) : Prop :=
  (mintedIds (serviceRecords d client history)).Nodup →
    Lifecycle d.cfg (serviceRecords d client history) s.service ∧
      EveryStep (Preceded d.cfg) (serviceRecords d client history)

theorem sessionLifecycle_step {d : Daemon ω} {client : ApplydConfig}
    (history : List (SessionRecord ω)) (r : SessionRecord ω) (s s' : DaemonState ω)
    (hmoves : r.Moves (daemonServer d client) s s') (h : SessionLifecycle d client history s) :
    True ∧ SessionLifecycle d client (history ++ [r]) s' := by
  refine ⟨trivial, ?_⟩
  rw [SessionLifecycle, serviceRecords_snoc]
  rcases serviceRecord_moves hmoves with ⟨hnone, hservice, -⟩ |
    ⟨x, hsome, houtcome, hconsumes, -⟩
  · rw [hnone, Option.toList_none, List.append_nil, hservice]
    exact h
  · rw [hsome, Option.toList_some]
    intro hids
    have hpast : (mintedIds (serviceRecords d client history)).Nodup := by
      have happend := hids
      rw [mintedIds_append] at happend
      exact (List.nodup_append.mp happend).1
    obtain ⟨hlife, hpreceded⟩ := h hpast
    obtain ⟨hnow, hafter⟩ := lifecycle_step houtcome hconsumes hids hlife
    exact ⟨hafter, hpreceded.snoc hnow⟩

/-- In every session in which no proposal id is minted twice, whatever is lost, repeated or
sent over other sockets: a proposal is committed at most once, and what is committed was
proposed, rehearsed, ticketed and approved before. -/
theorem session_lifecycle_safe (d : Daemon ω) (client : ApplydConfig) (seq : Nat) (w : ω)
    (events : List (Event WireCall (Option Line)))
    (hids : (mintedIds (serviceRecords d client (session d client seq w events))).Nodup) :
    let history := serviceRecords d client (session d client seq w events)
    EveryStep (Preceded d.cfg) history ∧ ∀ p, commitsOf p history ≤ 1 := by
  have hstart : SessionLifecycle d client [] (⟨.new, seq, w⟩ : DaemonState ω) :=
    fun _ => ⟨lifecycle_new d.cfg, everyStep_nil _⟩
  obtain ⟨hlife, hpreceded⟩ := (server_rule (daemonServer d client) (SessionLifecycle d client) _
    sessionLifecycle_step hstart events).1 hids
  exact ⟨hpreceded, hlife.once⟩

/-! ## A session with a lost answer -/

/-- The connection of `accountsDaemon`. -/
def accountsConn : ApplyConn Unit :=
  .scripted GrantSingleUse.plainForward [⟨"public.accounts", 0, 2, 0⟩]

omit [Texts] [Sha256] [Ed25519] [Sql] in
theorem accountsConn_keysOfOneArity : KeysOfOneArity accountsConn := by
  intro kind relation cascades w forward w' h
  cases h
  decide

/-- The daemon of `accountsDaemon`, with the one connection. -/
def accountsBackends : Daemon Unit where
  cfg := accountsDaemon
  backends :=
    { rehearsal := accountsRehearsal
      connFor := fun _ => accountsConn
      clock := ⟨fun w => (0, w), fun w => (0, w)⟩
      keys := fun _ => accountsConn_keysOfOneArity }
  loadChain := fun _ => .ok []

/-- The approval, as an operator sends it. -/
def approvalLine : Line :=
  .value (.struct [("id", some (writeNat 1)), ("jsonrpc", some (.text "2.0")),
    ("method", some (.text "approve")),
    ("params", some (.struct [("request_id", some (.text "req-00000001")),
      ("approver_id", some (.text "alice")),
      ("signing_key_hex", some (.text (String.join (List.replicate 32 "07")))),
      ("nonce", some (.text "n1")), ("grant_ttl_millis", some (writeNat 1000))]))])

/-- A proposal on its way to the apply, the answer of which is lost. -/
def accountsEvents : List (Event WireCall (Option Line)) :=
  [ .call ⟨.propose GrantSingleUse.accountsBinding.statementText none, nofun⟩
  , .dialOk, .write, .serve 0, .read
  , .call ⟨.dryRun accountsId, trivial⟩, .write, .serve 0, .read
  , .call ⟨.requestElevation accountsId "first", trivial⟩, .write, .serve 0, .read
  , .other (some approvalLine)
  , .call ⟨.apply accountsId 2 none, by decide⟩, .write, .serve 0, .lose "reset"
  , .dialOk, .write, .serve 1, .read ]

omit [Texts] [Sha256] [Ed25519] [Sql] in
/-- The first line committed, the second found nothing to apply. -/
theorem session_lifecycle_safe_accounts :
    letI : Texts := ⟨fun _ => "", fun _ _ => "", id, id⟩
    letI := Sha256.standard
    letI := GrantSingleUse.sharedBytes
    letI := accountsSql
    let client : ApplydConfig := ⟨"/run/applyd.sock", "app", "agent", 1000⟩
    let history := serviceRecords accountsBackends client
      (session accountsBackends client 0 () accountsEvents)
    (EveryStep (Preceded accountsBackends.cfg) history ∧ ∀ p, commitsOf p history ≤ 1) ∧
      commitsOf accountsId history = 1 := by
  let _ : Texts := ⟨fun _ => "", fun _ _ => "", id, id⟩
  let _ := Sha256.standard
  let _ := GrantSingleUse.sharedBytes
  let _ := accountsSql
  intro client history
  have hrun : mintedIds history = [accountsId] ∧ commitsOf accountsId history = 1 := by
    decide +kernel
  refine ⟨session_lifecycle_safe accountsBackends client 0 () accountsEvents ?_, hrun.2⟩
  exact hrun.1 ▸ List.nodup_singleton _

end Session

end PgBrakes.Ports.McpSession
