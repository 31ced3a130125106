import PgBrakes.Ports.AuditJson
import PgBrakes.Ports.CloneLedger
import PgBrakes.Ports.McpClient

/-!
# The lines of the write daemon

`serve_connection` and `dispatch_line` of `crates/applyd/src/main.rs` with the requests and
responses of `protocol.rs`, and the other end of the line: the requests that `call` of
`crates/mcp/src/applyd.rs` writes, and how it reads an answer.

A line that is no JSON at all comes with the error of the crate.  A record that the source
turns into a value first (`json!`, `to_value`) has its members in the order of their names.

## Main results

* `dispatchLine_requestLine` — the line of a call is dispatched as that call.
* `readOutcome_respond` — the answer of the service, read back by the client.
* `call_over_wire` — both: the lines in between are not seen.
-/

namespace PgBrakes.Ports.ApplydWire

open PgBrakes.Verified.JsonValue
open PgBrakes.Ports.GuardedApply
open PgBrakes.Ports.GuardedApplyAtomicity
open PgBrakes.Ports.SqlAst
open PgBrakes.Ports.Grant
open PgBrakes.Ports.GrantedApply
open PgBrakes.Ports.KeyChecksum
open PgBrakes.Ports.Approval
open PgBrakes.Ports.ApplyService
open PgBrakes.Ports.ServiceRun
open PgBrakes.Ports.McpClient

variable {ω : Type}

/-- What the `serde_json` and `hex` crates and the formatter display. -/
class Texts where
  request : Json → String
  params : String → Json → String
  hex : String → String
  debugStr : String → String

/-! ## Numbers -/

def writeNat (n : Nat) : Json := .number (toString n)

/-- A `u64`. -/
def readNat (v : Json) : Option Nat := (Audit.readU64 v).map UInt64.toNat

theorem readNat_writeNat {n : Nat} (h : n < 2 ^ 64) : readNat (writeNat n) = some n := by
  have hmod : (UInt64.ofNat n).toNat = n := by
    rw [UInt64.toNat_ofNat']
    omega
  have hread := Audit.readU64_jsonU64 (UInt64.ofNat n)
  rw [Audit.jsonU64, hmod] at hread
  rw [readNat, writeNat, hread, Option.map_some, hmod]

/-! ## Requests -/

structure Request where
  jsonrpc : String
  id : Json
  method : String
  params : Json

def Request.fromJson (v : Json) : Option Request := do
  let field ← v.fields ["jsonrpc", "id", "method", "params"]
  let jsonrpc ← required readText (field "jsonrpc")
  let id ← orDefault .null some (field "id")
  let method ← required readText (field "method")
  let params ← orDefault .null some (field "params")
  return ⟨jsonrpc, id, method, params⟩

inductive Method where
  | propose
  | dryRun
  | requestElevation
  | approve
  | apply
  | getAudit
deriving DecidableEq

/-- Another name is no method. -/
def Method.parse : String → Option Method
  | "propose" => some .propose
  | "dry_run" => some .dryRun
  | "request_elevation" => some .requestElevation
  | "approve" => some .approve
  | "apply" => some .apply
  | "get_audit" => some .getAudit
  | _ => none

structure ProposeParams where
  sql : String
  expectedRows : Option Nat
  role : String
  sessionId : String

def ProposeParams.fromValue (v : Json) : Option ProposeParams := do
  let field ← v.valueFields ["sql", "expected_rows", "role", "session_id"]
  let sql ← required readText (field "sql")
  let expectedRows ← orDefault none (readOption readNat) (field "expected_rows")
  let role ← required readText (field "role")
  let sessionId ← required readText (field "session_id")
  return ⟨sql, expectedRows, role, sessionId⟩

structure DryRunParams where
  proposalId : String

def DryRunParams.fromValue (v : Json) : Option DryRunParams := do
  let field ← v.valueFields ["proposal_id"]
  let proposalId ← required readText (field "proposal_id")
  return ⟨proposalId⟩

structure RequestElevationParams where
  proposalId : String
  reason : String

def RequestElevationParams.fromValue (v : Json) : Option RequestElevationParams := do
  let field ← v.valueFields ["proposal_id", "reason"]
  let proposalId ← required readText (field "proposal_id")
  let reason ← orDefault "" readText (field "reason")
  return ⟨proposalId, reason⟩

structure ApproveParams where
  requestId : String
  approverId : String
  signingKeyHex : String
  nonce : String
  grantTtlMillis : Nat

def ApproveParams.fromValue (v : Json) : Option ApproveParams := do
  let field ← v.valueFields
    ["request_id", "approver_id", "signing_key_hex", "nonce", "grant_ttl_millis"]
  let requestId ← required readText (field "request_id")
  let approverId ← required readText (field "approver_id")
  let signingKeyHex ← required readText (field "signing_key_hex")
  let nonce ← required readText (field "nonce")
  let grantTtlMillis ← required readNat (field "grant_ttl_millis")
  return ⟨requestId, approverId, signingKeyHex, nonce, grantTtlMillis⟩

structure ApplyParams where
  proposalId : String
  confirmRows : Nat
  confirmToken : Option String

def ApplyParams.fromValue (v : Json) : Option ApplyParams := do
  let field ← v.valueFields ["proposal_id", "confirm_rows", "confirm_token"]
  let proposalId ← required readText (field "proposal_id")
  let confirmRows ← required readNat (field "confirm_rows")
  let confirmToken ← orDefault none (readOption readText) (field "confirm_token")
  return ⟨proposalId, confirmRows, confirmToken⟩

structure GetAuditParams where
  limit : Option Nat

def GetAuditParams.fromValue (v : Json) : Option GetAuditParams := do
  let field ← v.valueFields ["limit"]
  let limit ← orDefault none (readOption readNat) (field "limit")
  return ⟨limit⟩

/-- `parse_signing_key`: the seed in hex digits. -/
def parseSigningKey [Texts] (hex : String) : Except String SigningKey :=
  match hexDecode (CloneLedger.trim hex.toList) with
  | none => .error (Texts.hex hex)
  | some bytes =>
      if bytes.length = 32 then .ok ⟨bytes⟩
      else .error "signing key must be 32 bytes (64 hex chars)"

/-! ## Responses -/

structure Response where
  jsonrpc : String
  id : Json
  result : Option Json
  error : Option RpcError

def Response.ok (id result : Json) : Response := ⟨"2.0", id, some result, none⟩

def Response.err (id : Json) (error : RpcError) : Response := ⟨"2.0", id, none, some error⟩

def blockDataJson (d : BlockData) : Json :=
  .struct [("code", some (.text d.code)), ("remedy", some (.text d.remedy)),
    ("retryable", some (.bool d.retryable))]

def rpcErrorJson (e : RpcError) : Json :=
  .struct [("code", some (.number (toString e.code))), ("message", some (.text e.message)),
    ("data", some (blockDataJson e.data))]

def Response.toJson (r : Response) : Json :=
  .struct [("jsonrpc", some (.text r.jsonrpc)), ("id", some r.id), ("result", r.result),
    ("error", r.error.map rpcErrorJson)]

/-- The result of a method. -/
def payloadJson : Payload → Json
  | .proposed r =>
      .struct [("proposal_id", some (.text r.proposalId)),
        ("ttl_millis", some (writeNat r.ttlMillis))]
  | .dryRan r =>
      .struct [("confirm_token", some (.text r.confirmToken)),
        ("pk_set_checksum", some (.text r.pkSetChecksum)),
        ("reversible", some (.bool r.reversible)), ("total_rows", some (writeNat r.totalRows))]
  | .elevated r =>
      .struct [("cap_max_rows", some (writeNat r.capMaxRows)),
        ("cap_max_wal_bytes", some (writeNat r.capMaxWalBytes)),
        ("request_id", some (.text r.requestId)),
        ("side_effecting_triggers", some (.array (r.sideEffectingTriggers.map .text))),
        ("ttl_millis", some (writeNat r.ttlMillis))]
  | .approved r =>
      .struct [("nonce", some (.text r.nonce)), ("request_id", some (.text r.requestId))]
  | .applied r =>
      .struct [("applied", some (.bool r.applied)), ("reversible", some (.bool r.reversible)),
        ("rows_written", some (writeNat r.rowsWritten))]

/-- `to_response`. -/
def respond (id : Json) : Except RpcError Reply → Response
  | .ok reply => .ok id (payloadJson (payloadOf reply))
  | .error e => .err id e

/-- An error of the transport. -/
def requestError (code : Int) (message dataCode remedy : String) : RpcError :=
  ⟨code, message, ⟨dataCode, remedy, false⟩⟩

def invalidRequestCode : Int := -32600

def methodNotFoundCode : Int := -32601

def invalidParamsCode : Int := -32602

def malformedLine (e : String) : RpcError :=
  requestError invalidRequestCode ("malformed JSON-RPC line: " ++ e) "INVALID_REQUEST"
    "send one JSON-RPC 2.0 object per line"

def wrongVersion [Texts] (jsonrpc : String) : RpcError :=
  requestError invalidRequestCode
    ("expected jsonrpc \"2.0\", got " ++ Texts.debugStr jsonrpc) "INVALID_REQUEST"
    "set jsonrpc to \"2.0\""

def noSuchMethod (method : String) : RpcError :=
  requestError methodNotFoundCode ("no such method: " ++ method) "METHOD_NOT_FOUND"
    "call propose/dry_run/request_elevation/approve/apply/get_audit"

def invalidParams (e : String) : RpcError :=
  requestError invalidParamsCode ("invalid params: " ++ e) "INVALID_PARAMS"
    "send the method's required params object"

def badSigningKey (e : String) : RpcError :=
  ErrorCode.grantRejected.error ("bad signing key: " ++ e)

/-! ## What a line asks for -/

/-- A line of a socket. -/
inductive Line where
  | malformed (error : String)
  | value (v : Json)

/-- What a well-formed line asks the service to do. -/
inductive Command where
  | propose (sql : String) (expectedRows : Option Nat) (role sessionId : String)
  | dryRun (proposalId : String)
  | requestElevation (proposalId reason : String)
  | approve (requestId approverId : String) (key : SigningKey) (nonce : String)
      (grantTtlMillis : Nat)
  | apply (proposalId : String) (confirmRows : Nat) (confirmToken : Option String)
  | getAudit (limit : Option Nat)

section Parse

variable [Texts]

/-- The parameters of a method, or the error of `invalid_params`. -/
def readParams {α : Type} (read : Json → Option α) (method : String) (params : Json) :
    Except RpcError α :=
  match read params with
  | some p => .ok p
  | none => .error (invalidParams (Texts.params method params))

/-- What a method does with its parameters. -/
def Method.command (m : Method) (method : String) (params : Json) : Except RpcError Command :=
  match m with
  | .propose => do
      let p ← readParams ProposeParams.fromValue method params
      return .propose p.sql p.expectedRows p.role p.sessionId
  | .dryRun => do
      let p ← readParams DryRunParams.fromValue method params
      return .dryRun p.proposalId
  | .requestElevation => do
      let p ← readParams RequestElevationParams.fromValue method params
      return .requestElevation p.proposalId p.reason
  | .approve => do
      let p ← readParams ApproveParams.fromValue method params
      match parseSigningKey p.signingKeyHex with
      | .ok key => return .approve p.requestId p.approverId key p.nonce p.grantTtlMillis
      | .error e => throw (badSigningKey e)
  | .apply => do
      let p ← readParams ApplyParams.fromValue method params
      return .apply p.proposalId p.confirmRows p.confirmToken
  | .getAudit => do
      let p ← readParams GetAuditParams.fromValue method params
      return .getAudit p.limit

def Request.command (req : Request) : Except RpcError Command :=
  if req.jsonrpc ≠ "2.0" then .error (wrongVersion req.jsonrpc)
  else
    match Method.parse req.method with
    | none => .error (noSuchMethod req.method)
    | some m => m.command req.method req.params

/-- The id and the command of a line.  A line that is no request has the id `null`. -/
def parseLine : Line → Json × Except RpcError Command
  | .malformed e => (.null, .error (malformedLine e))
  | .value v =>
      match Request.fromJson v with
      | none => (.null, .error (malformedLine (Texts.request v)))
      | some req => (req.id, req.command)

end Parse

/-! ## Dispatch -/

/-- The service behind the socket, and its view of the audit chain. -/
structure Daemon (ω : Type) where
  cfg : DaemonConfig ω
  backends : Backends ω
  loadChain : ω → Except SinkError (List Audit.AuditRecord)

/-- The debug form of a decision in capitals. -/
def decisionText : Decision → String
  | .allow => "ALLOW"
  | .block => "BLOCK"
  | .reject => "REJECT"

def auditRecordJson (r : Audit.AuditRecord) : Json :=
  .struct [("decision", some (.text (decisionText r.payload.decision))),
    ("reason_code", some (.text r.payload.reasonCode)),
    ("seq", some (writeNat r.payload.seq.toNat))]

/-- `audit_records`: the last records, none where the chain cannot be loaded. -/
def auditRecords (d : Daemon ω) (limit : Nat) (w : ω) : List Audit.AuditRecord :=
  match d.loadChain w with
  | .ok all => all.drop (all.length - limit)
  | .error _ => []

def getAudit (d : Daemon ω) (limit : Option Nat) (w : ω) : Json :=
  .struct [("records",
    some (.array ((auditRecords d (min (limit.getD 50) 1000) w).map auditRecordJson)))]

/-- The answer to a line, and the calls of the connection. -/
structure Dispatched where
  response : Response
  log : List ApplyCall

section Dispatch

variable [Texts] [Sha256] [Ed25519] [Sql]

/-- One call of the service, answered. -/
def serveCall (d : Daemon ω) (id : Json) (call : ServiceCall ω) (s : DaemonState ω) :
    Dispatched × DaemonState ω :=
  let out := serve d.cfg ⟨call, d.backends.clock⟩ s
  (⟨respond id out.1.reply, out.1.log⟩, out.2)

def runCommand (d : Daemon ω) (id : Json) (c : Command) (s : DaemonState ω) :
    Dispatched × DaemonState ω :=
  match c with
  | .propose sql expectedRows role sessionId =>
      serveCall d id (.propose sql expectedRows role sessionId) s
  | .dryRun p => serveCall d id (.dryRun p d.backends.rehearsal) s
  | .requestElevation p reason => serveCall d id (.requestElevation p reason) s
  | .approve requestId approverId key nonce grantTtlMillis =>
      serveCall d id (.approve requestId approverId key nonce grantTtlMillis) s
  | .apply p confirmRows confirmToken =>
      match applySqlFor p d.backends.clock s with
      | (none, s') => (⟨.err id proposalNotFound, []⟩, s')
      | (some statement, s') =>
          serveCall d id (.apply p confirmRows confirmToken (d.backends.connFor statement) .noop) s'
  | .getAudit limit => (⟨.ok id (getAudit d limit s.world), []⟩, s)

/-- `dispatch_line`: a line that is refused does not reach the service. -/
def dispatchLine (d : Daemon ω) (line : Line) (s : DaemonState ω) :
    Dispatched × DaemonState ω :=
  match parseLine line with
  | (id, .error e) => (⟨.err id e, []⟩, s)
  | (id, .ok c) => runCommand d id c s

/-- `serve_connection`, one line of it: a blank line is passed over. -/
def serveLine (d : Daemon ω) (line : Option Line) (s : DaemonState ω) :
    Option Dispatched × DaemonState ω :=
  match line with
  | none => (none, s)
  | some line => (some (dispatchLine d line s).1, (dispatchLine d line s).2)

end Dispatch

/-! ## What a line does -/

section Moves

variable [Sha256] [Ed25519] [Sql]

/-- A command leaves the service alone or is one call of it; an approval is an approval. -/
theorem runCommand_cases (d : Daemon ω) (id : Json) (c : Command) (s : DaemonState ω) :
    ((runCommand d id c s).2.service = s.service ∧ (runCommand d id c s).1.log = []) ∨
      ∃ call s', s'.service = s.service ∧ runCommand d id c s = serveCall d id call s' ∧
        (∀ requestId approverId key nonce grantTtlMillis,
          call = .approve requestId approverId key nonce grantTtlMillis →
            c = .approve requestId approverId key nonce grantTtlMillis) ∧
        ∀ p confirmRows confirmToken conn barrier,
          call = .apply p confirmRows confirmToken conn barrier →
            c = .apply p confirmRows confirmToken := by
  cases c with
  | propose sql expectedRows role sessionId =>
      exact .inr ⟨_, s, rfl, rfl, by simp, by simp⟩
  | dryRun p => exact .inr ⟨_, s, rfl, rfl, by simp, by simp⟩
  | requestElevation p reason => exact .inr ⟨_, s, rfl, rfl, by simp, by simp⟩
  | approve requestId approverId key nonce grantTtlMillis =>
      refine .inr ⟨_, s, rfl, rfl, fun _ _ _ _ _ heq => ?_, by simp⟩
      cases heq
      rfl
  | apply p confirmRows confirmToken =>
      have hservice : (applySqlFor p d.backends.clock s).2.service = s.service := by
        unfold applySqlFor
        split <;> rfl
      rcases hsql : applySqlFor p d.backends.clock s with ⟨_ | statement, s'⟩
      · rw [hsql] at hservice
        left
        simp only [runCommand, hsql]
        exact ⟨hservice, trivial⟩
      · rw [hsql] at hservice
        refine .inr ⟨.apply p confirmRows confirmToken (d.backends.connFor statement) .noop, s',
          hservice, ?_, by simp, fun _ _ _ _ _ heq => ?_⟩
        · simp only [runCommand, hsql]
        · cases heq
          rfl
  | getAudit limit => exact .inl ⟨rfl, rfl⟩

theorem runCommand_id (d : Daemon ω) (id : Json) (c : Command) (s : DaemonState ω) :
    (runCommand d id c s).1.response.id = id := by
  have hcall (call : ServiceCall ω) (s' : DaemonState ω) :
      (serveCall d id call s').1.response.id = id := by
    show (respond id _).id = id
    unfold respond
    split <;> rfl
  cases c with
  | propose sql expectedRows role sessionId => exact hcall _ _
  | dryRun p => exact hcall _ _
  | requestElevation p reason => exact hcall _ _
  | approve requestId approverId key nonce grantTtlMillis => exact hcall _ _
  | apply p confirmRows confirmToken =>
      rcases hsql : applySqlFor p d.backends.clock s with ⟨_ | statement, s'⟩
      · simp only [runCommand, hsql]
        rfl
      · simp only [runCommand, hsql]
        exact hcall _ _
  | getAudit limit => rfl

/-- The answer has the id of the line. -/
theorem dispatchLine_id [Texts] (d : Daemon ω) (line : Line) (s : DaemonState ω) :
    (dispatchLine d line s).1.response.id = (parseLine line).1 := by
  rcases hparse : parseLine line with ⟨id, e | c⟩
  · simp only [dispatchLine, hparse]
    rfl
  · simp only [dispatchLine, hparse]
    exact runCommand_id d id c s

end Moves

/-! ## The client's end -/

/-- A call whose numbers are of type `u64`. -/
structure WireCall where
  call : ClientCall
  fits : match call with
    | .propose _ expectedRows => ∀ n ∈ expectedRows, n < 2 ^ 64
    | .apply _ confirmRows _ => confirmRows < 2 ^ 64
    | _ => True

def paramsJson (client : ApplydConfig) : ClientCall → Json
  | .propose sql expectedRows =>
      .struct [("expected_rows", expectedRows.map writeNat), ("role", some (.text client.role)),
        ("session_id", some (.text client.sessionId)), ("sql", some (.text sql))]
  | .dryRun p => .struct [("proposal_id", some (.text p))]
  | .requestElevation p reason =>
      .struct [("proposal_id", some (.text p)), ("reason", some (.text reason))]
  | .apply p confirmRows confirmToken =>
      .struct [("confirm_rows", some (writeNat confirmRows)),
        ("confirm_token", confirmToken.map .text), ("proposal_id", some (.text p))]

/-- The line of a call, with the next number of the counter. -/
def requestLine (client : ApplydConfig) (serial : Nat) (c : ClientCall) : Line :=
  .value (.struct [("id", some (writeNat (serial % 2 ^ 64))), ("jsonrpc", some (.text "2.0")),
    ("method", some (.text c.method)), ("params", some (paramsJson client c))])

def readBlockData (v : Json) : Option BlockData := do
  let field ← v.fields ["code", "remedy", "retryable"]
  let code ← required readText (field "code")
  let remedy ← orDefault "" readText (field "remedy")
  let retryable ← orDefault false readBool (field "retryable")
  return ⟨code, remedy, retryable⟩

def readRpcError (v : Json) : Option RpcErrorWire := do
  let field ← v.fields ["message", "data"]
  let message ← orDefault "" readText (field "message")
  let data ← orDefault none (readOption readBlockData) (field "data")
  return ⟨message, data⟩

/-- What the client returns: the payload is passed on as it is. -/
inductive WireOutcome where
  | ok (payload : Json)
  | blocked (b : BlockContract)

def onWire : ApplydOutcome → WireOutcome
  | .ok payload => .ok (payloadJson payload)
  | .blocked b => .blocked b

structure WireResponse where
  result : Option Json
  error : Option RpcErrorWire

/-- The id is not looked at. -/
def WireResponse.fromJson (v : Json) : Option WireResponse := do
  let field ← v.fields ["result", "error"]
  let result ← orDefault none (readOption some) (field "result")
  let error ← orDefault none (readOption readRpcError) (field "error")
  return ⟨result, error⟩

/-- `map_response`. -/
def mapWire (resp : WireResponse) : WireOutcome :=
  match resp.error with
  | some err => .blocked (blockOf err)
  | none =>
      match resp.result with
      | some v => .ok v
      | none => onWire (mapResponse ⟨none, none⟩)

/-- What the client makes of the line that comes back; nothing of a line it cannot read. -/
def readOutcome (v : Json) : Option WireOutcome := (WireResponse.fromJson v).map mapWire

/-! ## The two ends agree -/

/-- The command of a call. -/
def commandOf (client : ApplydConfig) : ClientCall → Command
  | .propose sql expectedRows => .propose sql expectedRows client.role client.sessionId
  | .dryRun p => .dryRun p
  | .requestElevation p reason => .requestElevation p reason
  | .apply p confirmRows confirmToken => .apply p confirmRows confirmToken

theorem orDefault_map_nat {a : Option Nat} (h : ∀ n ∈ a, n < 2 ^ 64) :
    orDefault none (readOption readNat) (a.map writeNat) = some a :=
  orDefault_map (fun n hn => readNat_writeNat (h n hn)) (fun _ => Json.noConfusion)

theorem propose_params (client : ApplydConfig) (sql : String) {expectedRows : Option Nat}
    (h : ∀ n ∈ expectedRows, n < 2 ^ 64) :
    ProposeParams.fromValue (paramsJson client (.propose sql expectedRows)) =
      some ⟨sql, expectedRows, client.role, client.sessionId⟩ := by
  simp [ProposeParams.fromValue, paramsJson, valueFields_struct, List.lookup_cons,
    orDefault_map_nat h]

theorem dryRun_params (client : ApplydConfig) (p : String) :
    DryRunParams.fromValue (paramsJson client (.dryRun p)) = some ⟨p⟩ := by
  simp [DryRunParams.fromValue, paramsJson, valueFields_struct, List.lookup_cons]

theorem requestElevation_params (client : ApplydConfig) (p reason : String) :
    RequestElevationParams.fromValue (paramsJson client (.requestElevation p reason)) =
      some ⟨p, reason⟩ := by
  have hreason : orDefault "" readText (some (.text reason)) = some reason := rfl
  simp [RequestElevationParams.fromValue, paramsJson, valueFields_struct, List.lookup_cons,
    hreason]

theorem apply_params (client : ApplydConfig) (p : String) {confirmRows : Nat}
    (h : confirmRows < 2 ^ 64) (confirmToken : Option String) :
    ApplyParams.fromValue (paramsJson client (.apply p confirmRows confirmToken)) =
      some ⟨p, confirmRows, confirmToken⟩ := by
  simp [ApplyParams.fromValue, paramsJson, valueFields_struct, List.lookup_cons,
    readNat_writeNat h]

theorem request_fromJson (id params : Json) (method : String) :
    Request.fromJson (.struct [("id", some id), ("jsonrpc", some (.text "2.0")),
      ("method", some (.text method)), ("params", some params)]) =
      some ⟨"2.0", id, method, params⟩ := by
  have hvalue (v : Json) : orDefault .null some (some v) = some v := rfl
  simp [Request.fromJson, fields_struct_of_nodup, List.lookup_cons, hvalue]

section Agree

variable [Texts]

/-- The method and the parameters of a call name its command. -/
theorem command_of_call (client : ApplydConfig) (c : WireCall) :
    ∃ m, Method.parse c.call.method = some m ∧
      m.command c.call.method (paramsJson client c.call) = .ok (commandOf client c.call) := by
  obtain ⟨call, fits⟩ := c
  cases call with
  | propose sql expectedRows =>
      refine ⟨.propose, rfl, ?_⟩
      simp only [Method.command, readParams, propose_params client sql fits]
      rfl
  | dryRun p =>
      refine ⟨.dryRun, rfl, ?_⟩
      simp only [Method.command, readParams, dryRun_params]
      rfl
  | requestElevation p reason =>
      refine ⟨.requestElevation, rfl, ?_⟩
      simp only [Method.command, readParams, requestElevation_params]
      rfl
  | apply p confirmRows confirmToken =>
      refine ⟨.apply, rfl, ?_⟩
      simp only [Method.command, readParams, apply_params client p fits]
      rfl

theorem parseLine_requestLine (client : ApplydConfig) (serial : Nat) (c : WireCall) :
    parseLine (requestLine client serial c.call) =
      (writeNat (serial % 2 ^ 64), .ok (commandOf client c.call)) := by
  obtain ⟨m, hmethod, hcommand⟩ := command_of_call client c
  have hread := request_fromJson (writeNat (serial % 2 ^ 64)) (paramsJson client c.call)
    c.call.method
  simp only [requestLine, parseLine, hread, Request.command, hmethod, hcommand]
  rfl

end Agree

/-! ## The way back -/

theorem readRpcError_json (e : RpcError) :
    readRpcError (rpcErrorJson e) = some ⟨e.message, some e.data⟩ := by
  have htext (s : String) : orDefault "" readText (some (.text s)) = some s := rfl
  have hbool (b : Bool) : orDefault false readBool (some (.bool b)) = some b := rfl
  have hdata : readBlockData (blockDataJson e.data) = some e.data := by
    simp [readBlockData, blockDataJson, fields_struct_of_nodup, List.lookup_cons, htext, hbool]
  have hoption : orDefault none (readOption readBlockData) (some (blockDataJson e.data)) =
      some (some e.data) := by
    show (readBlockData (blockDataJson e.data)).map some = some (some e.data)
    rw [hdata]
    rfl
  simp [readRpcError, rpcErrorJson, fields_struct_of_nodup, List.lookup_cons, htext, hoption]

theorem wireResponse_ok (id : Json) (payload : Payload) :
    WireResponse.fromJson (Response.ok id (payloadJson payload)).toJson =
      some ⟨some (payloadJson payload), none⟩ := by
  have hresult : orDefault none (readOption some) (some (payloadJson payload)) =
      some (some (payloadJson payload)) := by
    cases payload with
    | _ => rfl
  have hmissing : orDefault none (readOption readRpcError) none = some none := rfl
  simp [WireResponse.fromJson, Response.ok, Response.toJson, fields_struct_of_nodup,
    List.lookup_cons, hresult, hmissing]

theorem wireResponse_err (id : Json) (e : RpcError) :
    WireResponse.fromJson (Response.err id e).toJson =
      some ⟨none, some ⟨e.message, some e.data⟩⟩ := by
  have herror : orDefault none (readOption readRpcError) (some (rpcErrorJson e)) =
      some (some ⟨e.message, some e.data⟩) := by
    show (readRpcError (rpcErrorJson e)).map some = _
    rw [readRpcError_json]
    rfl
  have hmissing : orDefault none (readOption some) none = some none := rfl
  simp [WireResponse.fromJson, Response.err, Response.toJson, fields_struct_of_nodup,
    List.lookup_cons, herror, hmissing]

/-- The answer of the service, as the client reads it. -/
theorem readOutcome_respond (id : Json) (reply : Except RpcError Reply) :
    readOutcome (respond id reply).toJson = some (onWire (mapResponse (toResponse reply))) := by
  cases reply with
  | ok reply =>
      rw [readOutcome, respond, wireResponse_ok]
      rfl
  | error e =>
      rw [readOutcome, respond, wireResponse_err]
      rfl

section Call

variable [Sha256] [Ed25519] [Sql]

/-- A command of the client is answered as the direct call. -/
theorem runCommand_call (d : Daemon ω) (client : ApplydConfig) (id : Json) (c : ClientCall)
    (s : DaemonState ω) :
    runCommand d id (commandOf client c) s =
      let direct := dispatch d.cfg d.backends client c s
      (⟨respond id direct.1.reply, direct.1.log⟩, direct.2) := by
  cases c with
  | propose sql expectedRows => rfl
  | dryRun p => rfl
  | requestElevation p reason => rfl
  | apply p confirmRows confirmToken =>
      rcases hsql : applySqlFor p d.backends.clock s with ⟨_ | statement, s'⟩
      · simp only [commandOf, runCommand, dispatch, hsql]
        rfl
      · simp only [commandOf, runCommand, dispatch, hsql]
        rfl

variable [Texts]

theorem dispatchLine_requestLine (d : Daemon ω) (client : ApplydConfig) (serial : Nat)
    (c : WireCall) (s : DaemonState ω) :
    dispatchLine d (requestLine client serial c.call) s =
      let direct := dispatch d.cfg d.backends client c.call s
      (⟨respond (writeNat (serial % 2 ^ 64)) direct.1.reply, direct.1.log⟩, direct.2) := by
  rw [dispatchLine, parseLine_requestLine]
  exact runCommand_call d client _ c.call s

/-- Between the client and the service the lines are not seen: a call does to the daemon what
the service does for it, and returns what the service answers. -/
theorem call_over_wire (d : Daemon ω) (client : ApplydConfig) (serial : Nat) (c : WireCall)
    (s : DaemonState ω) :
    let line := dispatchLine d (requestLine client serial c.call) s
    let direct := dispatch d.cfg d.backends client c.call s
    line.2 = direct.2 ∧ line.1.log = direct.1.log ∧
      line.1.response.id = writeNat (serial % 2 ^ 64) ∧
      readOutcome line.1.response.toJson =
        some (onWire (mapResponse (toResponse direct.1.reply))) := by
  intro line direct
  have hline : line = (⟨respond (writeNat (serial % 2 ^ 64)) direct.1.reply, direct.1.log⟩,
      direct.2) := dispatchLine_requestLine d client serial c s
  have hid : line.1.response.id = writeNat (serial % 2 ^ 64) := by
    rw [dispatchLine_id, parseLine_requestLine]
  refine ⟨?_, ?_, hid, ?_⟩
  · rw [hline]
  · rw [hline]
  · rw [hline]
    exact readOutcome_respond _ _

end Call

end PgBrakes.Ports.ApplydWire
