import PgBrakes.Ports.ApplydWire
import PgBrakes.Ports.McpProxy
import PgBrakes.Ports.ReadGate

/-!
# The tool server

`PgBrakesMcp::dispatch` of `crates/mcp/src/server.rs` with its nine tools, and the audit reader
of `crates/mcp/src/audit.rs`.  The read tools go over the proxy transport of `McpProxy`, the
write tools over the socket client of `McpClient`, whose answers are taken as they come.  What
a tool touches is logged: the events of the transport, the calls of the daemon and the reads of
the audit chain.

`tokio` runs tool calls side by side, but the transport and the socket client each serve one
call at a time behind a mutex, and a tool uses one of them once; so the calls are taken one
after the other.  A panic ends the task that serves a call, and leaves the mutex and what is
behind it as they are.

## Main results

* `run_touches` — over every sequence of tool calls: what is sent to the proxy, asked of the
  daemon and read of the chain, and over which connections.
* `dispatch_ends` — how a call ends: the members of a result do not depend on the data in it.
-/

namespace PgBrakes.Ports.McpServer

open PgBrakes.Verified.Effect
open PgBrakes.Verified.History
open PgBrakes.Verified.JsonValue
open PgBrakes.Verified.Redial
open PgBrakes.Ports.ApplyService
open PgBrakes.Ports.ApplydWire (writeNat readNat WireOutcome payloadJson decisionText)
open PgBrakes.Ports.McpClient
open PgBrakes.Ports.McpProxy
open PgBrakes.Ports.ReadAst (Parser)
open PgBrakes.Ports.ReadGate

variable {ω : Type}

/-! ## Arguments and results -/

/-- The arguments of a tool call. -/
abbrev Args := List (String × Json)

def Args.get (args : Args) (key : String) : Option Json := jsonGet key (.object args)

/-- `arg_str`: an argument that is missing or no text is empty. -/
def argStr (args : Args) (key : String) : String := ((args.get key).bind readText).getD ""

structure CallToolResult where
  isError : Bool
  structured : Json

def structuredOk (v : Json) : CallToolResult := ⟨false, v⟩

def blockJson (b : BlockContract) : Json :=
  .struct [("code", some (.text b.code)), ("reason", some (.text b.reason)),
    ("remedy", some (.text b.remedy)), ("retryable", some (.bool b.retryable)),
    ("status", some (.text "blocked"))]

def structuredBlock (b : BlockContract) : CallToolResult := ⟨true, blockJson b⟩

def toolNames : List String :=
  ["whoami", "discover_schema", "query", "explain_plan", "propose_write", "dry_run",
    "apply_write", "request_elevation", "get_audit"]

def boundary : String :=
  "the deterministic floor (proxy + WALL + applyd + warden) is the real " ++
    "security boundary; this MCP layer is cooperative and adds no privilege"

/-! ## The server -/

/-- How a read of the audit chain ends that brings no records: with an error, or with the task
that ran it. -/
inductive ReadFailure where
  | failed (detail : String)
  | panicked (detail : String)

structure PgBrakesMcp (ω : Type) where
  role : String
  sessionId : String
  proxy : Option (ProxyTransport ω)
  applyd : Option (ClientCall → ω → WireOutcome × ω)
  audit : Option (ω → Except ReadFailure (List Audit.AuditRecord) × ω)

/-- What a tool touches beside the proxy. -/
inductive Touch where
  | applyd (call : ClientCall)
  | audit (limit : Nat)

abbrev ToolEvent := Event String (List Row) BlockContract ⊕ Touch

structure McpError where
  message : String

/-- How a call of a tool ends without a result: with the error of an unknown tool, or with the
task that serves it. -/
inductive ToolFailure where
  | mcp (error : McpError)
  | panicked

abbrev Tool (ω : Type) := Eff (Logged (Line ω) ToolEvent) ToolFailure

/-- A call of the daemon. -/
def askApplyd (client : ClientCall → ω → WireOutcome × ω) (call : ClientCall) :
    Tool ω WireOutcome :=
  consult (fun l => ((client call l.world).1, { l with world := (client call l.world).2 }))
    fun _ => .inr (.applyd call)

def readChain (reader : ω → Except ReadFailure (List Audit.AuditRecord) × ω) (limit : Nat) :
    Tool ω (Except ReadFailure (List Audit.AuditRecord)) :=
  consult (fun l => ((reader l.world).1, { l with world := (reader l.world).2 }))
    fun _ => .inr (.audit limit)

def whoami (s : PgBrakesMcp ω) : Json :=
  .struct [("boundary", some (.text boundary)), ("role", some (.text s.role)),
    ("security_boundary", some (.bool false)), ("session_id", some (.text s.sessionId)),
    ("tools", some (.array (toolNames.map .text)))]

def noProxyBlock : BlockContract :=
  proxyUnavailable "no proxy endpoint is configured (set PGB_PROXY_HOST/PORT/DB/USER/PASSWORD)"

def noApplydBlock : BlockContract where
  code := "APPLYD_UNAVAILABLE"
  reason := "no applyd write daemon is configured (set PGB_APPLYD_SOCKET)"
  remedy := "configure the applyd socket path; retry once the write daemon is up"
  retryable := true

/-- What a tool makes of an answer: what it shows of it, or the block. -/
def resultOf {α : Type} (present : α → Json) : Except BlockContract α → CallToolResult
  | .ok v => structuredOk (present v)
  | .error block => structuredBlock block

/-! ## The read tools -/

def queryResult : ReadOutcome → CallToolResult
  | .rows rows rowCount => structuredOk (.struct [("rowCount", some (writeNat rowCount)),
      ("rows", some (.array rows)), ("status", some (.text "ok"))])
  | .blocked block => structuredBlock block

def planJson (p : PlanJson) : Json :=
  .struct [("cost", some (.number p.cost)), ("plan", some (.text p.plan)),
    ("status", some (.text "ok"))]

def schemaColumnJson (c : SchemaColumn) : Json :=
  .struct [("column", some (.text c.column)), ("data_type", some (.text c.dataType)),
    ("schema", some (.text c.schema)), ("table", some (.text c.table))]

def columnsJson (columns : List SchemaColumn) : Json :=
  .struct [("columns", some (.array (columns.map schemaColumnJson))),
    ("status", some (.text "ok"))]

def recordsJson (records : List Json) : Json :=
  .struct [("records", some (.array records)), ("status", some (.text "ok"))]

section Reads

variable [Parser]

def toolQuery (s : PgBrakesMcp ω) (sql : String) : Tool ω CallToolResult :=
  if classify sql ≠ .read then
    pure (structuredBlock (readOnly "write/DDL or stacked statement"))
  else
    match s.proxy with
    | none => pure (structuredBlock noProxyBlock)
    | some proxy => do
        let outcome ← proxy.query sql
        pure (queryResult outcome)

variable [JsonText]

def toolExplain (s : PgBrakesMcp ω) (sql : String) : Tool ω CallToolResult :=
  if classify sql ≠ .read then
    pure (structuredBlock (readOnly
      "write/DDL or stacked statement (explain_plan plans read-only statements)"))
  else
    match s.proxy with
    | none => pure (structuredBlock noProxyBlock)
    | some proxy => do
        let answer ← proxy.explain sql
        pure (resultOf planJson answer)

end Reads

def toolDiscoverSchema (s : PgBrakesMcp ω) : Tool ω CallToolResult :=
  match s.proxy with
  | none => pure (structuredBlock noProxyBlock)
  | some proxy => do
      let answer ← proxy.discoverSchema .panicked
      pure (resultOf columnsJson answer)

/-- `clamp_limit`. -/
def clampLimit (limit : Nat) : Nat := if limit = 0 then 50 else min limit 1000

/-- A record, as `get_audit` shows it. -/
def auditRecordView (r : Audit.AuditRecord) : Json :=
  .struct [("decision", some (.text (decisionText r.payload.decision))),
    ("seq", some (writeNat r.payload.seq.toNat)),
    ("statement_class", some (.text r.payload.reasonCode))]

def unreadable : ReadFailure → BlockContract
  | .failed detail =>
      { code := "AUDIT_UNAVAILABLE"
        reason := "the `_meta` audit tail could not be read: " ++ detail
        remedy := "the audit `_meta` DB may be unreachable or unconfigured; retry, " ++
          "or check PGB_META_DSN / the reader role's SELECT grant"
        retryable := true }
  | .panicked detail =>
      { code := "AUDIT_UNAVAILABLE"
        reason := "the audit read task failed: " ++ detail
        remedy := "retry the get_audit call"
        retryable := true }

def tailOf (limit : Nat) (chain : List Audit.AuditRecord) : List Json :=
  (chain.drop (chain.length - limit)).map auditRecordView

/-- `AuditReader::tail`: the last records of the chain. -/
def auditTail (reader : ω → Except ReadFailure (List Audit.AuditRecord) × ω) (limit : Nat) :
    Tool ω (Except BlockContract (List Json)) := do
  let chain ← readChain reader (clampLimit limit)
  pure ((chain.map (tailOf (clampLimit limit))).mapError unreadable)

def toolGetAudit (s : PgBrakesMcp ω) (limit : Nat) : Tool ω CallToolResult :=
  match s.audit with
  | none => pure (structuredBlock
      { code := "AUDIT_UNAVAILABLE"
        reason := "no `_meta` audit reader is configured (set PGB_META_DSN)"
        remedy := "configure the `_meta` reader DSN to read the audit tail"
        retryable := true })
  | some reader => do
      let answer ← auditTail reader limit
      pure (resultOf recordsJson answer)

/-! ## The write tools -/

/-- A member of the daemon's answer, or `null`. -/
def member (result : Json) (key : String) : Json := (jsonGet key result).getD .null

def proposeJson (result : Json) : Json :=
  .struct [("proposal_id", some (member result "proposal_id")), ("status", some (.text "ok")),
    ("ttl_millis", some (member result "ttl_millis"))]

/-- The verdict of the risk engine, which allows everything. -/
def riskJson : Json :=
  .struct [("confidence", some (.number "1.0")),
    ("reason", some (.text ("MVP stub: risk engine returns Allow; the deterministic floor " ++
      "enforces safety (SPEC §11.5)"))),
    ("verdict", some (.text "ALLOW"))]

def dryRunJson (result : Json) : Json :=
  .struct [("blast_radius", some (.struct
      [("pk_set_checksum", some (member result "pk_set_checksum")),
        ("reversible", some (.bool (((jsonGet "reversible" result).bind readBool).getD false))),
        ("total_rows", some (writeNat (((jsonGet "total_rows" result).bind readNat).getD 0)))])),
    ("confirm_token", some (member result "confirm_token")), ("risk", some riskJson),
    ("status", some (.text "ok"))]

def elevationJson (result : Json) : Json :=
  .struct [("cap_max_rows", some (member result "cap_max_rows")),
    ("cap_max_wal_bytes", some (member result "cap_max_wal_bytes")),
    ("request_id", some (member result "request_id")),
    ("side_effecting_triggers",
      some ((jsonGet "side_effecting_triggers" result).getD (.array []))),
    ("status", some (.text "ok")), ("ttl_millis", some (member result "ttl_millis"))]

def applyJson (result : Json) : Json :=
  .struct [("applied", some (.bool (((jsonGet "applied" result).bind readBool).getD true))),
    ("reversible", some (.bool (((jsonGet "reversible" result).bind readBool).getD false))),
    ("status", some (.text "ok"))]

/-- What a write tool returns for an answer of the daemon. -/
def writeResult (present : Json → Json) : WireOutcome → CallToolResult
  | .ok result => structuredOk (present result)
  | .blocked block => structuredBlock block

/-- The four write tools differ in the call and in what they show of its answer. -/
def toolWrite (s : PgBrakesMcp ω) (call : ClientCall) (present : Json → Json) :
    Tool ω CallToolResult :=
  match s.applyd with
  | none => pure (structuredBlock noApplydBlock)
  | some client => do
      let outcome ← askApplyd client call
      pure (writeResult present outcome)

def toolProposeWrite (s : PgBrakesMcp ω) (sql : String) (expectedRows : Option Nat) :
    Tool ω CallToolResult :=
  toolWrite s (.propose sql expectedRows) proposeJson

def toolDryRun (s : PgBrakesMcp ω) (proposalId : String) : Tool ω CallToolResult :=
  toolWrite s (.dryRun proposalId) dryRunJson

def toolRequestElevation (s : PgBrakesMcp ω) (proposalId reason : String) :
    Tool ω CallToolResult :=
  toolWrite s (.requestElevation proposalId reason) elevationJson

def confirmRequired : BlockContract where
  code := "CONFIRM_REQUIRED"
  reason := "apply requires confirm_rows: confirm the dry-run's affected row count first"
  remedy := "re-call apply_write with confirm_rows set to the dry_run blast_radius.total_rows"
  retryable := true

def toolApplyWrite (s : PgBrakesMcp ω) (proposalId : String) (confirmRows : Option Nat)
    (confirmToken : Option String) : Tool ω CallToolResult :=
  match confirmRows with
  | none => pure (structuredBlock confirmRequired)
  | some confirmRows => toolWrite s (.apply proposalId confirmRows confirmToken) applyJson

/-! ## Dispatch -/

section Dispatch

variable [Parser] [JsonText]

def dispatch (s : PgBrakesMcp ω) (name : String) (args : Args) : Tool ω CallToolResult :=
  match name with
  | "whoami" => pure (structuredOk (whoami s))
  | "query" => toolQuery s (argStr args "sql")
  | "explain_plan" => toolExplain s (argStr args "sql")
  | "discover_schema" => toolDiscoverSchema s
  | "get_audit" => toolGetAudit s (((args.get "limit").bind readNat).getD 0)
  | "propose_write" =>
      toolProposeWrite s (argStr args "sql") ((args.get "expected_rows").bind readNat)
  | "dry_run" => toolDryRun s (argStr args "proposal_id")
  | "request_elevation" =>
      toolRequestElevation s (argStr args "proposal_id") (argStr args "reason")
  | "apply_write" =>
      toolApplyWrite s (argStr args "proposal_id") ((args.get "confirm_rows").bind readNat)
        ((args.get "confirm_token").bind readText)
  | other => Eff.fail (.mcp ⟨"no such tool: " ++ other⟩)

/-- A call of a tool, and what it did. -/
structure ToolRecord where
  name : String
  args : Args
  result : Except ToolFailure CallToolResult
  touched : List ToolEvent

def toolStep (s : PgBrakesMcp ω) (call : String × Args) (l : Line ω) : ToolRecord × Line ω :=
  let out := dispatch s call.1 call.2 ⟨l, []⟩
  (⟨call.1, call.2, out.1, out.2.log⟩, out.2.world)

end Dispatch

/-! ## What a tool does -/

/-- How a tool ends and what it appends to the log satisfies `P`; it keeps the connections in
order. -/
def Ends {α : Type} (P : Except ToolFailure α → List ToolEvent → Prop) (m : Tool ω α) : Prop :=
  ∀ s, ∃ r es s', m s = (r, s') ∧ s'.log = s.log ++ es ∧ P r es ∧
    ∀ front, LineInv front s → LineInv front s'

/-- A tool that does not fail: what it returns and appends to the log satisfies `P`. -/
def Does {α : Type} (P : α → List ToolEvent → Prop) (m : Tool ω α) : Prop :=
  Ends (fun r es => ∃ a, r = .ok a ∧ P a es) m

section Does

variable {α β : Type} {P : α → List ToolEvent → Prop} {R : β → List ToolEvent → Prop}

theorem Ends.mono {Q Q' : Except ToolFailure α → List ToolEvent → Prop} {m : Tool ω α}
    (hm : Ends Q m) (h : ∀ r es, Q r es → Q' r es) : Ends Q' m := by
  intro s
  obtain ⟨r, es, s', hrun, hlog, hQ, hkeeps⟩ := hm s
  exact ⟨r, es, s', hrun, hlog, h r es hQ, hkeeps⟩

/-- The answer of a tool is only looked at. -/
theorem Ends.lift {Q : Except ToolFailure α → List ToolEvent → Prop}
    {Q' : Except ToolFailure β → List ToolEvent → Prop} {m : Tool ω α} {k : α → Tool ω β}
    (hm : Ends Q m) (hok : ∀ a, ∃ r, k a = Eff.lift r ∧ ∀ es, Q (.ok a) es → Q' r es)
    (herror : ∀ e es, Q (.error e) es → Q' (.error e) es) : Ends Q' (m >>= k) := by
  intro s
  obtain ⟨r, es, s', hrun, hlog, hQ, hkeeps⟩ := hm s
  cases r with
  | error e => exact ⟨.error e, es, s', Eff.bind_of_error hrun, hlog, herror e es hQ, hkeeps⟩
  | ok a =>
      obtain ⟨r, hr, hQ'⟩ := hok a
      refine ⟨r, es, s', ?_, hlog, hQ' es hQ, hkeeps⟩
      rw [Eff.bind_of_ok hrun, hr]
      rfl

theorem Does.pure {a : α} (h : P a []) : Does P (Pure.pure a : Tool ω α) :=
  fun s => ⟨.ok a, [], s, rfl, by simp, ⟨a, rfl, h⟩, fun _ hs => hs⟩

theorem Does.present {m : Tool ω α} {k : α → Tool ω β} (hm : Does P m)
    (hk : ∀ a, ∃ b, k a = Pure.pure b ∧ ∀ es, P a es → R b es) : Does R (m >>= k) := by
  refine Ends.lift hm (fun a => ?_) ?_
  · obtain ⟨b, hb, hR⟩ := hk a
    refine ⟨.ok b, hb, ?_⟩
    intro es hes
    obtain ⟨a', ha', hP⟩ := hes
    cases ha'
    exact ⟨b, rfl, hR es hP⟩
  · intro e es hes
    obtain ⟨a, ha, -⟩ := hes
    cases ha

theorem Does.read (t : ProxyTransport ω) (sql : String) :
    Does (fun answer es => Asks sql 2 answer es)
      (t.read sql : Tool ω (Except BlockContract (List Row))) := by
  intro s
  have htraces : Traces _ _ (t.read sql : Tool ω (Except BlockContract (List Row))) :=
    ProxyTransport.read_asks t sql
  have hkeeps (front : List (Event String (List Row) BlockContract)) :
      Eff.Keeps (LineInv front) (t.read sql : Tool ω (Except BlockContract (List Row))) :=
    ProxyTransport.read_keeps t front sql
  obtain ⟨es, hlog, ⟨answer, hanswer, hasks⟩, -⟩ := htraces s trivial
  exact ⟨.ok answer, es, _, Prod.ext hanswer rfl, hlog, ⟨answer, rfl, hasks⟩,
    fun front hs => hkeeps front s hs⟩

/-- A call of the daemon or a read of the chain is no event of the transport. -/
theorem Does.touch {act : Line ω → α × Line ω} {touch : Touch}
    (hact : ∀ l, (act l).2.held = l.held ∧ (act l).2.dials = l.dials) :
    Does (fun _ es => es = [.inr touch])
      (consult act fun _ => .inr touch : Tool ω α) := by
  intro s
  refine ⟨_, _, _, rfl, rfl, ⟨_, rfl, rfl⟩, ?_⟩
  intro front hs
  have hlog : wireLog (s.log ++ [(.inr touch : ToolEvent)]) = wireLog s.log := by
    rw [wireLog_append]
    exact List.append_nil _
  obtain ⟨hheld, hdials⟩ := hact s.world
  show Inv (front ++ wireLog (s.log ++ [(.inr touch : ToolEvent)])) (act s.world).2
  rw [hlog]
  refine ⟨?_, ?_, ?_, hs.orderly⟩
  · rw [hdials]
    exact hs.dialed
  · rw [hdials]
    exact hs.lost
  · rw [hheld]
    exact hs.held

end Does

/-! ## What a tool may touch -/

section Touches

variable [Parser]

/-- The statements that a tool may send: a text that is classified as a read, the plan of one,
or the fixed question for the schema. -/
def MaySend (name : String) (args : Args) (sql : String) : Prop :=
  (name = "query" ∧ sql = argStr args "sql" ∧ classify (argStr args "sql") = .read) ∨
  (name = "explain_plan" ∧ sql = ProxyTransport.explainSql (argStr args "sql") ∧
    classify (argStr args "sql") = .read) ∨
  (name = "discover_schema" ∧ sql = schemaSql)

/-- The calls of the daemon that a tool may make: an apply has the number of rows that was
confirmed. -/
def MayAsk (name : String) (args : Args) : ClientCall → Prop
  | .propose sql expectedRows => name = "propose_write" ∧ sql = argStr args "sql" ∧
      expectedRows = (args.get "expected_rows").bind readNat
  | .dryRun p => name = "dry_run" ∧ p = argStr args "proposal_id"
  | .requestElevation p reason => name = "request_elevation" ∧
      p = argStr args "proposal_id" ∧ reason = argStr args "reason"
  | .apply p confirmRows confirmToken => name = "apply_write" ∧
      p = argStr args "proposal_id" ∧
      (args.get "confirm_rows").bind readNat = some confirmRows ∧
      confirmToken = (args.get "confirm_token").bind readText

/-- A tool touches nothing, or one statement and its repetition, one call of the daemon, or the
chain. -/
inductive Touches (name : String) (args : Args) (r : CallToolResult) :
    List ToolEvent → Prop where
  | nothing : r.isError = true ∨ name = "whoami" → Touches name args r []
  | proxy (sql : String) (answer : Except BlockContract (List Row)) (es : List ToolEvent) :
      MaySend name args sql → Asks sql 2 answer es →
        (r.isError = false ↔ ∃ rows, answer = .ok rows) → Touches name args r es
  | daemon (call : ClientCall) : MayAsk name args call →
      Touches name args r [.inr (.applyd call)]
  | chain (limit : Nat) : name = "get_audit" → 0 < limit → limit ≤ 1000 →
      Touches name args r [.inr (.audit limit)]

/-- The members of a result that is no block. -/
def okNames : String → List String
  | "whoami" => ["boundary", "role", "security_boundary", "session_id", "tools"]
  | "query" => ["rowCount", "rows", "status"]
  | "explain_plan" => ["cost", "plan", "status"]
  | "discover_schema" => ["columns", "status"]
  | "get_audit" => ["records", "status"]
  | "propose_write" => ["proposal_id", "status", "ttl_millis"]
  | "dry_run" => ["blast_radius", "confirm_token", "risk", "status"]
  | "request_elevation" => ["cap_max_rows", "cap_max_wal_bytes", "request_id",
      "side_effecting_triggers", "status", "ttl_millis"]
  | "apply_write" => ["applied", "reversible", "status"]
  | _ => []

/-- A result is a block, marked as an error, or the members of its tool with the status `ok`;
only `whoami` has no status. -/
def Enveloped (name : String) (r : CallToolResult) : Prop :=
  (r.isError = true ∧ ∃ b, r.structured = blockJson b) ∨
    r.isError = false ∧ ∃ members, r.structured = .object members ∧
      members.map (·.1) = okNames name ∧
      (name = "whoami" ∨ members.lookup "status" = some (.text "ok"))

/-- What is shown of a tool, and what it touched. -/
def Proper (name : String) (args : Args) (r : CallToolResult) (es : List ToolEvent) : Prop :=
  Enveloped name r ∧ Touches name args r es

/-- How a call ends: with its result, or with the question for the schema in a panic, over an
answer with a row that describes no column. -/
def Concluded (name : String) (args : Args) (r : Except ToolFailure CallToolResult)
    (es : List ToolEvent) : Prop :=
  (∃ result, r = .ok result ∧ Proper name args result es) ∨
    name = "discover_schema" ∧ r = .error .panicked ∧
      ∃ rows, Asks schemaSql 2 (.ok rows) es ∧ ∃ row ∈ rows, schemaColumn row = none

variable {s : PgBrakesMcp ω} {name : String} {args : Args}

theorem Does.concluded {m : Tool ω CallToolResult} (h : Does (Proper name args) m) :
    Ends (Concluded name args) m :=
  Ends.mono h fun _ _ hr => .inl hr

theorem proper_block (b : BlockContract) : Proper name args (structuredBlock b) [] :=
  ⟨.inl ⟨rfl, b, rfl⟩, .nothing (.inl rfl)⟩

/-- A read tool: what it shows of the answer to its statement. -/
theorem proper_answer {sql : String} (hsend : MaySend name args sql)
    {answer : Except BlockContract (List Row)} {es : List ToolEvent} (hasks : Asks sql 2 answer es)
    {r : CallToolResult}
    (hok : ∀ rows, answer = .ok rows → ∃ members, r = structuredOk (.object members) ∧
      members.map (·.1) = okNames name ∧ members.lookup "status" = some (.text "ok"))
    (hblock : ∀ block, answer = .error block → r = structuredBlock block) :
    Proper name args r es := by
  rcases answer with block | rows
  · rw [hblock block rfl]
    refine ⟨.inl ⟨rfl, block, rfl⟩, .proxy sql _ es hsend hasks ?_⟩
    simp [structuredBlock]
  · obtain ⟨members, hresult, hnames, hstatus⟩ := hok rows rfl
    rw [hresult]
    refine ⟨.inr ⟨rfl, members, rfl, hnames, .inr hstatus⟩, .proxy sql _ es hsend hasks ?_⟩
    simp [structuredOk]

theorem proper_read {sql : String} (hsend : MaySend name args sql) (t : ProxyTransport ω)
    {α : Type} {f : Except BlockContract (List Row) → α} {g : α → CallToolResult}
    (hok : ∀ rows, ∃ members, g (f (.ok rows)) = structuredOk (.object members) ∧
      members.map (·.1) = okNames name ∧ members.lookup "status" = some (.text "ok"))
    (hblock : ∀ block, g (f (.error block)) = structuredBlock block) :
    Does (Proper name args) ((t.read sql >>= fun answer => pure (f answer)) >>=
      fun a => pure (g a) : Tool ω CallToolResult) := by
  have hread : Does (fun a es => ∃ answer, Asks sql 2 answer es ∧ a = f answer)
      (t.read sql >>= fun answer => pure (f answer) : Tool ω α) :=
    Does.present (Does.read t sql) fun answer => ⟨_, rfl, fun es h => ⟨answer, h, rfl⟩⟩
  refine Does.present hread fun a => ⟨_, rfl, ?_⟩
  intro es h
  obtain ⟨answer, hasks, rfl⟩ := h
  refine proper_answer hsend hasks ?_ ?_
  · rintro rows rfl
    exact hok rows
  · rintro block rfl
    exact hblock block

theorem query_does : Does (Proper "query" args) (toolQuery s (argStr args "sql")) := by
  unfold toolQuery
  split
  · exact Does.pure (proper_block _)
  next hread =>
    have hsend : MaySend "query" args (argStr args "sql") :=
      .inl ⟨rfl, rfl, Classical.not_not.mp hread⟩
    cases s.proxy with
    | none => exact Does.pure (proper_block _)
    | some proxy =>
        exact proper_read (f := ReadOutcome.ofAnswer) (g := queryResult) hsend proxy
          (fun rows => ⟨_, rfl, rfl, rfl⟩) fun _ => rfl

theorem explain_does [JsonText] :
    Does (Proper "explain_plan" args) (toolExplain s (argStr args "sql")) := by
  unfold toolExplain
  split
  · exact Does.pure (proper_block _)
  next hread =>
    have hsend : MaySend "explain_plan" args (ProxyTransport.explainSql (argStr args "sql")) :=
      .inr (.inl ⟨rfl, rfl, Classical.not_not.mp hread⟩)
    cases s.proxy with
    | none => exact Does.pure (proper_block _)
    | some proxy =>
        exact proper_read (f := (·.map planFromRows)) (g := resultOf planJson) hsend proxy
          (fun rows => ⟨_, rfl, rfl, rfl⟩) fun _ => rfl

theorem discoverSchema_ends :
    Ends (Concluded "discover_schema" args) (toolDiscoverSchema s) := by
  unfold toolDiscoverSchema
  cases s.proxy with
  | none => exact (Does.pure (proper_block _)).concluded
  | some proxy =>
      have hread : Ends (fun r es => ∃ answer, Asks schemaSql 2 answer es ∧
          r = schemaColumns .panicked answer)
          (proxy.discoverSchema .panicked : Tool ω (Except BlockContract (List SchemaColumn))) :=
        Ends.lift (Does.read proxy schemaSql)
          (fun answer => ⟨_, rfl, fun es ⟨answer', heq, hasks⟩ => by
            cases heq
            exact ⟨answer, hasks, rfl⟩⟩)
          fun e es ⟨answer, heq, _⟩ => by cases heq
      refine Ends.lift hread (fun shown => ⟨.ok (resultOf columnsJson shown), rfl, ?_⟩) ?_
      · intro es h
        obtain ⟨answer, hasks, hshown⟩ := h
        refine .inl ⟨_, rfl, proper_answer (.inr (.inr ⟨rfl, rfl⟩)) hasks ?_ ?_⟩
        · rintro rows rfl
          obtain ⟨columns, rfl⟩ := schemaColumns_ok hshown.symm
          exact ⟨_, rfl, rfl, rfl⟩
        · rintro block rfl
          cases hshown
          rfl
      · intro e es h
        obtain ⟨answer, hasks, hpanic⟩ := h
        obtain ⟨rfl, rows, rfl, hrow⟩ := schemaColumns_error_iff.mp hpanic.symm
        exact .inr ⟨rfl, rfl, rows, hasks, hrow⟩

theorem getAudit_does (limit : Nat) : Does (Proper "get_audit" args) (toolGetAudit s limit) := by
  have hclamp : 0 < clampLimit limit ∧ clampLimit limit ≤ 1000 := by
    unfold clampLimit
    split <;> omega
  unfold toolGetAudit
  cases s.audit with
  | none => exact Does.pure (proper_block _)
  | some reader =>
      have htail : Does (fun _ es => es = [.inr (.audit (clampLimit limit))])
          (auditTail reader limit) :=
        Does.present (Does.touch fun l => ⟨rfl, rfl⟩) fun chain => ⟨_, rfl, fun es h => h⟩
      refine Does.present htail fun answer => ⟨_, rfl, ?_⟩
      intro es hes
      subst hes
      refine ⟨?_, .chain _ rfl hclamp.1 hclamp.2⟩
      cases answer with
      | error block => exact .inl ⟨rfl, block, rfl⟩
      | ok records => exact .inr ⟨rfl, _, rfl, rfl, .inr rfl⟩

/-- A write tool: what it shows of the answer to its call. -/
theorem write_does {call : ClientCall} {present : Json → Json} (hcall : MayAsk name args call)
    (hok : ∀ result, ∃ members, present result = .object members ∧
      members.map (·.1) = okNames name ∧ members.lookup "status" = some (.text "ok")) :
    Does (Proper name args) (toolWrite s call present) := by
  unfold toolWrite
  cases s.applyd with
  | none => exact Does.pure (proper_block _)
  | some client =>
      refine Does.present (Does.touch fun l => ⟨rfl, rfl⟩) fun outcome => ⟨_, rfl, ?_⟩
      intro es hes
      subst hes
      refine ⟨?_, .daemon call hcall⟩
      cases outcome with
      | blocked block => exact .inl ⟨rfl, block, rfl⟩
      | ok result =>
          obtain ⟨members, hresult, hnames, hstatus⟩ := hok result
          exact .inr ⟨rfl, members, hresult, hnames, .inr hstatus⟩

theorem applyWrite_does : Does (Proper "apply_write" args)
    (toolApplyWrite s (argStr args "proposal_id") ((args.get "confirm_rows").bind readNat)
      ((args.get "confirm_token").bind readText)) := by
  rcases hrows : (args.get "confirm_rows").bind readNat with _ | confirmRows
  · exact Does.pure (proper_block _)
  · exact write_does ⟨rfl, rfl, hrows, rfl⟩ fun result => ⟨_, rfl, rfl, rfl⟩

/-- A tool of the catalog does what it may, and shows it in its envelope. -/
theorem dispatch_ends [JsonText] (hname : name ∈ toolNames) :
    Ends (Concluded name args) (dispatch s name args) := by
  simp only [toolNames, List.mem_cons, List.not_mem_nil, or_false] at hname
  rcases hname with rfl | rfl | rfl | rfl | rfl | rfl | rfl | rfl | rfl
  · have hwhoami : Does (Proper "whoami" args) (pure (structuredOk (whoami s)) : Tool ω _) :=
      Does.pure ⟨.inr ⟨rfl, _, rfl, rfl, .inl rfl⟩, .nothing (.inr rfl)⟩
    exact hwhoami.concluded
  · exact discoverSchema_ends
  · exact query_does.concluded
  · exact explain_does.concluded
  · exact Does.concluded (write_does ⟨rfl, rfl, rfl⟩ fun result => ⟨_, rfl, rfl, rfl⟩)
  · exact Does.concluded (write_does ⟨rfl, rfl⟩ fun result => ⟨_, rfl, rfl, rfl⟩)
  · exact applyWrite_does.concluded
  · exact Does.concluded (write_does ⟨rfl, rfl, rfl⟩ fun result => ⟨_, rfl, rfl, rfl⟩)
  · exact (getAudit_does _).concluded

/-- A name that is not in the catalog is an error, and touches nothing. -/
theorem dispatch_unknown [JsonText] (hname : name ∉ toolNames) (l : Logged (Line ω) ToolEvent) :
    dispatch s name args l = (.error (.mcp ⟨"no such tool: " ++ name⟩), l) := by
  simp only [toolNames, List.mem_cons, List.not_mem_nil, or_false, not_or] at hname
  unfold dispatch
  split
  all_goals first
    | rfl
    | simp at hname

/-! ## Over a run -/

/-- A tool of the catalog ended and did what it may; another name is an error. -/
def Recorded (r : ToolRecord) : Prop :=
  r.name ∈ toolNames ∧ Concluded r.name r.args r.result r.touched ∨
    r.name ∉ toolNames ∧ r.result = .error (.mcp ⟨"no such tool: " ++ r.name⟩) ∧ r.touched = []

theorem toolStep_recorded [JsonText] (s : PgBrakesMcp ω) (call : String × Args) {l : Line ω}
    {front : List (Event String (List Row) BlockContract)} (h : Inv front l) :
    Recorded (toolStep s call l).1 ∧
      Inv (front ++ wireLog (toolStep s call l).1.touched) (toolStep s call l).2 := by
  have hstart : LineInv front (⟨l, []⟩ : Logged (Line ω) ToolEvent) := by
    show Inv (front ++ []) l
    rw [List.append_nil]
    exact h
  obtain ⟨name, args⟩ := call
  by_cases hname : name ∈ toolNames
  · have hends : Ends (Concluded name args) (dispatch s name args) := dispatch_ends hname
    obtain ⟨result, es, s', hrun, hlog, hconcluded, hkeeps⟩ := hends ⟨l, []⟩
    have hinv := hkeeps front hstart
    have hes : s'.log = es := hlog
    simp only [toolStep, hrun]
    refine ⟨.inl ⟨hname, ?_⟩, hinv⟩
    show Concluded name args result s'.log
    rw [hes]
    exact hconcluded
  · simp only [toolStep, dispatch_unknown hname]
    exact ⟨.inr ⟨hname, rfl, rfl⟩, hstart⟩

/-- In every sequence of tool calls, whatever the proxy, the daemon and the network do: every
tool sends, asks and shows only what it may.  No statement goes over a connection that was not
dialed or was lost, and no connection is dialed while another one lives. -/
theorem run_touches [JsonText] (s : PgBrakesMcp ω) (calls : List (String × Args)) (w : ω) :
    let history := (run (toolStep s) calls (Line.start w)).1
    EveryStep Orderly (wireLog (history.flatMap (·.touched))) ∧ ∀ r ∈ history, Recorded r := by
  intro history
  have hrule := run_rule (toolStep s)
    (fun history (l : Line ω) => Inv (wireLog (history.flatMap (·.touched))) l)
    (fun _ => True) (fun _ r => Recorded r)
    (fun history l call _ hinv => by
      obtain ⟨hrecorded, hnext⟩ := toolStep_recorded s call hinv
      refine ⟨hrecorded, ?_⟩
      rw [List.flatMap_append, wireLog_append, List.flatMap_singleton]
      exact hnext)
    (start_inv w) (fun call (_ : call ∈ calls) => trivial)
  exact ⟨hrule.1.orderly, everyStep_iff_forall.mp hrule.2⟩

end Touches

end PgBrakes.Ports.McpServer
