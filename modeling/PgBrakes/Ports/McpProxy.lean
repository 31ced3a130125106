import Std.Data.TreeMap.Lemmas
import PgBrakes.Verified.JsonValue
import PgBrakes.Verified.Redial
import PgBrakes.Ports.McpClient

/-!
# The read path of the tool server

`ProxyTransport` of `crates/mcp/src/proxy.rs` with the blocks of `crates/mcp/src/contract.rs`.
The transport holds at most one client of the proxy, behind a mutex, so its reads follow one
another; its retry is `Redial.withClient` with two attempts.  What the driver makes of the
columns it receives, and the texts of its errors and of JSON values, come from outside.

## Main results

* `read_keeps`, `read_asks` — what a read does to the connections and sends.
* `schemaColumns_error_iff` — when the question for the schema ends in a panic.
-/

namespace PgBrakes.Ports.McpProxy

open PgBrakes.Verified.Effect
open PgBrakes.Verified.JsonValue
open PgBrakes.Verified.Redial
open PgBrakes.Ports.McpClient (BlockContract)

variable {ω κ ε : Type}

/-! ## Blocks -/

def readOnly (detail : String) : BlockContract where
  code := "READ_ONLY"
  reason := "this tool runs read-only statements; this looks like a " ++ detail
  remedy := "use propose_write → dry_run → apply_write for changes"
  retryable := false

def proxyUnavailable (detail : String) : BlockContract where
  code := "PROXY_UNAVAILABLE"
  reason := "the proxy connection is unavailable: " ++ detail
  remedy := "the proxy may be down or the backend session ended (e.g. a warden " ++
    "terminate, restart, or idle reset); retry — the read will re-dial the proxy"
  retryable := true

def wallDenied (detail : String) : BlockContract where
  code := "WALL_DENIED"
  reason := "the proxy/WALL denied this read (least-privilege default-deny): " ++ detail
  remedy := "the hardened agent role has no SELECT on this relation; request access " ++
    "to a whitelisted relation"
  retryable := false

def proxyBlocked (detail : String) : BlockContract where
  code := "PROXY_BLOCKED"
  reason := "the proxy refused this read at the deterministic floor: " ++ detail
  remedy := "adjust the statement to a permitted read, or use the write lifecycle for changes"
  retryable := false

/-! ## The driver -/

/-- How the driver reports an error: with what the server said, or without. -/
inductive PgError where
  | db (code message : String)
  | transport (detail : String)

/-- A column of a row, as the first type that accepts it reads it; a float that is not finite
has no digits. -/
inductive Cell where
  | bool (v : Option Bool)
  | integer (v : Option Int)
  | float (v : Option (Option String))
  | json (v : Option Json)
  | text (v : Option String)
  | other (typeName : String)

/-- The columns of a row, with their names. -/
abbrev Row := List (String × Cell)

/-- The JSON texts of `serde_json`: a value, and a number read as a float. -/
class JsonText where
  render : Json → String
  float : String → String

inductive TlsMode where
  | disabled
  | rustls (rootsDer : List (List UInt8))

structure ProxyConfig where
  host : String
  port : Nat
  database : String
  user : String
  password : String
  applicationName : String
  tls : TlsMode
  statementTimeoutMs : Nat

/-- The configuration of the driver. -/
structure PgConfig where
  host : String
  port : Nat
  dbname : String
  user : String
  password : String
  applicationName : String
  options : Option String

def ProxyConfig.pgConfig (cfg : ProxyConfig) : PgConfig where
  host := cfg.host
  port := cfg.port
  dbname := cfg.database
  user := cfg.user
  password := cfg.password
  applicationName := cfg.applicationName
  options :=
    if 0 < cfg.statementTimeoutMs then
      some ("-c statement_timeout=" ++ toString cfg.statementTimeoutMs)
    else none

/-- The driver and the network: a trust anchor that is added, a connection that is made, a
query on a connection. -/
structure Driver (ω : Type) where
  addRoot : List UInt8 → Except String Unit
  connect : PgConfig → TlsMode → ω → Except String Unit × ω
  query : Nat → String → ω → Except PgError (List Row) × ω

/-- `classify_pg_error`. -/
def classifyPgError : PgError → Failure BlockContract
  | .db code message =>
      if code = "42501" then .denied (wallDenied message)
      else if "08".isPrefixOf code ∨ code = "57P01" ∨ code = "57P02" ∨ code = "57P03" then
        .lost message
      else .denied (proxyBlocked message)
  | .transport detail => .lost detail

/-! ## The transport -/

structure ProxyTransport (ω : Type) where
  config : ProxyConfig
  driver : Driver ω

namespace ProxyTransport

/-- The trust anchors of a dial, in their order. -/
def addRoots (d : Driver ω) : TlsMode → Except BlockContract Unit
  | .disabled => .ok ()
  | .rustls rootsDer => rootsDer.forM fun der =>
      (d.addRoot der).mapError fun e => proxyUnavailable ("bad proxy trust anchor: " ++ e)

def dial (t : ProxyTransport ω) (w : ω) : Except BlockContract Unit × ω :=
  match addRoots t.driver t.config.tls with
  | .error block => (.error block, w)
  | .ok () =>
      ( (t.driver.connect t.config.pgConfig t.config.tls w).1.mapError proxyUnavailable
      , (t.driver.connect t.config.pgConfig t.config.tls w).2 )

/-- The proxy, as the transport uses it. -/
def peer (t : ProxyTransport ω) : Peer ω String (List Row) BlockContract where
  dial := t.dial
  exec c sql w := ((t.driver.query c sql w).1.mapError classifyPgError, (t.driver.query c sql w).2)
  unavailable := proxyUnavailable
  exhausted := proxyUnavailable "exhausted reconnect attempts"

/-- A statement over the proxy, and what becomes of it. -/
def read (t : ProxyTransport ω) (sql : String) :
    Eff (Logged (Line ω) (Event String (List Row) BlockContract ⊕ κ)) ε
      (Except BlockContract (List Row)) :=
  Eff.attempt (withClient t.peer sql 2)

end ProxyTransport

/-! ## What comes back -/

def Cell.toJson : Cell → Json
  | .bool v => (v.map .bool).getD .null
  | .integer v => (v.map fun n => .number (toString n)).getD .null
  | .float v => ((v.bind id).map .number).getD .null
  | .json v => v.getD .null
  | .text v => (v.map .text).getD .null
  | .other typeName => .text ("<unrepresentable " ++ typeName ++ ">")

/-- `row_to_json`: the columns in a map, which is sorted by the names. -/
def rowToJson (row : Row) : Json :=
  .object (row.foldl (fun m column => m.insert column.1 column.2.toJson)
    (∅ : Std.TreeMap String Json)).toList

inductive ReadOutcome where
  | rows (rows : List Json) (rowCount : Nat)
  | blocked (block : BlockContract)

def ReadOutcome.ofAnswer : Except BlockContract (List Row) → ReadOutcome
  | .ok answer => .rows (answer.map rowToJson) answer.length
  | .error block => .blocked block

structure PlanJson where
  plan : String
  cost : String

structure SchemaColumn where
  schema : String
  table : String
  column : String
  dataType : String

/-- `Value::get`: of the members of one name the last is kept. -/
def jsonGet (key : String) : Json → Option Json
  | .object members => members.reverse.lookup key
  | _ => none

section Plan

variable [JsonText]

/-- The total cost at the top of a plan; nothing where there is none. -/
def planCost : Json → String
  | .array (top :: _) =>
      match ((jsonGet "Plan" top).bind (jsonGet "Total Cost")) with
      | some (.number digits) => JsonText.float digits
      | _ => "0.0"
  | _ => "0.0"

/-- `plan_from_rows`: the first column of the first row, where it is JSON. -/
def planFromRows (rows : List Row) : PlanJson :=
  let plan := match rows with
    | ((_, .json (some v)) :: _) :: _ => v
    | _ => .null
  ⟨JsonText.render plan, planCost plan⟩

end Plan

/-- The column of a name, and else of the same name in other letters. -/
def columnOf (name : String) (row : Row) : Option Cell :=
  (row.lookup name).or ((row.find? fun c => decide (c.1.toLower = name.toLower)).map (·.2))

/-- `Row::get` of a text, which panics on a column that is missing, null or no text. -/
def textColumn (name : String) (row : Row) : Option String :=
  match columnOf name row with
  | some (.text (some s)) => some s
  | _ => none

def schemaColumn (row : Row) : Option SchemaColumn := do
  let schema ← textColumn "schema" row
  let table ← textColumn "table" row
  let column ← textColumn "column" row
  let dataType ← textColumn "type" row
  pure ⟨schema, table, column, dataType⟩

/-- The columns in an answer.  A row that describes none ends the task in a panic. -/
def schemaColumns (panicked : ε) :
    Except BlockContract (List Row) → Except ε (Except BlockContract (List SchemaColumn))
  | .error block => .ok (.error block)
  | .ok rows =>
      match rows.mapM schemaColumn with
      | some columns => .ok (.ok columns)
      | none => .error panicked

def schemaSql : String :=
  "SELECT table_schema AS schema, table_name AS \"table\", " ++
    "column_name AS \"column\", data_type AS \"type\" " ++
    "FROM information_schema.columns " ++
    "WHERE table_schema NOT IN ('pg_catalog', 'information_schema') " ++
    "ORDER BY table_schema, table_name, ordinal_position"

namespace ProxyTransport

def query (t : ProxyTransport ω) (sql : String) :
    Eff (Logged (Line ω) (Event String (List Row) BlockContract ⊕ κ)) ε ReadOutcome := do
  let answer ← t.read sql
  pure (.ofAnswer answer)

def explainSql (innerSql : String) : String := "EXPLAIN (FORMAT JSON) " ++ innerSql

def explain [JsonText] (t : ProxyTransport ω) (innerSql : String) :
    Eff (Logged (Line ω) (Event String (List Row) BlockContract ⊕ κ)) ε
      (Except BlockContract PlanJson) := do
  let answer ← t.read (explainSql innerSql)
  pure (answer.map planFromRows)

def discoverSchema (panicked : ε) (t : ProxyTransport ω) :
    Eff (Logged (Line ω) (Event String (List Row) BlockContract ⊕ κ)) ε
      (Except BlockContract (List SchemaColumn)) := do
  let answer ← t.read schemaSql
  Eff.lift (schemaColumns panicked answer)

/-! ## What a read does -/

theorem read_keeps (t : ProxyTransport ω) (front : List (Event String (List Row) BlockContract))
    (sql : String) :
    Eff.Keeps (LineInv front) (t.read sql : Eff (Logged (Line ω)
      (Event String (List Row) BlockContract ⊕ κ)) ε (Except BlockContract (List Row))) :=
  fun s hs => withClient_keeps t.peer front sql 2 s hs

/-- A read sends its statement, at most twice. -/
theorem read_asks (t : ProxyTransport ω) (sql : String) :
    Traces (fun _ => True) (fun r es => ∃ answer, r = .ok answer ∧ Asks sql 2 answer es)
      (t.read sql : Eff (Logged (Line ω) (Event String (List Row) BlockContract ⊕ κ)) ε
        (Except BlockContract (List Row))) := by
  intro s hs
  obtain ⟨es, hlog, hasks, -⟩ := withClient_asks t.peer sql 2 s hs
  exact ⟨es, hlog, ⟨_, rfl, hasks⟩, trivial⟩

end ProxyTransport

/-! ## The columns of the schema -/

theorem mapM_eq_none_iff {α β : Type} {f : α → Option β} {l : List α} :
    l.mapM f = none ↔ ∃ a ∈ l, f a = none := by
  induction l with
  | nil => simp
  | cons a l ih =>
      rw [List.mapM_cons, List.exists_mem_cons_iff, ← ih]
      cases f a with
      | none => simp
      | some b => cases l.mapM f <;> simp

/-- The columns are shown unless a row of the answer describes none. -/
theorem schemaColumns_error_iff {panicked e : ε} {answer : Except BlockContract (List Row)} :
    schemaColumns panicked answer = .error e ↔
      e = panicked ∧ ∃ rows, answer = .ok rows ∧ ∃ row ∈ rows, schemaColumn row = none := by
  cases answer with
  | error block => simp [schemaColumns]
  | ok rows =>
      simp only [Except.ok.injEq, exists_eq_left', ← mapM_eq_none_iff]
      show (match rows.mapM schemaColumn with
        | some columns => .ok (.ok columns)
        | none => .error panicked : Except ε (Except BlockContract (List SchemaColumn))) =
          .error e ↔ _
      cases rows.mapM schemaColumn with
      | none => simp [eq_comm]
      | some columns => simp

theorem schemaColumns_ok {panicked : ε} {rows : List Row}
    {shown : Except BlockContract (List SchemaColumn)}
    (h : schemaColumns panicked (.ok rows) = .ok shown) : ∃ columns, shown = .ok columns := by
  unfold schemaColumns at h
  split at h
  next heq => cases heq
  next =>
    split at h
    · cases h
      exact ⟨_, rfl⟩
    · cases h

end PgBrakes.Ports.McpProxy
