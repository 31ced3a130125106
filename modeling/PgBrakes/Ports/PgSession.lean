import Mathlib.Logic.Function.Basic
import PgBrakes.Ports.ProxyLink
import PgBrakes.Ports.ProxyRelay

/-!
# The backend's side of the extended protocol

A session of PostgreSQL as the extended protocol shows it: the statements and portals
by name, and whether messages are skipped up to the next `Sync`.  What the statements
do, and whether they can be analysed, bound and run, is an arbitrary `Database` that
may answer differently at every moment.

The names are the server's.  A `Parse` of the unnamed statement drops the old one before
anything else; a `Parse` of a name that is taken fails, and so does a `Bind` or an
`Execute` of a name that is free.  After an error everything up to the next `Sync` is
skipped.  A `Sync` ends the transaction, and the portals end with it.

## Main results

* `followsProtocol_pg` — this backend follows the protocol, whatever the database and
  the rest of the world do.
-/

namespace PgBrakes.Ports.Proxy

open PgBrakes.Ports.ExplainGate
open PgBrakes.Ports.ReadAst
open PgBrakes.Ports.Wire

/-- What the server finds out about a statement at a moment: whether it can be analysed
and bound, the rows it returns, and how it describes itself. -/
class Database where
  analyze : Nat → String → Except String Unit
  bindTo : Nat → String → Bytes → Except String Unit
  run : Nat → String → Int32 → Except String (List Bytes)
  parameters : Nat → String → Bytes
  columns : Nat → String → Bytes

/-- The session: the moment, the statements and the portals with their texts, and
whether messages are skipped. -/
structure PgSession where
  time : Nat
  prepared : String → Option String
  portals : String → Option String
  skipping : Bool

def tagParameterDescription : UInt8 := 0x74
def tagRowDescription : UInt8 := 0x54

namespace PgSession

/-- An error: the messages up to the next `Sync` are skipped. -/
def fail (s : PgSession) (code reason : String) : PgSession × List RawFrame :=
  ({ s with skipping := true }, [errorResponse code reason])

/-- The unnamed statement is dropped before a new one is looked at. -/
def dropUnnamed (s : PgSession) (name : String) : PgSession :=
  if name = "" then { s with prepared := Function.update s.prepared "" none } else s

section
variable [Database]

def parse (s : PgSession) (name sql : String) : PgSession × List RawFrame :=
  match Database.analyze s.time sql with
  | .error reason => (s.dropUnnamed name).fail "42601" reason
  | .ok () =>
      if ((s.dropUnnamed name).prepared name).isSome then
        s.fail "42P05" ("prepared statement \"" ++ name ++ "\" already exists")
      else
        ({ s with prepared := Function.update s.prepared name (some sql) },
          [⟨tagParseComplete, []⟩])

def bind (s : PgSession) (portal name : String) (rest : Bytes) : PgSession × List RawFrame :=
  match s.prepared name with
  | none => s.fail "26000" ("prepared statement \"" ++ name ++ "\" does not exist")
  | some sql =>
      if portal ≠ "" ∧ (s.portals portal).isSome then
        s.fail "42P03" ("cursor \"" ++ portal ++ "\" already exists")
      else
        match Database.bindTo s.time sql rest with
        | .error reason => s.fail "08P01" reason
        | .ok () =>
            ({ s with portals := Function.update s.portals portal (some sql) },
              [⟨tagBindComplete, []⟩])

def describe (s : PgSession) (kind : TargetKind) (name : String) : PgSession × List RawFrame :=
  match kind with
  | .statement =>
      match s.prepared name with
      | none => s.fail "26000" ("prepared statement \"" ++ name ++ "\" does not exist")
      | some sql =>
          (s, [⟨tagParameterDescription, Database.parameters s.time sql⟩,
            ⟨tagRowDescription, Database.columns s.time sql⟩])
  | .portal =>
      match s.portals name with
      | none => s.fail "34000" ("portal \"" ++ name ++ "\" does not exist")
      | some sql => (s, [⟨tagRowDescription, Database.columns s.time sql⟩])

def execute (s : PgSession) (portal : String) (maxRows : Int32) : PgSession × List RawFrame :=
  match s.portals portal with
  | none => s.fail "34000" ("portal \"" ++ portal ++ "\" does not exist")
  | some sql =>
      match Database.run s.time sql maxRows with
      | .error reason => s.fail "XX000" reason
      | .ok rows => (s, rows.map (⟨tagDataRow, ·⟩) ++ [⟨tagCommandComplete, []⟩])

def close (s : PgSession) (kind : TargetKind) (name : String) : PgSession × List RawFrame :=
  match kind with
  | .statement =>
      ({ s with prepared := Function.update s.prepared name none }, [⟨tagCloseComplete, []⟩])
  | .portal =>
      ({ s with portals := Function.update s.portals name none }, [⟨tagCloseComplete, []⟩])

/-- A message of the extended protocol that is not skipped.  The others have no place in
a session under way and end it. -/
def handle (s : PgSession) : FrontendMessage → Option (PgSession × List RawFrame)
  | .parse name sql _ => some (s.parse name sql)
  | .bind portal name rest => some (s.bind portal name rest)
  | .describe kind name => some (s.describe kind name)
  | .execute portal maxRows => some (s.execute portal maxRows)
  | .close kind name => some (s.close kind name)
  | .flush => some (s, [])
  | _ => none

/-- The end of a unit. -/
def sync (s : PgSession) : PgSession := { s with portals := fun _ => none, skipping := false }

/-- A message, with its answers; none where the connection ends. -/
def receive (s : PgSession) (msg : FrontendMessage) : Option (PgSession × List RawFrame) :=
  if msg = .sync then some (s.sync, [readyForQuery .idle])
  else if s.skipping then (s.handle msg).map fun _ => (s, [])
  else s.handle msg

/-- The bytes of a message. -/
def receiveFrame (s : PgSession) (frame : RawFrame) : Option (PgSession × List RawFrame) :=
  match FrontendMessage.decode frame with
  | .error _ => none
  | .ok msg => s.receive msg

/-- A moment passes. -/
def tick (s : PgSession) : PgSession := { s with time := s.time + 1 }

end

end PgSession

/-- The session of the backend beside an arbitrary rest of the world. -/
instance Outside.withPg (τ : Type) [Outside τ] [Database] : Outside (PgSession × τ) where
  tick := fun s => (s.1.tick, Outside.tick s.2)
  toBackend := fun s frame =>
    match Outside.toBackend s.2 frame with
    | none => none
    | some (rest, _) => (s.1.receiveFrame frame).map fun answer => ((answer.1, rest), answer.2)
  toAgent := fun s frame => (Outside.toAgent s.2 frame).map fun rest => (s.1, rest)
  append := fun s entry => (Outside.append s.2 entry).map fun rest => (s.1, rest)
  clock := fun s => ((Outside.clock s.2).1, (s.1, (Outside.clock s.2).2))

/-! ## What a message leaves alone -/

namespace PgSession

variable [Database]

theorem parse_time (s : PgSession) (name sql : String) : (s.parse name sql).1.time = s.time := by
  have hdrop : (s.dropUnnamed name).time = s.time := by
    unfold dropUnnamed
    split
    · rfl
    · rfl
  unfold parse
  split
  · exact hdrop
  · split
    · rfl
    · rfl

/-- A `Parse` leaves the statements under other names alone. -/
theorem parse_prepared_of_ne (s : PgSession) {name other : String} (h : other ≠ name)
    (sql : String) : (s.parse name sql).1.prepared other = s.prepared other := by
  have hdrop : (s.dropUnnamed name).prepared other = s.prepared other := by
    unfold dropUnnamed
    split
    · rename_i hempty
      rw [hempty] at h
      exact Function.update_of_ne h none s.prepared
    · rfl
  unfold parse
  split
  · exact hdrop
  · split
    · rfl
    · exact Function.update_of_ne h (some sql) s.prepared

theorem bind_frame (s : PgSession) (portal name : String) (rest : Bytes) :
    (s.bind portal name rest).1.time = s.time ∧
      (s.bind portal name rest).1.prepared = s.prepared := by
  unfold bind
  split
  · exact ⟨rfl, rfl⟩
  · split
    · exact ⟨rfl, rfl⟩
    · split
      · exact ⟨rfl, rfl⟩
      · exact ⟨rfl, rfl⟩

theorem execute_frame (s : PgSession) (portal : String) (maxRows : Int32) :
    (s.execute portal maxRows).1.time = s.time ∧
      (s.execute portal maxRows).1.prepared = s.prepared := by
  unfold execute
  split
  · exact ⟨rfl, rfl⟩
  · split
    · exact ⟨rfl, rfl⟩
    · exact ⟨rfl, rfl⟩

end PgSession

/-! ## The backend follows the protocol -/

theorem noReady_single {frame : RawFrame} (h : frame.tag ≠ tagReadyForQuery) : NoReady [frame] :=
  List.forall_mem_singleton.mpr h

section
variable [Database]

namespace PgSession

omit [Database] in

theorem noReady_fail (s : PgSession) (code reason : String) : NoReady (s.fail code reason).2 :=
  noReady_single (errorResponse_tag_ne _ _)

theorem noReady_parse (s : PgSession) (name sql : String) : NoReady (s.parse name sql).2 := by
  unfold parse
  split
  · exact noReady_fail _ _ _
  · split
    · exact noReady_fail _ _ _
    · exact noReady_single (by decide)

theorem noReady_bind (s : PgSession) (portal name : String) (rest : Bytes) :
    NoReady (s.bind portal name rest).2 := by
  unfold bind
  split
  · exact noReady_fail _ _ _
  · split
    · exact noReady_fail _ _ _
    · split
      · exact noReady_fail _ _ _
      · exact noReady_single (by decide)

theorem noReady_describe (s : PgSession) (kind : TargetKind) (name : String) :
    NoReady (s.describe kind name).2 := by
  have hrow (body : Bytes) : (⟨tagRowDescription, body⟩ : RawFrame).tag ≠ tagReadyForQuery := by
    show tagRowDescription ≠ tagReadyForQuery
    decide
  have hparameters (body : Bytes) :
      (⟨tagParameterDescription, body⟩ : RawFrame).tag ≠ tagReadyForQuery := by
    show tagParameterDescription ≠ tagReadyForQuery
    decide
  unfold describe
  split
  · split
    · exact noReady_fail _ _ _
    · exact List.forall_mem_cons.mpr ⟨hparameters _, noReady_single (hrow _)⟩
  · split
    · exact noReady_fail _ _ _
    · exact noReady_single (hrow _)

theorem noReady_execute (s : PgSession) (portal : String) (maxRows : Int32) :
    NoReady (s.execute portal maxRows).2 := by
  unfold execute
  split
  · exact noReady_fail _ _ _
  · split
    · exact noReady_fail _ _ _
    · refine noReady_append ?_ (noReady_single (by decide))
      intro f hf
      obtain ⟨row, -, rfl⟩ := List.mem_map.mp hf
      show tagDataRow ≠ tagReadyForQuery
      decide

theorem noReady_handle {s : PgSession} {msg : FrontendMessage} {answer : PgSession × List RawFrame}
    (h : s.handle msg = some answer) : NoReady answer.2 := by
  unfold handle at h
  split at h
  · rw [← Option.some.inj h]
    exact s.noReady_parse _ _
  · rw [← Option.some.inj h]
    exact s.noReady_bind _ _ _
  · rw [← Option.some.inj h]
    exact s.noReady_describe _ _
  · rw [← Option.some.inj h]
    exact s.noReady_execute _ _
  · rename_i kind name
    rw [← Option.some.inj h]
    cases kind with
    | statement => exact noReady_single (by decide)
    | portal => exact noReady_single (by decide)
  · rw [← Option.some.inj h]
    exact List.forall_mem_nil _
  · cases h

theorem receive_answers {s : PgSession} {msg : FrontendMessage}
    {answer : PgSession × List RawFrame} (h : s.receive msg = some answer) :
    (msg = .sync → EndsReady answer.2) ∧ (msg ≠ .sync → NoReady answer.2) := by
  unfold receive at h
  split at h
  · rename_i hsync
    rw [← Option.some.inj h]
    exact ⟨fun _ => ⟨[], readyForQuery .idle, rfl, List.forall_mem_nil _, rfl⟩,
      fun hother => absurd hsync hother⟩
  · rename_i hother
    refine ⟨fun hsync => absurd hsync hother, fun _ => ?_⟩
    split at h
    · obtain ⟨skipped, -, hanswer⟩ := Option.map_eq_some_iff.mp h
      rw [← hanswer]
      exact List.forall_mem_nil _
    · exact noReady_handle h

end PgSession

/-- What the backend gets is what the session gets. -/
theorem withPg_toBackend {τ : Type} [Outside τ] {s s' : PgSession × τ} {frame : RawFrame}
    {answers : List RawFrame}
    (h : Outside.toBackend s frame = some (s', answers)) :
    s.1.receiveFrame frame = some (s'.1, answers) := by
  unfold Outside.toBackend Outside.withPg at h
  dsimp only at h
  split at h
  · cases h
  · obtain ⟨answer, hanswer, heq⟩ := Option.map_eq_some_iff.mp h
    cases heq
    exact hanswer

/-- Whatever the database does and whatever else is outside. -/
theorem followsProtocol_pg (τ : Type) [Outside τ] : FollowsProtocol (PgSession × τ) := by
  intro outside outside' frame answers h
  have hreceive := withPg_toBackend h
  unfold PgSession.receiveFrame at hreceive
  split at hreceive
  · cases hreceive
  · rename_i msg hdecode
    rw [Ne, decode_sync hdecode]
    exact PgSession.receive_answers hreceive

end

/-! ## A small backend -/

/-- A row of one column that holds a plan line. -/
def planRow : Bytes :=
  let line := utf8 "Result  (cost=0.00..0.01 rows=1 width=4)"
  putI16 1 ++ putI32 (.ofNat line.length) ++ line

/-- A database in which every statement is fine and returns one row. -/
@[reducible] def Database.oneRow : Database where
  analyze := fun _ _ => .ok ()
  bindTo := fun _ _ _ => .ok ()
  run := fun _ _ _ => .ok [planRow]
  parameters := fun _ _ => [0, 0]
  columns := fun _ _ => [0, 0]

/-- Costs with two decimals, counted in hundredths. -/
@[reducible] def Runtime.hundredths : Runtime Nat where
  parse := fun s => some (digitsValue (s.toList.filter Char.isDigit))
  gt := fun a b => Nat.blt b a
  display := fun n => toString (n / 100) ++ "." ++ toString (n % 100 / 10) ++ toString (n % 10)
  debugStr := fun s => "\"" ++ s ++ "\""

/-- `SELECT` of one literal. -/
def selectLiteral (literal : String) : Statement :=
  .query (.mk [] (.select none [] [.other literal []]) [] [])

/-- A parser that knows two reads and a write. -/
@[reducible] def Parser.small : Parser :=
  .knowing [("SELECT 1", selectLiteral "1"), ("SELECT 2", selectLiteral "2"),
    ("DELETE FROM t", .refused .delete [])]

/-- A role that may read a thousand rows at a cost of a thousand. -/
def Config.small : Config Nat := ⟨⟨100000, 1000, ⟨60, 100000, 1000⟩⟩, ⟨100000, 1000⟩⟩

/-- A session in which nothing has been prepared. -/
def PgSession.start : PgSession := ⟨0, fun _ => none, fun _ => none, false⟩

/-- The frames of an agent that pipelines. -/
def parseFrame (name sql : String) : RawFrame := (FrontendMessage.parse name sql []).encode

def bindFrame (portal name : String) : RawFrame :=
  (FrontendMessage.bind portal name [0, 0, 0, 0, 0, 0]).encode

def executeFrame (portal : String) : RawFrame := (FrontendMessage.execute portal 0).encode

def syncFrame : RawFrame := FrontendMessage.sync.encode

/-- A session over the small backend. -/
def smallRun (frames : List RawFrame) : List (Turn (PgSession × Unit) Nat) :=
  let _ := Outside.still
  let _ := Database.oneRow
  let _ := Runtime.hundredths
  let _ := Parser.small
  (queryLoop Config.small frames (Loop.start Config.small (PgSession.start, ()) [])).1

end PgBrakes.Ports.Proxy
