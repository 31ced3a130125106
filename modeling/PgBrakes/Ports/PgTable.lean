import PgBrakes.Verified.Effect
import PgBrakes.Verified.KeyedTable
import PgBrakes.Ports.BlastRecord

/-!
# A database with one table

What the PostgreSQL adapters talk to: a table with an integer key `id`, no
triggers and no cascades, behind one session.  What a text means is the server's
own affair and enters as any function; what a meaning does to the table is
computed here.  All right-hand sides of an `UPDATE` are read from the old row,
and keys are compared after the whole statement.  A server that refuses more (a
key that is compared row by row, a timeout, a conflict with another session) says
so through `refuses`.

## Main results

* `Meaning.run_update`, `Meaning.run_delete` — what a write that was not refused
  did.
-/

namespace PgBrakes.Ports.PgTable

open PgBrakes.Verified.Effect
open PgBrakes.Verified.KeyedTable
open PgBrakes.Ports.KeyChecksum
open PgBrakes.Ports.TypedInverse
open PgBrakes.Ports.BlastRecord

/-! ## Tables -/

/-- A stored value: of one of the types a pre-image carries, NULL included, or of
another type. -/
inductive Cell where
  | image (v : ImageValue)
  | other (typname text : String)
deriving DecidableEq, Repr

/-- The values of the columns other than the key. -/
abbrev Row := String → Cell

abbrev Table := Std.TreeMap Int Row

structure Schema where
  relation : String
  /-- The column names, as the catalog lists them. -/
  columns : List String
  /-- What an `INSERT` stores in a column it does not name. -/
  default : String → Cell

def keyColumn : String := "id"

def Schema.hasColumn (schema : Schema) (column : String) : Bool :=
  column = keyColumn || schema.columns.contains column

/-- The value of a column, the key included. -/
def cellAt (k : Int) (r : Row) (column : String) : Cell :=
  if column = keyColumn then .image (.int k) else r column

/-- Two rows have the same values in the columns of the table. -/
def Schema.SameRow (schema : Schema) (r r' : Row) : Prop :=
  ∀ c ∈ schema.columns, c ≠ keyColumn → r c = r' c

/-- Two tables have the same keys and the same values. -/
def Schema.SameTable (schema : Schema) (t t' : Table) : Prop :=
  ∀ k : Int, Option.Rel schema.SameRow t[k]? t'[k]?

/-! ## Writes -/

/-- An error of the server, by the codes the adapters tell apart. -/
inductive ServerError where
  | queryCanceled
  | serializationFailure
  | other (message : String)
deriving DecidableEq, Repr

def ServerError.toString : ServerError → String
  | .queryCanceled => "canceling statement due to statement timeout"
  | .serializationFailure => "could not serialize access due to concurrent update"
  | .other message => message

/-- A column assignment; its right-hand side reads the old row. -/
structure Assigned where
  column : String
  value : Int → Row → Cell

inductive Write where
  | update (assignments : List Assigned)
  | delete

/-- What the server takes a text to mean. -/
structure Meaning where
  selects : Int → Row → Bool
  write : Write
  /-- The first column of the `RETURNING` list, read from the written row: its
  value where that is an `int4`. -/
  returning : Option (Int → Row → Option Int)

def fitsInt4 (n : Int) : Bool := decide (-2 ^ 31 ≤ n) && decide (n < 2 ^ 31)

/-- The key an `UPDATE` gives a row, when it is one. -/
def newKey (assignments : List Assigned) (k : Int) (r : Row) : Option Int :=
  match assignments.find? (·.column = keyColumn) with
  | none => some k
  | some a =>
      match a.value k r with
      | .image (.int n) => if fitsInt4 n then some n else none
      | _ => none

/-- The row an `UPDATE` makes of a row. -/
def newRow (assignments : List Assigned) (k : Int) (r : Row) : Row := fun c =>
  match assignments.find? (·.column = c) with
  | none => r c
  | some a => a.value k r

/-- The key and the row an `UPDATE` puts in the place of a row. -/
def moved (assignments : List Assigned) (row : Int × Row) : Int × Row :=
  ((newKey assignments row.1 row.2).getD row.1, newRow assignments row.1 row.2)

/-- The table after a write, with what it returned. -/
structure Written where
  table : Table
  returned : List (Option Int)
  counts : OpCounts

/-- The rows a write returns. -/
def Meaning.returned (m : Meaning) (rows : List (Int × Row)) : List (Option Int) :=
  match m.returning with
  | none => []
  | some f => rows.map fun row => f row.1 row.2

/-- What the server does with a write.  `scan` is the order it meets the rows
in. -/
def Meaning.run (m : Meaning) (schema : Schema)
    (scan : List (Int × Row) → List (Int × Row)) (t : Table) : Except ServerError Written :=
  let rows := scan (selected t m.selects)
  let rest := t.filter fun k r => !m.selects k r
  match m.write with
  | .delete => .ok ⟨rest, m.returned rows, ⟨0, 0, rows.length⟩⟩
  | .update assignments =>
      let columns := assignments.map (·.column)
      let landed := rows.map (moved assignments)
      if !columns.all schema.hasColumn then
        .error (.other "column does not exist")
      else if !decide columns.Nodup then
        .error (.other "multiple assignments to same column")
      else if rows.any fun row => (newKey assignments row.1 row.2).isNone then
        .error (.other "null or out-of-range value in column \"id\"")
      else if !decide (landed.map Prod.fst).Nodup ||
          landed.any fun row => rest.contains row.1 then
        .error (.other "duplicate key value violates unique constraint")
      else
        .ok ⟨putAll rest landed, m.returned landed, ⟨0, rows.length, 0⟩⟩

/-- An `UPDATE` that was not refused has put the moved rows in the place of the
selected ones, on distinct keys that no other row has. -/
theorem Meaning.run_update {m : Meaning} {schema : Schema}
    {scan : List (Int × Row) → List (Int × Row)} {t : Table} {written : Written}
    {assignments : List Assigned} (hwrite : m.write = .update assignments)
    (h : m.run schema scan t = .ok written) :
    let landed := (scan (selected t m.selects)).map (moved assignments)
    (landed.map Prod.fst).Nodup ∧
      (∀ k ∈ landed.map Prod.fst, ∀ r, t[k]? = some r → m.selects k r = true) ∧
      written.table = putAll (t.filter fun k r => !m.selects k r) landed ∧
      written.returned = m.returned landed ∧
      written.counts = ⟨0, (scan (selected t m.selects)).length, 0⟩ := by
  unfold Meaning.run at h
  simp only [hwrite] at h
  split at h
  · cases h
  split at h
  · cases h
  split at h
  · cases h
  split at h
  · cases h
  next hfree =>
    cases h
    rw [Bool.or_eq_true, not_or, Bool.not_eq_true, Bool.not_eq_false', decide_eq_true_eq,
      Bool.not_eq_true, List.any_eq_false] at hfree
    refine ⟨hfree.1, ?_, rfl, rfl, rfl⟩
    intro k hk r hr
    obtain ⟨row, hrow, rfl⟩ := List.mem_map.mp hk
    by_contra hother
    apply hfree.2 row hrow
    rw [Std.TreeMap.contains_eq_isSome_getElem?, Std.TreeMap.getElem?_filter', hr]
    simpa using hother

/-- A `DELETE` has taken the selected rows out. -/
theorem Meaning.run_delete {m : Meaning} {schema : Schema}
    {scan : List (Int × Row) → List (Int × Row)} {t : Table} {written : Written}
    (hwrite : m.write = .delete) (h : m.run schema scan t = .ok written) :
    written.table = (t.filter fun k r => !m.selects k r) ∧
      written.returned = m.returned (scan (selected t m.selects)) ∧
      written.counts = ⟨0, 0, (scan (selected t m.selects)).length⟩ := by
  unfold Meaning.run at h
  simp only [hwrite] at h
  cases h
  exact ⟨rfl, rfl, rfl⟩

/-! ## The session -/

/-- An open transaction: the table it sees, the tuples it changed, and whether a
statement of it has failed. -/
structure Xact where
  table : Table
  counts : OpCounts
  aborted : Bool

/-- A session, with the table other sessions see. -/
structure Session where
  committed : Table
  xact : Option Xact

structure Server where
  schema : Schema
  scan : List (Int × Row) → List (Int × Row)
  scan_perm : ∀ rows, (scan rows).Perm rows
  /-- What a write means. -/
  meaning : String → Except ServerError Meaning
  /-- What the text behind a `WHERE` means. -/
  condition : String → Except ServerError (Int → Row → Bool)
  /-- Any further reason to refuse a text on this table. -/
  refuses : String → Table → Option ServerError
  /-- The position of the write-ahead log. -/
  walInsertLsn : Session → Except ServerError Nat
  createRestorePoint : String → Except ServerError String

/-- A server that knows a list of texts and refuses nothing else. -/
def Server.knowing (schema : Schema) (writes : List (String × Meaning))
    (conditions : List (String × (Int → Row → Bool))) : Server where
  schema := schema
  scan rows := rows
  scan_perm rows := List.Perm.refl rows
  meaning text :=
    match writes.lookup text with
    | some m => .ok m
    | none => .error (.other "syntax error")
  condition text :=
    match conditions.lookup text with
    | some p => .ok p
    | none => .error (.other "syntax error")
  refuses _ _ := none
  walInsertLsn _ := .ok 0
  createRestorePoint _ := .ok "0/1000000"

variable {α : Type}

/-- Run a statement: in the open transaction, which it aborts when it fails, or
as a transaction of its own. -/
def inXact (f : Xact → Except ServerError (α × Xact)) : Eff Session ServerError α := fun s =>
  match s.xact with
  | none =>
      match f ⟨s.committed, {}, false⟩ with
      | .error e => (.error e, s)
      | .ok (a, x) => (.ok a, { s with committed := x.table })
  | some x =>
      if x.aborted then
        (.error (.other "current transaction is aborted"), s)
      else
        match f x with
        | .error e => (.error e, { s with xact := some { x with aborted := true } })
        | .ok (a, x') => (.ok a, { s with xact := some x' })

/-- `BEGIN`; inside a transaction it is a warning. -/
def beginXact : Eff Session ServerError Unit := fun s =>
  match s.xact with
  | none => (.ok (), { s with xact := some ⟨s.committed, {}, false⟩ })
  | some x =>
      if x.aborted then (.error (.other "current transaction is aborted"), s) else (.ok (), s)

/-- `COMMIT`; of an aborted transaction it is a rollback, and not an error. -/
def commitXact : Eff Session ServerError Unit := fun s =>
  match s.xact with
  | none => (.ok (), s)
  | some x => (.ok (), ⟨if x.aborted then s.committed else x.table, none⟩)

def rollbackXact : Eff Session ServerError Unit := fun s => (.ok (), { s with xact := none })

/-- The counters after one more statement. -/
def addCounts (a b : OpCounts) : OpCounts := ⟨a.ins + b.ins, a.upd + b.upd, a.del + b.del⟩

/-- A relation and columns that exist, each named once. -/
def Schema.knows (schema : Schema) (relation : String) (columns : List String) :
    Except ServerError Unit :=
  if relation ≠ schema.relation then .error (.other "relation does not exist")
  else if !columns.all schema.hasColumn then .error (.other "column does not exist")
  else if !decide columns.Nodup then .error (.other "column specified more than once")
  else .ok ()

theorem Schema.knows_ok_iff {schema : Schema} {relation : String} {columns : List String} :
    schema.knows relation columns = .ok () ↔
      relation = schema.relation ∧ (∀ c ∈ columns, schema.hasColumn c = true) ∧
        columns.Nodup := by
  unfold Schema.knows
  by_cases hrel : relation = schema.relation
  · rw [if_neg (not_not.mpr hrel), ← List.all_eq_true]
    by_cases hcols : columns.all schema.hasColumn = true
    · by_cases hnodup : columns.Nodup
      · simp [hrel, hcols, hnodup]
      · simp [hcols, hnodup]
    · simp [hcols]
  · simp [hrel]

/-- A row with some of its columns set. -/
def overwrite (cells : Image) (r : Row) : Row := fun c =>
  match cells.lookup c with
  | none => r c
  | some v => .image v

namespace Server

/-- A write, with the first column of the rows it returns. -/
def write (server : Server) (text : String) : Eff Session ServerError (List (Option Int)) :=
  inXact fun x =>
    match server.meaning text with
    | .error e => .error e
    | .ok m =>
        match server.refuses text x.table with
        | some e => .error e
        | none =>
            match m.run server.schema server.scan x.table with
            | .error e => .error e
            | .ok written => .ok (written.returned,
                { x with table := written.table, counts := addCounts x.counts written.counts })

/-- `SELECT columns FROM relation WHERE text ORDER BY id FOR UPDATE`. -/
def selectForUpdate (server : Server) (columns : List String) (relation text : String) :
    Eff Session ServerError (List (List Cell)) :=
  inXact fun x =>
    match server.schema.knows relation columns with
    | .error e => .error e
    | .ok () =>
        match server.condition text with
        | .error e => .error e
        | .ok p =>
            match server.refuses text x.table with
            | some e => .error e
            | none =>
                .ok ((selected x.table p).map fun row => columns.map (cellAt row.1 row.2), x)

/-- `UPDATE relation SET … WHERE id = k`, with the number of rows it changed. -/
def updateById (server : Server) (relation : String) (cells : Image) (k : Int) :
    Eff Session ServerError Nat :=
  inXact fun x =>
    match server.schema.knows relation (cells.map Prod.fst) with
    | .error e => .error e
    | .ok () =>
        match x.table[k]? with
        | none => .ok (0, x)
        | some r => .ok (1,
            { x with
              table := x.table.insert k (overwrite cells r)
              counts := addCounts x.counts ⟨0, 1, 0⟩ })

/-- `INSERT INTO relation(…) VALUES (…)`, with the number of rows it inserted. -/
def insertRow (server : Server) (relation : String) (cells : Image) :
    Eff Session ServerError Nat :=
  inXact fun x =>
    match server.schema.knows relation (cells.map Prod.fst) with
    | .error e => .error e
    | .ok () =>
        match cells.lookup keyColumn with
        | some (.int k) =>
            if x.table.contains k then
              .error (.other "duplicate key value violates unique constraint")
            else .ok (1,
              { x with
                table := x.table.insert k (overwrite cells server.schema.default)
                counts := addCounts x.counts ⟨1, 0, 0⟩ })
        | _ => .error (.other "null value in column \"id\"")

/-- The tuple counters of the open transaction, by relation. -/
def xactCounts (server : Server) : Eff Session ServerError (List (String × OpCounts)) :=
  inXact fun x => .ok ([(server.schema.relation, x.counts)], x)

/-- The columns of a relation, from the catalog; none for an unknown one. -/
def columnsOf (server : Server) (relation : String) : Eff Session ServerError (List String) :=
  inXact fun x =>
    .ok (if relation = server.schema.relation then server.schema.columns else [], x)

/-- `pg_current_wal_insert_lsn()`. -/
def currentLsn (server : Server) : Eff Session ServerError Nat := fun s =>
  (server.walInsertLsn s, s)

end Server

end PgBrakes.Ports.PgTable
