import PgBrakes.Ports.DryRun

/-!
# The rehearsal over PostgreSQL

A port of `PgRehearsal` in `crates/clone-orchestrator/src/conn.rs`: the three
catalog reads in front of a rehearsal, the switch of the self-determined gate,
and the shape of the measurement.  The catalog answers are any values; the
transaction that runs the statement and is rolled back is any function of the
world.

## Main results

* `dryRun_ok_iff` — the dry-run over this backend, with the gate off, succeeds on
  exactly the statements none of its refusals is for.
-/

namespace PgBrakes.Ports.PgRehearsal

open PgBrakes.Verified.Effect
open PgBrakes.Ports.KeyChecksum
open PgBrakes.Ports.BlastRecord
open PgBrakes.Ports.GuardedApply
open PgBrakes.Ports.SqlAst
open PgBrakes.Ports.Predicate
open PgBrakes.Ports.DryRun

/-! ## Names -/

/-- `str::split_once('.')`: the parts around the first dot. -/
def splitOnceDot : List Char → Option (List Char × List Char)
  | [] => none
  | '.' :: rest => some ([], rest)
  | c :: rest => (splitOnceDot rest).map fun parts => (c :: parts.1, parts.2)

/-- Schema and table of a relation name. -/
def splitRelation (relation : String) : String × String :=
  match splitOnceDot relation.toList with
  | some (schema, table) => (String.ofList schema, String.ofList table)
  | none => ("public", relation)

/-- `str::rsplit_once('.')`: the schema of a function name, if it has one, and its
last part. -/
def splitFunction (name : String) : Option String × String :=
  match splitOnceDot name.toList.reverse with
  | some (last, schema) => (some (String.ofList schema.reverse), String.ofList last.reverse)
  | none => (none, name)

/-- `str::trim_matches('"')`. -/
def trimQuotes (s : String) : String :=
  String.ofList ((s.toList.dropWhile (· = '"')).reverse.dropWhile (· = '"')).reverse

/-! ## The catalog -/

/-- What the catalog answers: the functions of a name (how many, and whether one
is volatile), the key columns of a relation with their types, and the type of a
column. -/
structure Catalog where
  procs : Option String → String → Except String (Nat × Bool)
  primaryKey : String × String → Except String (List (String × String))
  columnType : String × String → String → Except String (Option String)

namespace Catalog

/-- `resolve_provolatile`, with an error read as unknown. -/
def volatilityOf (catalog : Catalog) (name : String) : Volatility :=
  match catalog.procs (splitFunction name).1 (splitFunction name).2 with
  | .error _ => .unknown
  | .ok (n, anyVolatile) =>
      if n = 0 then .unknown else if anyVolatile then .volatile else .stable

inductive PkShape where
  | noPk
  | singleInt4
  | other
deriving DecidableEq, Repr

def pkShape : List (String × String) → PkShape
  | [] => .noPk
  | [(_, typname)] => if typname = "int4" then .singleInt4 else .other
  | _ => .other

def capturableTypes : List String :=
  ["int2", "int4", "int8", "text", "varchar", "bpchar", "name", "bytea"]

/-- The columns of a list whose type the capture does not carry losslessly. -/
def uncapturableColumns (catalog : Catalog) (relation : String) :
    List String → Except String (List String)
  | [] => .ok []
  | col :: cols =>
      match catalog.columnType (splitRelation relation) col with
      | .error e => .error e
      | .ok typname =>
          match uncapturableColumns catalog relation cols with
          | .error e => .error e
          | .ok bad =>
              match typname with
              | some t => .ok (if capturableTypes.contains t then bad else col :: bad)
              | none => .ok (col :: bad)

end Catalog

section Shape

variable [Sql]

/-- The columns a `SET` clause names. -/
def setColumns : List Assignment → Except String (List String)
  | [] => .ok []
  | a :: rest =>
      match a.target with
      | .tuple _ =>
          .error ("tuple SET target `(a, b) = (…)` is not supported by the MVP " ++
            "reversible-capture (fail-closed)")
      | .columnName name =>
          match name.getLast? with
          | none => .error "empty SET column name"
          | some col =>
              match setColumns rest with
              | .error e => .error e
              | .ok cols => .ok (trimQuotes (Sql.displayIdent col) :: cols)

/-- `update_set_columns`. -/
def updateSetColumns (forwardSql : String) : Except String (List String) :=
  match Sql.parseSql forwardSql with
  | .error e => .error ("parse error: " ++ e)
  | .ok (.update u :: _) =>
      if u.assignments.isEmpty then .error "UPDATE has no SET assignments"
      else setColumns u.assignments
  | .ok _ => .error "forward statement is not a plain UPDATE"

/-- Why the `SET` columns of an update are not certified, if they are not. -/
def setColumnsReason (catalog : Catalog) (statement relation : String) : Option String :=
  match updateSetColumns statement with
  | .error e =>
      some ("cannot determine the UPDATE SET-clause columns (so reversibility " ++
        "cannot be certified): " ++ e)
  | .ok cols =>
      match catalog.uncapturableColumns relation cols with
      | .error e => some ("could not resolve SET-column types on `" ++ relation ++ "`: " ++ e)
      | .ok [] => none
      | .ok bad =>
          some ("UPDATE writes column(s) " ++ debugList (bad.map debugText) ++ " on `" ++
            relation ++ "` whose type the MVP reversible-capture does not support losslessly — " ++
            "refusing rather than commit an unrevertable write (S5 #75, fail-closed)")

/-- `certify_apply_shape`: one key column of type `int4`, or none, and for an
update only columns the capture carries. -/
def certifyApplyShape (catalog : Catalog) (statement : String) (kind : WriteKind)
    (relation : String) : Option String :=
  match catalog.primaryKey (splitRelation relation) with
  | .error e => some ("could not resolve PK shape of `" ++ relation ++ "`: " ++ e)
  | .ok key =>
      match Catalog.pkShape key with
      | .other =>
          some ("target relation `" ++ relation ++ "` does not have a single `int4` " ++
            "primary key — the MVP reversible apply path is constrained to a " ++
            "single-`int4`-PK `UPDATE`/`DELETE` (a wider/composite PK is DEFERRED, " ++
            "fail-closed)")
      | _ =>
          match kind with
          | .delete => none
          | .update => setColumnsReason catalog statement relation

end Shape

/-! ## The rehearsal -/

variable {ω : Type}

/-- What the rolled-back transaction measured. -/
structure Rehearsed where
  checksum : PkChecksum
  rows : Nat
  cascades : List AffectedTable
  fullEffect : List RelationEffect
  triggersFired : List TriggerFired
  locks : List LockHeld
  durationMs : Nat
  walBytes : Nat
  cloneLsn : String
deriving DecidableEq

/-- The database behind a rehearsal. -/
structure Backend (ω : Type) where
  catalog : Catalog
  transaction : String → WriteKind → String → Eff ω String Rehearsed

/-- The measurement of a rehearsal; a relation without a key has no checksum. -/
def Rehearsed.measurement (m : Rehearsed) (relation : String) (key : List (String × String)) :
    Measurement :=
  { target := if key.isEmpty then ⟨relation, none, 0⟩ else ⟨relation, some m.checksum, m.rows⟩
    cascades := m.cascades
    fullEffect := m.fullEffect
    triggersFired := m.triggersFired
    locks := m.locks
    durationMs := m.durationMs
    walBytes := m.walBytes
    constraintViolations := []
    cloneLsn := m.cloneLsn
    stalenessLsnBytes := 0 }

/-- The single key column, where there is one. -/
def Catalog.singlePkColumnName (catalog : Catalog) (relation : String) : Option String :=
  match catalog.primaryKey (splitRelation relation) with
  | .ok [(column, _)] => some column
  | _ => none

/-- `PgRehearsal`, with the switch of `with_self_determined_gate`. -/
def pgRehearsal [Sql] (backend : Backend ω) (gateSelfDetermined : Bool) : Rehearsal ω where
  volatilityOf := steady backend.catalog.volatilityOf
  certifyApplyShape statement kind relation w :=
    (certifyApplyShape backend.catalog statement kind relation, w)
  selfDeterminedPkColumn relation w :=
    (if gateSelfDetermined then backend.catalog.singlePkColumnName relation else none, w)
  rehearse statement kind relation := do
    let m ← backend.transaction statement kind relation
    let key ← Eff.lift (backend.catalog.primaryKey (splitRelation relation))
    pure (m.measurement relation key)

/-! ## The dry-run with the gate off -/

section GateOff

variable [Sql]

/-- One of the refusals of the dry-run applies to this statement: the proposal
expired, the predicate is volatile, the shape is not certified, the transaction
failed, or the target or a cascade has no key. -/
def Refuses (backend : Backend ω) (proposal : Proposal) (kind : WriteKind) (relation : String)
    (clock : Clock ω) (w : ω) : Prop :=
  (proposal.isExpired clock w).1 = true ∨
    (predicateVolatileReason proposal.statement (steady backend.catalog.volatilityOf) ()).1 ≠
      none ∨
    certifyApplyShape backend.catalog proposal.statement kind relation ≠ none ∨
    match backend.transaction proposal.statement kind relation
      (proposal.isExpired clock w).2 with
    | (.error _, _) => True
    | (.ok m, _) =>
        backend.catalog.primaryKey (splitRelation relation) = .ok [] ∨
          ∃ c ∈ m.cascades, c.checksum = none

/-- A certified shape has resolved the key of the relation. -/
theorem certifyApplyShape_none {catalog : Catalog} {statement relation : String}
    {kind : WriteKind} (h : certifyApplyShape catalog statement kind relation = none) :
    catalog.primaryKey (splitRelation relation) = .ok [] ∨
      ∃ column typname, catalog.primaryKey (splitRelation relation) = .ok [(column, typname)] := by
  unfold certifyApplyShape at h
  split at h
  · cases h
  next key hkey =>
    rw [hkey]
    match key with
    | [] => exact .inl rfl
    | [(column, typname)] => exact .inr ⟨column, typname, rfl⟩
    | _ :: _ :: _ => simp [Catalog.pkShape] at h

/-- Behind the classification, with the gate off: the volatility, the shape, the
transaction and the record, in this order. -/
theorem dryRunClassified_eq (backend : Backend ω) (proposal : Proposal) (kind : WriteKind)
    (relation : String) (w : ω) :
    dryRunClassified proposal kind relation (pgRehearsal backend false) w =
      match (predicateVolatileReason proposal.statement
        (steady backend.catalog.volatilityOf) ()).1 with
      | some reason => (.error (.volatile reason), w)
      | none =>
          match certifyApplyShape backend.catalog proposal.statement kind relation with
          | some reason => (.error (.notRehearsable reason), w)
          | none =>
              match (pgRehearsal backend false).rehearse proposal.statement kind relation w with
              | (.error message, w') => (.error (.backend message), w')
              | (.ok m, w') => (assemble proposal kind m, w') := by
  have hvolatile : predicateVolatileReason proposal.statement
      (pgRehearsal backend false).volatilityOf w =
        ((predicateVolatileReason proposal.statement
          (steady backend.catalog.volatilityOf) ()).1, w) :=
    predicateVolatileReason_steady proposal.statement backend.catalog.volatilityOf w
  unfold dryRunClassified
  rw [Eff.ask_bind_apply, hvolatile]
  rcases (predicateVolatileReason proposal.statement
    (steady backend.catalog.volatilityOf) ()).1 with _ | reason
  swap
  · rw [Eff.refuse_some_bind_apply]
  have hshape : (pgRehearsal backend false).certifyApplyShape proposal.statement kind relation w =
      (certifyApplyShape backend.catalog proposal.statement kind relation, w) := rfl
  rw [Eff.refuse_none_bind_apply, Eff.ask_bind_apply, hshape]
  rcases certifyApplyShape backend.catalog proposal.statement kind relation with _ | reason
  swap
  · rw [Eff.refuse_some_bind_apply]
  -- The switch is off: no key column is named and the gate is skipped.
  have hcolumn : (pgRehearsal backend false).selfDeterminedPkColumn relation w = (none, w) := rfl
  have hsteer : steerableReason proposal.statement (pgRehearsal backend false) none w =
      (none, w) := rfl
  rw [Eff.refuse_none_bind_apply, Eff.ask_bind_apply, hcolumn, Eff.ask_bind_apply, hsteer,
    Eff.refuse_none_bind_apply]
  rcases hrun : (pgRehearsal backend false).rehearse proposal.statement kind relation w with
    ⟨e | m, w'⟩
  · exact Eff.bind_of_error (by rw [Eff.mapError_apply, hrun]; rfl)
  · have hmeasured : Eff.mapError DryRunError.backend
        ((pgRehearsal backend false).rehearse proposal.statement kind relation) w =
        (.ok m, w') := by
      rw [Eff.mapError_apply, hrun]
      rfl
    exact Eff.bind_of_ok hmeasured

/-- With the gate off, the dry-run succeeds exactly when no refusal applies; its
record then has a checksum for the target. -/
theorem dryRun_ok_iff (backend : Backend ω) {proposal : Proposal} {kind : WriteKind}
    {relation : String} (hclassify : classify proposal.statement = .ok (kind, relation))
    (clock : Clock ω) (w : ω) :
    (∃ radius w', DryRun.dryRun proposal (pgRehearsal backend false) clock w =
        (.ok radius, w') ∧ relation ∈ radius.affected.pkSetChecksum) ↔
      ¬ Refuses backend proposal kind relation clock w := by
  unfold DryRun.dryRun Refuses
  rw [Eff.ask_bind_apply]
  by_cases hexpired : (proposal.isExpired clock w).1 = true
  · simp [hexpired]
  rw [if_neg hexpired, Eff.bind_of_ok (Eff.lift_of_ok hclassify _), dryRunClassified_eq]
  rcases (predicateVolatileReason proposal.statement
    (steady backend.catalog.volatilityOf) ()).1 with _ | reason
  swap
  · simp
  rcases hshape : certifyApplyShape backend.catalog proposal.statement kind relation with
    _ | reason
  swap
  · simp
  rcases htxn : backend.transaction proposal.statement kind relation
    (proposal.isExpired clock w).2 with ⟨e | m, w'⟩
  · simp [pgRehearsal, Eff.bind_apply, htxn]
  · have hrun : ∀ key, backend.catalog.primaryKey (splitRelation relation) = .ok key →
        (pgRehearsal backend false).rehearse proposal.statement kind relation
          (proposal.isExpired clock w).2 = (.ok (m.measurement relation key), w') := by
      intro key hkey
      show (backend.transaction proposal.statement kind relation >>= _) _ = _
      rw [Eff.bind_of_ok htxn, Eff.bind_of_ok (Eff.lift_of_ok hkey w')]
      rfl
    rcases certifyApplyShape_none hshape with hkey | ⟨column, typname, hkey⟩
    · simp [hrun [] hkey, hkey, assemble, Rehearsed.measurement]
    · have hsum : (m.measurement relation [(column, typname)]).target.checksum ≠ none := by
        simp [Rehearsed.measurement]
      have hiff := assemble_ok_iff proposal kind (m.measurement relation [(column, typname)])
      have hcascades : (m.measurement relation [(column, typname)]).cascades = m.cascades := rfl
      rw [hcascades] at hiff
      rw [hrun _ hkey, hkey]
      constructor
      · rintro ⟨radius, _, hradius, -⟩
        have hall := (hiff.mp ⟨radius, congrArg Prod.fst hradius⟩).2
        simpa [hexpired] using hall
      · intro hno
        have hall : ∀ c ∈ m.cascades, c.checksum ≠ none := by
          simpa [hexpired] using hno
        obtain ⟨radius, hradius⟩ := hiff.mpr ⟨hsum, hall⟩
        refine ⟨radius, w', by simp only [hradius], ?_⟩
        have hmem := assemble_contains hradius
        simpa [Rehearsed.measurement] using hmem

end GateOff

end PgBrakes.Ports.PgRehearsal
