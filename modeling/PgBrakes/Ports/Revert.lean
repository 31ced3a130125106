import PgBrakes.Ports.GuardedApply

/-!
# The revert engine

A port of `crates/clone-orchestrator/src/revert.rs`: read the relation of every
captured row back out of its pre-image, and hand the rows to the connection
relation by relation, in the order the inverse lists the relations.

Like the apply engine, the revert runs over an arbitrary connection and records
its calls.
-/

namespace PgBrakes.Ports.Revert

open PgBrakes.Verified.Effect
open PgBrakes.Verified.MachineWord
open PgBrakes.Ports.KeyChecksum
open PgBrakes.Ports.TypedInverse
open PgBrakes.Ports.BlastRecord
open PgBrakes.Ports.GuardedApply

/-- Why a revert failed. -/
inductive RevertError where
  | malformedInverse (relation detail : String)
  | malformedRow (relation detail : String)
  | notReversible
  | backend (message : String)
deriving DecidableEq, Repr

def RevertError.toString : RevertError → String
  | .malformedInverse relation detail =>
      "malformed inverse: relation `" ++ relation ++
        "` is in fk_order but has no role here: " ++ detail
  | .malformedRow relation detail =>
      "malformed inverse row on `" ++ relation ++ "`: " ++ detail
  | .notReversible =>
      "inverse kind is NONE — nothing to revert (the write was not reversible)"
  | .backend message => "revert backend failed: " ++ message

/-- A row to restore, already routed and without the routing column. -/
structure RevertRow where
  pk : PkTuple
  beforeImage : Image
deriving DecidableEq

/-- The seam the revert drives. -/
structure RevertConn (ω : Type) where
  begin : Eff ω RevertError Unit
  restoreUpdate : String → List RevertRow → Eff ω RevertError Nat
  restoreInsert : String → List RevertRow → Eff ω RevertError Nat
  commit : Eff ω RevertError Unit
  rollback : Eff ω RevertError Unit

/-- A call of the revert, with its answer. -/
inductive RevertCall where
  | begin (answer : Except RevertError Unit)
  | restoreUpdate (relation : String) (rows : List RevertRow)
      (answer : Except RevertError Nat)
  | restoreInsert (relation : String) (rows : List RevertRow)
      (answer : Except RevertError Nat)
  | commit (answer : Except RevertError Unit)
  | rollback (answer : Except RevertError Unit)

structure RevertReport where
  kind : InverseKind
  restoredByRelation : List (String × Nat)
  totalRestored : Nat
  notRestored : List NotRestored
deriving DecidableEq

abbrev Reverting (ω α : Type) : Type := Eff (Logged ω RevertCall) RevertError α

/-! ## Routing -/

/-- Read the routing column out of a pre-image: the last stamp wins, a stamp
that is not text is an error, and the other columns stay in order. -/
def unstamp (target : String) (relation : Option String) (kept : Image) :
    Image → Except RevertError (Option String × Image)
  | [] => .ok (relation, kept)
  | (col, val) :: rest =>
      if col = relationStamp then
        match val with
        | .text rel => unstamp target (some rel) kept rest
        | other => .error (.malformedRow target
            ("__relation stamp is not text: " ++ other.debug))
      else
        unstamp target relation (kept ++ [(col, val)]) rest

/-- The relation of one captured row and the row to restore there. -/
def routeRow (inverse : InversePlan) (row : InverseRow) :
    Except RevertError (String × RevertRow) :=
  match unstamp inverse.relation none [] row.beforeImage with
  | .error e => .error e
  | .ok (stamp, beforeImage) =>
      let relation := stamp.getD inverse.relation
      if !inverse.fkOrder.contains relation then
        .error (.malformedInverse relation
          ("a captured row is stamped with a relation outside fk_order " ++
            "(the inverse cannot be FK-ordered)"))
      else if beforeImage.isEmpty then
        .error (.malformedRow relation
          "captured row has no pre-image columns to restore")
      else
        .ok (relation, { pk := row.pk, beforeImage := beforeImage })

/-- The loop over the inverse's rows. -/
def routeInto (inverse : InversePlan) (routed : Std.TreeMap String (List RevertRow)) :
    List InverseRow → Except RevertError (Std.TreeMap String (List RevertRow))
  | [] => .ok routed
  | row :: rows =>
      match routeRow inverse row with
      | .error e => .error e
      | .ok (relation, r) =>
          routeInto inverse
            (routed.insert relation (routed.getD relation [] ++ [r])) rows

/-- Route every captured row to its relation. -/
def routeRows (inverse : InversePlan) :
    Except RevertError (Std.TreeMap String (List RevertRow)) :=
  routeInto inverse ∅ inverse.rows

/-! ## The engine -/

variable {ω : Type}

/-- Restore one relation. -/
def restore (kind : InverseKind) (relation : String) (rows : List RevertRow)
    (conn : RevertConn ω) : Reverting ω Nat :=
  match kind with
  | .preimageUpsert =>
      perform (conn.restoreUpdate relation rows) (.restoreUpdate relation rows)
  | .insert =>
      perform (conn.restoreInsert relation rows) (.restoreInsert relation rows)
  -- Unreachable: `revert` has refused this kind before the transaction opens.
  | .none => Eff.fail .notReversible

/-- The loop over `fk_order`, with what was restored so far. -/
def restoreAll (kind : InverseKind) (routed : Std.TreeMap String (List RevertRow))
    (conn : RevertConn ω) (restored : List (String × Nat)) (total : Nat) :
    List String → Reverting ω (List (String × Nat) × Nat)
  | [] => pure (restored, total)
  | relation :: relations => do
      let n ← restore kind relation (routed.getD relation []) conn
      restoreAll kind routed conn (restored ++ [(relation, n)]) (satAdd total n) relations

def revertBody (inverse : InversePlan) (routed : Std.TreeMap String (List RevertRow))
    (conn : RevertConn ω) : Reverting ω RevertReport := do
  let (restored, total) ← restoreAll inverse.kind routed conn [] 0 inverse.fkOrder
  pure
    { kind := inverse.kind
      restoredByRelation := restored
      totalRestored := total
      notRestored := inverse.notRestored }

/-- Apply a captured inverse. -/
def revert (inverse : InversePlan) (conn : RevertConn ω) : Reverting ω RevertReport :=
  if inverse.kind = .none then
    Eff.fail .notReversible
  else do
    let routed ← Eff.lift (routeRows inverse)
    perform conn.begin .begin
    let outcome ← (Eff.attempt (revertBody inverse routed conn) :
      Reverting ω (Except RevertError RevertReport))
    match outcome with
    | .ok report => do
        perform conn.commit .commit
        pure report
    | .error e => do
        let _ ← (Eff.attempt (perform conn.rollback .rollback) :
          Reverting ω (Except RevertError Unit))
        Eff.fail e

end PgBrakes.Ports.Revert
