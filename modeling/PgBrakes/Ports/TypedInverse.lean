import PgBrakes.Ports.KeyChecksum

/-!
# The typed inverse and the certified action set

A port of `crates/core/src/inverse.rs`: the plan a committed write leaves
behind for its revert, and the closed set of operations that may be applied at
all.  The plan is one flat list of rows.  Which relation a row belongs to is
written into the row itself, so the plan alone does not say it; reading it back
is the revert's work.
-/

namespace PgBrakes.Ports.TypedInverse

open PgBrakes.Ports.KeyChecksum

/-- How a committed write is undone. -/
inductive InverseKind where
  | preimageUpsert
  | insert
  | none
deriving DecidableEq, Repr

/-- An `UPDATE` is undone by restoring the pre-image columns. -/
def InverseKind.forUpdate : InverseKind := .preimageUpsert

/-- A `DELETE` is undone by inserting the rows again. -/
def InverseKind.forDelete : InverseKind := .insert

/-- A column value of a pre-image: the same typed values a key is made of. -/
abbrev ImageValue := PkValue

/-- The ordered `(column, before_value)` pairs of one row. -/
abbrev Image := List (String × ImageValue)

/-- One row of the inverse: its key and its pre-image. -/
structure InverseRow where
  pk : PkTuple
  beforeImage : Image
deriving DecidableEq

/-- The effects a revert does not undo. -/
inductive NotRestored where
  | sequenceAdvance
  | triggerSideEffect
  | notifyDelivered
deriving DecidableEq, Repr

def NotRestored.all : List NotRestored :=
  [.sequenceAdvance, .triggerSideEffect, .notifyDelivered]

/-- The captured inverse of one committed write. -/
structure InversePlan where
  relation : String
  kind : InverseKind
  rows : List InverseRow
  fkOrder : List String
  notRestored : List NotRestored
deriving DecidableEq

/-- Accumulates an `InversePlan`. -/
structure InversePlanBuilder where
  relation : String
  kind : InverseKind
  rows : List InverseRow
  fkOrderList : List String

namespace InversePlanBuilder

def new (relation : String) (kind : InverseKind) : InversePlanBuilder :=
  { relation := relation, kind := kind, rows := [], fkOrderList := [relation] }

def pushRow (b : InversePlanBuilder) (row : InverseRow) : InversePlanBuilder :=
  { b with rows := b.rows ++ [row] }

def fkOrder (b : InversePlanBuilder) (order : List String) : InversePlanBuilder :=
  { b with fkOrderList := order }

def build (b : InversePlanBuilder) : InversePlan :=
  { relation := b.relation
    kind := b.kind
    rows := b.rows
    fkOrder := b.fkOrderList
    notRestored := NotRestored.all }

/-- The loop `for row in rows { b = b.push_row(f(row)) }`. -/
def pushRows {α : Type} (f : α → InverseRow) (b : InversePlanBuilder) (rows : List α) :
    InversePlanBuilder :=
  rows.foldl (fun b row => b.pushRow (f row)) b

/-- Pushing in a loop appends the pushed rows and touches nothing else. -/
theorem pushRows_eq {α : Type} (f : α → InverseRow) (b : InversePlanBuilder)
    (rows : List α) : b.pushRows f rows = { b with rows := b.rows ++ rows.map f } := by
  induction rows generalizing b with
  | nil => simp [pushRows]
  | cons row rows ih =>
      have hstep : b.pushRows f (row :: rows) = (b.pushRow (f row)).pushRows f rows := rfl
      rw [hstep, ih]
      simp [pushRow]

end InversePlanBuilder

/-! ## The certified action set -/

inductive CertifiedAction where
  | boundedUpdate
  | boundedDelete
  | nonVolatileInsert
deriving DecidableEq, Repr

/-- Why an operation is outside the certified action set. -/
inductive RefusedOp where
  | truncate
  | drop
  | alter
  | volatileDefaultInsert
  | deleteWithoutPreimage
  | pkLessTable
  | notCertified (name : String)
deriving DecidableEq, Repr

def RefusedOp.toString : RefusedOp → String
  | .truncate => "refused: TRUNCATE is outside the certified action set"
  | .drop => "refused: DROP is outside the certified action set"
  | .alter => "refused: ALTER is outside the certified action set"
  | .volatileDefaultInsert =>
      "refused: INSERT with a volatile default is outside the certified action set"
  | .deleteWithoutPreimage =>
      "refused: DELETE without a captured pre-image cannot be reversed"
  | .pkLessTable => "refused: write to a PK-less / no-replica-identity table"
  | .notCertified name =>
      "refused: operation `" ++ name ++
        "` is not in the certified action set (default-deny)"

/-- A forward operation as the certification gate sees it. -/
inductive Operation where
  | update (hasPreimage hasPk : Bool)
  | delete (hasPreimage hasPk : Bool)
  | insert (volatileDefault hasPk : Bool)
  | truncate
  | drop
  | alter
  | unknown (name : String)
deriving DecidableEq, Repr

/-- The closed allow-list, with everything else refused. -/
def certify : Operation → Except RefusedOp CertifiedAction
  | .update true true => .ok .boundedUpdate
  | .delete true true => .ok .boundedDelete
  | .insert false true => .ok .nonVolatileInsert
  -- The arms below are in the source's order: a missing key is reported before
  -- a missing pre-image.
  | .update _ false => .error .pkLessTable
  | .delete _ false => .error .pkLessTable
  | .insert _ false => .error .pkLessTable
  | .delete false _ => .error .deleteWithoutPreimage
  | .update false _ => .error (.notCertified "UPDATE without pre-image")
  | .insert true _ => .error .volatileDefaultInsert
  | .truncate => .error .truncate
  | .drop => .error .drop
  | .alter => .error .alter
  | .unknown name => .error (.notCertified name)

end PgBrakes.Ports.TypedInverse
