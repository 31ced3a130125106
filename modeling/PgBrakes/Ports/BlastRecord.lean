import Mathlib.Algebra.GroupWithZero.Nat
import Std.Data.TreeMap
import PgBrakes.Verified.MachineWord
import PgBrakes.Ports.TypedInverse

/-!
# The blast-radius record, the clock and the barrier

A port of `crates/core/src/blast_radius.rs`, with the two seams of
`clock.rs` and `barrier.rs` the engines read.  Counters are `u64` in the
source; here they are natural numbers, with the saturation of every addition
written out.  The sums the source leaves plain depend on the build (`Profile`).  A
`BTreeMap` is a `Std.TreeMap`, so iteration is in key order.

The headroom of a suggested cap is a floating-point fraction.  What the code
computes with it is one number per base, the ceiled extra term, and only that
number enters the model (`Headroom`).
-/

namespace PgBrakes.Ports.BlastRecord

open PgBrakes.Verified.MachineWord
open PgBrakes.Ports.TypedInverse

/-- A relation's per-operation change counts. -/
structure OpCounts where
  ins : Nat := 0
  upd : Nat := 0
  del : Nat := 0
deriving DecidableEq, Repr

def OpCounts.total (c : OpCounts) : Nat := satAdd (satAdd c.ins c.upd) c.del

/-- The rows a proposed write would affect. -/
structure Affected where
  byTable : Std.TreeMap String Nat
  cascadeByTable : Std.TreeMap String Nat
  pkSetChecksum : Std.TreeMap String String
  effectByTable : Std.TreeMap String OpCounts
  totalRows : Nat

/-- The absolute ceiling a human approves for one write. -/
structure WriteCap where
  maxRows : Nat
  maxWalBytes : Nat
deriving DecidableEq, Repr

structure TriggerFired where
  name : String
  rows : Nat
deriving DecidableEq, Repr

/-- The lock modes of the server, weakest first. -/
inductive LockMode where
  | accessShareLock
  | rowShareLock
  | rowExclusiveLock
  | shareUpdateExclusiveLock
  | shareLock
  | shareRowExclusiveLock
  | exclusiveLock
  | accessExclusiveLock
deriving DecidableEq, Repr

structure LockHeld where
  relation : String
  mode : LockMode
  heldMs : Nat
deriving DecidableEq, Repr

structure ConstraintViolation where
  relation : String
  constraint : String
deriving DecidableEq, Repr

/-- The record a dry-run produces. -/
structure BlastRadius where
  proposalId : String
  cloneLsn : String
  stalenessLsnBytes : Nat
  affected : Affected
  triggersFired : List TriggerFired
  locks : List LockHeld
  maxLockMode : LockMode
  durationMs : Nat
  walBytes : Nat
  constraintViolations : List ConstraintViolation
  reversible : Bool
  inverseKind : InverseKind
  predicateVolatile : Bool

namespace BlastRadius

/-- Rows of the target and the cascades.  Each of the two sums is a plain one, and
their sum saturates. -/
def computedTotalRowsIn (profile : Profile) (r : BlastRadius) : Option Nat :=
  match plainSum profile r.affected.byTable.values with
  | none => none
  | some direct =>
      match plainSum profile r.affected.cascadeByTable.values with
      | none => none
      | some cascade => some (satAdd direct cascade)

/-- The magnitude of the measured footprint, over all relations and operations. -/
def measuredTuples (r : BlastRadius) : Nat :=
  (r.affected.effectByTable.values.map OpCounts.total).foldl satAdd 0

/-- The magnitude of the whole predicted footprint.  A record without a measured
footprint falls back to the row counts. -/
def predictedTotalTuplesIn (profile : Profile) (r : BlastRadius) : Option Nat :=
  if r.measuredTuples = 0 then r.computedTotalRowsIn profile else some r.measuredTuples

/-- The row counts of a build without overflow checks, as a release build is. -/
def computedTotalRows (r : BlastRadius) : Nat := (r.computedTotalRowsIn .wrapping).getD 0

/-- The predicted footprint of such a build. -/
def predictedTotalTuples (r : BlastRadius) : Nat := (r.predictedTotalTuplesIn .wrapping).getD 0

/-- Without overflow checks the two sums wrap. -/
theorem computedTotalRowsIn_wrapping (r : BlastRadius) :
    r.computedTotalRowsIn .wrapping =
      some (satAdd (r.affected.byTable.values.sum % 2 ^ 64)
        (r.affected.cascadeByTable.values.sum % 2 ^ 64)) := by
  rw [computedTotalRowsIn, plainSum_wrapping, plainSum_wrapping]

theorem computedTotalRows_eq (r : BlastRadius) :
    r.computedTotalRows = satAdd (r.affected.byTable.values.sum % 2 ^ 64)
      (r.affected.cascadeByTable.values.sum % 2 ^ 64) := by
  rw [computedTotalRows, computedTotalRowsIn_wrapping, Option.getD_some]

end BlastRadius

/-- The headroom fraction of a suggested cap, as the code uses it: for each base
the ceiled extra term, or nothing when the term is not finite or too large for
a `u64`. -/
structure Headroom where
  extra : Nat → Option Nat

/-- `base + ceil(base * headroom)`, saturating. -/
def Headroom.withHeadroom (h : Headroom) (base : Nat) : Nat :=
  match h.extra base with
  | none => u64Max
  | some extra => satAdd base extra

/-- The cap with the headroom on top of a predicted number of rows, at least one. -/
def BlastRadius.capFor (r : BlastRadius) (headroom : Headroom) (predicted : Nat) : WriteCap :=
  { maxRows := headroom.withHeadroom (max predicted 1)
    maxWalBytes := headroom.withHeadroom r.walBytes }

/-- The cap a ticket is opened with, sized from the measured magnitude. -/
def BlastRadius.suggestedCapIn (profile : Profile) (r : BlastRadius) (headroom : Headroom) :
    Option WriteCap :=
  (r.predictedTotalTuplesIn profile).map (r.capFor headroom)

/-- The cap of a build without overflow checks. -/
def BlastRadius.suggestedCap (r : BlastRadius) (headroom : Headroom) : WriteCap :=
  r.capFor headroom r.predictedTotalTuples

/-! ## The seams of time and of injected drift -/

/-- The injected clock.  Reading it may change the world, since two readings may
differ. -/
structure Clock (ω : Type) where
  nowUnixMillis : ω → Nat × ω
  monotonicMillis : ω → Nat × ω

/-- The hook between the dry-run and the apply.  Production does nothing there;
a test may change anything. -/
structure ApplyBarrier (ω : Type) where
  pausePoint : String → ω → ω

/-- The production barrier. -/
def ApplyBarrier.noop {ω : Type} : ApplyBarrier ω := ⟨fun _ w => w⟩

end PgBrakes.Ports.BlastRecord
