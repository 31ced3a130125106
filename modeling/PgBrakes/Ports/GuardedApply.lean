import PgBrakes.Verified.Effect
import PgBrakes.Ports.BlastRecord

/-!
# The guarded-apply engine

A port of `crates/clone-orchestrator/src/apply.rs`.  The engine owns the order
of the steps and the guard decisions; the connection owns the SQL and may
answer anything, so it enters as a structure of arbitrary programs over an
arbitrary world.  Every call the engine makes is recorded with its answer: the
results about the engine are results about that log.

The guards are pure functions and are ported under the source's names.
`guardedApply` is the function itself, cut where the source changes phase:
`preflight` is everything it decides before it touches the connection,
`recoveryFence` the restore point, `guardedBody` the steps inside the
transaction, `finish` the arm that commits.
-/

namespace PgBrakes.Ports.GuardedApply

open PgBrakes.Verified.Effect
open PgBrakes.Verified.MachineWord
open PgBrakes.Ports.KeyChecksum
open PgBrakes.Ports.TypedInverse
open PgBrakes.Ports.BlastRecord

/-- The two kinds of write the engine applies. -/
inductive WriteKind where
  | update
  | delete
deriving DecidableEq, Repr

/-- The ceiling a write went past. -/
inductive CapKind where
  | rows
  | walBytes
deriving DecidableEq, Repr

def CapKind.toString : CapKind → String
  | .rows => "rows"
  | .walBytes => "wal_bytes"

/-- The three operation channels of `pg_stat_xact_user_tables`. -/
inductive Channel where
  | ins
  | upd
  | del
deriving DecidableEq, Repr

def Channel.toString : Channel → String
  | .ins => "ins"
  | .upd => "upd"
  | .del => "del"

/-- Why a guarded apply aborted or was refused. -/
inductive ApplyError where
  | refused (op : RefusedOp)
  | capExceeded (relation : String) (kind : CapKind) (cap actual : Nat)
  | unpredictedRelationWrite (relation : String) (changed ins upd del : Nat)
  | relationOverWrite (relation : String) (channel : Channel)
      (predicted actual : OpCounts)
  | irreversibleChange (relation detail : String)
  | uncapturedColumn (relation pk : String) (missing : List String)
  | missingPreImage (relation pk : String)
  | serializationFailure
  | timeout (timeoutMs : Nat)
  | invalidGrant (message : String)
  | backend (message : String)
deriving DecidableEq, Repr

/-- The parenthesized counts of a reconciliation message. -/
def showCounts (c : OpCounts) : String :=
  s!"(ins={c.ins} upd={c.upd} del={c.del})"

def ApplyError.toString : ApplyError → String
  | .refused op => "REFUSED: " ++ op.toString
  | .capExceeded relation kind cap actual =>
      "GUARD ABORT (cap exceeded on `" ++ relation ++ "` [" ++ kind.toString ++
        "]): the live write's " ++ kind.toString ++
        s!" ({actual}) exceeds the approved cap ({cap})"
  | .unpredictedRelationWrite relation changed ins upd del =>
      "GUARD ABORT (unpredicted-relation write on `" ++ relation ++
        s!"`): {changed} tuples changed (ins={ins} upd={upd} del={del}) " ++
        "but the relation is not in the dry-run blast radius"
  | .relationOverWrite relation channel predicted actual =>
      "GUARD ABORT (relation `" ++ relation ++
        "` changed more than predicted on the `" ++ channel.toString ++
        "` channel): predicted=" ++ showCounts predicted ++
        " actual=" ++ showCounts actual
  | .irreversibleChange relation detail =>
      "GUARD ABORT (irreversible change on `" ++ relation ++ "`): " ++ detail
  | .uncapturedColumn relation pk missing =>
      "GUARD ABORT (uncaptured written column on `" ++ relation ++ "` pk=" ++ pk ++
        "): the write mutated column(s) " ++ debugList (missing.map debugText) ++
        " but the typed-inverse captured no pre-image for them — the change " ++
        "is not reversible"
  | .missingPreImage relation pk =>
      "GUARD ABORT (missing pre-image on `" ++ relation ++ "` pk=" ++ pk ++
        "): the forward op wrote a row with no captured FOR UPDATE pre-image " ++
        "(a row committed INTO the predicate after the pre-image snapshot) — " ++
        "its change cannot be reversibly restored"
  | .serializationFailure =>
      "APPLY SERIALIZATION FAILURE (40001): the REPEATABLE READ apply txn could " ++
        "not serialize against a concurrent transaction — aborted, nothing " ++
        "committed (NOT retried: a retry would burn the single-use grant + " ++
        "re-open the TOCTOU)"
  | .timeout timeoutMs =>
      s!"APPLY TIMEOUT: apply exceeded statement_timeout of {timeoutMs}ms" ++
        " — aborted, nothing committed"
  | .invalidGrant message => "INVALID GRANT: " ++ message
  | .backend message => "apply backend failed: " ++ message

/-! ## What the connection answers -/

/-- A written row: its key and its full pre-image. -/
structure CapturedRow where
  pk : PkTuple
  beforeImage : Image
deriving DecidableEq

/-- What the forward operation produced. -/
structure ForwardResult where
  /-- The target rows it wrote, in `RETURNING` order. -/
  written : List CapturedRow
  /-- The pre-images of the cascade children, by relation. -/
  cascadePreimages : Std.TreeMap String (List CapturedRow)
  /-- The columns it assigned on the target. -/
  writtenColumns : List String

/-- A forward result without cascades and without a declared column set. -/
def ForwardResult.new (written : List CapturedRow) : ForwardResult :=
  { written := written, cascadePreimages := ∅, writtenColumns := [] }

/-- The rows captured for a cascade relation. -/
def ForwardResult.cascadeRows (f : ForwardResult) (relation : String) :
    List CapturedRow :=
  f.cascadePreimages.getD relation []

/-- The checksum of the written key set.  Tuples of different arity have
none. -/
def ForwardResult.writtenChecksum [Sha256] (f : ForwardResult) (relation : String) :
    Except ApplyError PkChecksum :=
  match (PkSetBuilder.forRelation relation).pushAll (f.written.map (·.pk)) with
  | .error e => .error (.backend e.toString)
  | .ok b =>
      match b.finalize with
      | .error e => .error (.backend e.toString)
      | .ok checksum => .ok checksum

/-- One relation's tuple deltas, read inside the apply transaction. -/
structure RelationChange where
  relation : String
  ins : Nat
  upd : Nat
  del : Nat
deriving DecidableEq, Repr

def RelationChange.total (c : RelationChange) : Nat :=
  satAdd (satAdd c.ins c.upd) c.del

def RelationChange.asOpCounts (c : RelationChange) : OpCounts :=
  { ins := c.ins, upd := c.upd, del := c.del }

/-- The seam the engine drives. -/
structure ApplyConn (ω : Type) where
  createRestorePoint : String → Eff ω ApplyError String
  begin : Nat → Eff ω ApplyError Unit
  xactWalBytes : Eff ω ApplyError Nat
  selfDeterminedPkColumn : String → ω → Option String × ω
  applyForward : WriteKind → String → List String → Eff ω ApplyError ForwardResult
  xactTupleDeltas : Eff ω ApplyError (List RelationChange)
  commit : Eff ω ApplyError Unit
  rollback : Eff ω ApplyError Unit

/-- A connection that answers from a script, like the in-memory one of the
engine's own tests: every call succeeds, and the forward result and the deltas
are given. -/
def ApplyConn.scripted (forward : ForwardResult) (deltas : List RelationChange) :
    ApplyConn Unit where
  createRestorePoint _ := pure "0/1000000"
  begin _ := pure ()
  xactWalBytes := pure 0
  selfDeterminedPkColumn _ w := (none, w)
  applyForward _ _ _ := pure forward
  xactTupleDeltas := pure deltas
  commit := pure ()
  rollback := pure ()

/-- A call of the engine, with its answer. -/
inductive ApplyCall where
  | clockRead (now : Nat)
  | selfDeterminedPkColumn (relation : String) (answer : Option String)
  | createRestorePoint (label : String) (answer : Except ApplyError String)
  | begin (timeoutMs : Nat) (answer : Except ApplyError Unit)
  | applyForward (kind : WriteKind) (relation : String)
      (answer : Except ApplyError ForwardResult)
  | xactTupleDeltas (answer : Except ApplyError (List RelationChange))
  | xactWalBytes (answer : Except ApplyError Nat)
  | commit (answer : Except ApplyError Unit)
  | rollback (answer : Except ApplyError Unit)

namespace ApplyCall

/-- A commit the connection reported as successful. -/
def isCommit : ApplyCall → Bool
  | .commit (.ok ()) => true
  | _ => false

/-- A commit that was asked for, whatever the answer. -/
def isCommitCall : ApplyCall → Bool
  | .commit _ => true
  | _ => false

def isRollback : ApplyCall → Bool
  | .rollback _ => true
  | _ => false

/-- A transaction the connection reported as open. -/
def isBegin : ApplyCall → Bool
  | .begin _ (.ok ()) => true
  | _ => false

/-- A call for a transaction, whatever the answer. -/
def isBeginCall : ApplyCall → Bool
  | .begin _ _ => true
  | _ => false

/-- Neither a commit nor a rollback. -/
def IsQuiet (c : ApplyCall) : Prop := isCommitCall c = false ∧ isRollback c = false

/-- A quiet call that opens no transaction either. -/
def IsIdle (c : ApplyCall) : Prop := IsQuiet c ∧ isBegin c = false

theorem IsQuiet.isCommit {c : ApplyCall} (h : IsQuiet c) : isCommit c = false := by
  cases c with
  | commit a => exact absurd h.1 (by simp [isCommitCall])
  | _ => rfl

end ApplyCall

/-- An engine program: it drives the world and records its calls. -/
abbrev Apply (ω α : Type) : Type := Eff (Logged ω ApplyCall) ApplyError α

/-! ## The prediction -/

def minStatementTimeoutMs : Nat := 1000

def statementTimeoutMultiplier : Nat := 3

/-- Three times the dry-run's duration, with a floor.  The product saturates. -/
def statementTimeoutMs (dryRunDurationMs : Nat) : Nat :=
  max (min (dryRunDurationMs * statementTimeoutMultiplier) u64Max) minStatementTimeoutMs

structure PitrConfig where
  enabled : Bool
deriving DecidableEq, Repr

/-- Which undo a committed apply leaves available. -/
inductive RecoveryFence where
  | pitrRestorePoint (label lsn : String)
  | typedInverseOnly
deriving DecidableEq, Repr

/-- A committed guarded apply. -/
structure AppliedWrite where
  proposalId : String
  rowsWritten : Nat
  applyChecksum : PkChecksum
  inverse : InversePlan
  fence : RecoveryFence
  statementTimeoutMs : Nat
deriving DecidableEq

def operationFromDryRun (kind : WriteKind) (dryRun : BlastRadius) : Operation :=
  match kind with
  | .update => .update dryRun.reversible true
  | .delete => .delete dryRun.reversible true

/-- The predicted footprint the apply is checked against. -/
structure PredictedBlastRadius where
  /-- The cascade relations with their dry-run checksum. -/
  cascades : List (String × String)
  effectByTable : Std.TreeMap String OpCounts

namespace PredictedBlastRadius

/-- The loop over `cascade_by_table`'s keys: the target is skipped, a relation
without a checksum rejects the grant. -/
def collectCascades (target : String) (checksums : Std.TreeMap String String) :
    List String → Except ApplyError (List (String × String))
  | [] => .ok []
  | rel :: rels =>
      if rel = target then
        collectCascades target checksums rels
      else
        match checksums.get? rel with
        | none => .error (.invalidGrant
            ("blast-radius has no pk_set_checksum for cascade `" ++ rel ++ "`"))
        | some cs =>
            match collectCascades target checksums rels with
            | .error e => .error e
            | .ok rest => .ok ((rel, cs) :: rest)

/-- Assemble the prediction from a dry-run record. -/
def fromGrant (dryRun : BlastRadius) (target : String) :
    Except ApplyError PredictedBlastRadius :=
  let affected := dryRun.affected
  if !affected.pkSetChecksum.contains target then
    .error (.invalidGrant
      ("blast-radius has no pk_set_checksum for target `" ++ target ++ "`"))
  else if affected.effectByTable.isEmpty then
    .error (.invalidGrant
      ("blast-radius for `" ++ target ++ "` has no measured effect_by_table footprint " ++
        "(stale/incomplete grant — cannot reconcile the apply's full effect, refusing)"))
  else if !affected.effectByTable.contains target then
    .error (.invalidGrant
      ("blast-radius effect_by_table is missing the target `" ++ target ++ "`"))
  else
    match collectCascades target affected.pkSetChecksum
        affected.cascadeByTable.keys with
    | .error e => .error e
    | .ok cascades =>
        .ok { cascades := cascades, effectByTable := affected.effectByTable }

end PredictedBlastRadius

/-! ## The guards -/

/-- The channels in the order the source compares them. -/
def Channel.all : List Channel := [.ins, .upd, .del]

def Channel.count (c : OpCounts) : Channel → Nat
  | .ins => c.ins
  | .upd => c.upd
  | .del => c.del

/-- The target's own write channel, which the cap governs. -/
def primaryChannel : WriteKind → Channel
  | .update => .upd
  | .delete => .del

/-- The first channel of `actual` above `predicted` that is not exempt. -/
def overWrittenChannel (predicted actual : OpCounts) (exempt : Channel → Bool) :
    Option Channel :=
  Channel.all.find? fun ch => decide (ch.count actual > ch.count predicted) && !exempt ch

/-- One relation of the reconciliation. -/
def reconcileChange (predicted : PredictedBlastRadius) (target : String)
    (kind : WriteKind) (change : RelationChange) : Except ApplyError Unit :=
  if change.total = 0 then
    .ok ()
  else if !predicted.effectByTable.contains change.relation then
    .error (.unpredictedRelationWrite change.relation change.total
      change.ins change.upd change.del)
  else
    let p := predicted.effectByTable.getD change.relation {}
    let exempt := fun ch => decide (change.relation = target) &&
      decide (ch = primaryChannel kind)
    match overWrittenChannel p change.asOpCounts exempt with
    | some channel => .error (.relationOverWrite change.relation channel p change.asOpCounts)
    | none => .ok ()

/-- Reconcile the transaction's tuple deltas with the prediction, channel by
channel. -/
def reconcileFullEffect (predicted : PredictedBlastRadius) (target : String)
    (kind : WriteKind) : List RelationChange → Except ApplyError Unit
  | [] => .ok ()
  | change :: deltas =>
      match reconcileChange predicted target kind change with
      | .error e => .error e
      | .ok () => reconcileFullEffect predicted target kind deltas

/-- The rows the whole transaction changed. -/
def liveRows (deltas : List RelationChange) : Nat :=
  (deltas.map RelationChange.total).foldl satAdd 0

/-- The comparison of one live measure with its approved ceiling. -/
def enforceCap (relation : String) (kind : CapKind) (cap actual : Nat) :
    Except ApplyError Unit :=
  if actual > cap then .error (.capExceeded relation kind cap actual) else .ok ()

/-- How many pre-images the connection captured for a changed relation. -/
def capturedFor (target relation : String) (forward : ForwardResult) : Nat :=
  if relation = target then forward.written.length
  else (forward.cascadeRows relation).length

/-- One relation of the coverage check: the `del` channel always needs that many
pre-images, the `upd` channel everywhere but on the target. -/
def coverChange (target : String) (forward : ForwardResult) (change : RelationChange) :
    Except ApplyError Unit :=
  let captured := capturedFor target change.relation forward
  if change.total = 0 then
    .ok ()
  else if change.del > 0 ∧ captured < change.del then
    .error (.irreversibleChange change.relation
      (change.relation ++ s!" destroyed {change.del} row(s) but only {captured} " ++
        "pre-image(s) were captured — the typed-inverse cannot restore them " ++
        "(relation outside the captured target/direct-cascade set, e.g. a multi-level " ++
        "grandchild cascade; #48). Fail-closed: refusing to commit an unrevertable change"))
  else if change.relation ≠ target ∧ change.upd > 0 ∧ captured < change.upd then
    .error (.irreversibleChange change.relation
      (change.relation ++ s!" updated {change.upd} row(s) outside the target with only " ++
        s!"{captured} captured pre-image(s) — the typed-inverse cannot restore the prior " ++
        "values (relation outside the captured target/direct-cascade set; #48). " ++
        "Fail-closed: refusing to commit an unrevertable change"))
  else
    .ok ()

/-- Every relation that lost rows has enough captured pre-images. -/
def assertReversiblePreimageCoverage (target : String) (forward : ForwardResult) :
    List RelationChange → Except ApplyError Unit
  | [] => .ok ()
  | change :: deltas =>
      match coverChange target forward change with
      | .error e => .error e
      | .ok () => assertReversiblePreimageCoverage target forward deltas

/-- The assigned columns an inverse must restore, each once and in order.  The
key only addresses the row. -/
def requiredColumns (forward : ForwardResult) : List String :=
  (Std.TreeSet.ofList (forward.writtenColumns.filter (· ≠ "id"))).toList

/-- The columns of a pre-image, without the key. -/
def capturedColumns (row : CapturedRow) : List String :=
  (row.beforeImage.map Prod.fst).filter (· ≠ "id")

/-- The columns a written row should carry and does not.  When the connection
declared no columns, one captured column is enough. -/
def missingColumns (required : List String) (row : CapturedRow) : List String :=
  if required.isEmpty then
    if (capturedColumns row).isEmpty then ["<any written column>"] else []
  else
    required.filter fun c => !(capturedColumns row).contains c

def coverColumns (relation : String) (required : List String) :
    List CapturedRow → Except ApplyError Unit
  | [] => .ok ()
  | row :: rows =>
      let missing := missingColumns required row
      if missing.isEmpty then coverColumns relation required rows
      else .error (.uncapturedColumn relation row.pk.debug missing)

/-- Every written row of an `UPDATE` carries the old value of every assigned
column. -/
def assertWrittenColumnCoverage (kind : WriteKind) (relation : String)
    (forward : ForwardResult) : Except ApplyError Unit :=
  match kind with
  | .delete => .ok ()
  | .update => coverColumns relation (requiredColumns forward) forward.written

/-! ## What the guards let pass -/

/-- The saturated total is zero only when every channel is. -/
theorem RelationChange.total_eq_zero_iff (change : RelationChange) :
    change.total = 0 ↔ change.asOpCounts = {} := by
  rw [RelationChange.total, RelationChange.asOpCounts, OpCounts.mk.injEq]
  simp only [satAdd, u64Max]
  omega

theorem enforceCap_ok_iff {relation : String} {kind : CapKind} {cap actual : Nat} :
    enforceCap relation kind cap actual = .ok () ↔ actual ≤ cap := by
  unfold enforceCap
  split
  · next hover => simp [Nat.not_le.mpr hover]
  · next hunder => simp [Nat.not_lt.mp hunder]

/-- No channel stands out exactly when every channel that is not exempt is
within the prediction. -/
theorem overWrittenChannel_eq_none_iff {predicted actual : OpCounts}
    {exempt : Channel → Bool} :
    overWrittenChannel predicted actual exempt = none ↔
      ∀ ch : Channel, exempt ch = false → ch.count actual ≤ ch.count predicted := by
  have hall : ∀ ch : Channel, ch ∈ Channel.all := by
    intro ch
    cases ch <;> decide
  rw [overWrittenChannel, List.find?_eq_none]
  constructor
  · intro h ch hexempt
    have hch := h ch (hall ch)
    rw [hexempt] at hch
    simpa using hch
  · intro h ch _
    rcases hexempt : exempt ch with _ | _
    · simpa using h ch hexempt
    · simp

/-- One relation passes the reconciliation only within the prediction. -/
theorem reconcileChange_ok {predicted : PredictedBlastRadius} {target : String}
    {kind : WriteKind} {change : RelationChange}
    (h : reconcileChange predicted target kind change = .ok ()) :
    (change.asOpCounts ≠ {} → change.relation ∈ predicted.effectByTable) ∧
      ∀ ch : Channel, ¬ (change.relation = target ∧ ch = primaryChannel kind) →
        ch.count change.asOpCounts ≤
          ch.count (predicted.effectByTable.getD change.relation {}) := by
  unfold reconcileChange at h
  split at h
  · -- An entry without a change has nothing to compare.
    next hzero =>
      have hnone := (RelationChange.total_eq_zero_iff change).mp hzero
      rw [hnone]
      refine ⟨fun hne => absurd rfl hne, fun ch _ => ?_⟩
      cases ch <;> exact Nat.zero_le _
  · split at h
    · cases h
    · next hradius =>
        have hmem : change.relation ∈ predicted.effectByTable := by
          rw [Std.TreeMap.mem_iff_contains]
          simpa using hradius
        refine ⟨fun _ => hmem, fun ch hexempt => ?_⟩
        simp only at h
        split at h
        · cases h
        · next hover =>
            apply overWrittenChannel_eq_none_iff.mp hover ch
            simpa using hexempt

/-- The reconciliation passes only when every relation does. -/
theorem reconcileFullEffect_ok {predicted : PredictedBlastRadius} {target : String}
    {kind : WriteKind} : ∀ {deltas : List RelationChange},
    reconcileFullEffect predicted target kind deltas = .ok () →
      ∀ change ∈ deltas, reconcileChange predicted target kind change = .ok () := by
  intro deltas
  induction deltas with
  | nil =>
      intro _ change hmem
      cases hmem
  | cons head deltas ih =>
      intro h change hmem
      simp only [reconcileFullEffect] at h
      split at h
      · cases h
      · next hhead =>
          rcases List.mem_cons.mp hmem with rfl | hmem
          · exact hhead
          · exact ih h change hmem

/-- One relation passes the coverage check only with enough captured rows for
each channel the check looks at. -/
theorem coverChange_ok {target : String} {forward : ForwardResult} {change : RelationChange}
    (h : coverChange target forward change = .ok ()) :
    change.del ≤ capturedFor target change.relation forward ∧
      (change.relation ≠ target →
        change.upd ≤ capturedFor target change.relation forward) := by
  unfold coverChange at h
  simp only at h
  split at h
  · next hzero =>
      have hnone := (RelationChange.total_eq_zero_iff change).mp hzero
      rw [RelationChange.asOpCounts, OpCounts.mk.injEq] at hnone
      obtain ⟨-, hupd, hdel⟩ := hnone
      exact ⟨by omega, fun _ => by omega⟩
  · split at h
    · cases h
    · next hdel =>
        split at h
        · cases h
        · next hupd =>
            refine ⟨by omega, fun hne => ?_⟩
            by_contra hover
            exact hupd ⟨hne, by omega, by omega⟩

/-- The coverage check passes only when every relation does. -/
theorem assertReversiblePreimageCoverage_ok {target : String} {forward : ForwardResult} :
    ∀ {deltas : List RelationChange},
      assertReversiblePreimageCoverage target forward deltas = .ok () →
        ∀ change ∈ deltas, coverChange target forward change = .ok () := by
  intro deltas
  induction deltas with
  | nil =>
      intro _ change hmem
      cases hmem
  | cons head deltas ih =>
      intro h change hmem
      simp only [assertReversiblePreimageCoverage] at h
      split at h
      · cases h
      · next hhead =>
          rcases List.mem_cons.mp hmem with rfl | hmem
          · exact hhead
          · exact ih h change hmem

/-! ## The inverse -/

/-- The synthetic column that names the owning relation of a cascade row. -/
def relationStamp : String := "__relation"

/-- A cascade row with its relation stamped onto the pre-image. -/
def stampRow (cascadeRel : String) (row : CapturedRow) : InverseRow :=
  { pk := row.pk, beforeImage := row.beforeImage ++ [(relationStamp, .text cascadeRel)] }

/-- A target row, which carries no stamp of the engine's. -/
def targetRow (row : CapturedRow) : InverseRow :=
  { pk := row.pk, beforeImage := row.beforeImage }

/-- One round of the loop over the predicted cascades: push the captured rows,
extend the order. -/
def pushCascade (forward : ForwardResult) (acc : InversePlanBuilder × List String)
    (cascadeRel : String) : InversePlanBuilder × List String :=
  let b := match forward.cascadePreimages.get? cascadeRel with
    | some rows => acc.1.pushRows (stampRow cascadeRel) rows
    | none => acc.1
  (b, acc.2 ++ [cascadeRel])

/-- Build the inverse: the target rows, then the rows of each predicted
cascade.  The order of the relations is the target and then the predicted
cascades as they come. -/
def buildInverse (kind : WriteKind) (relation : String)
    (predicted : PredictedBlastRadius) (forward : ForwardResult) : InversePlan :=
  let inverseKind := match kind with
    | .update => InverseKind.forUpdate
    | .delete => InverseKind.forDelete
  let b := (InversePlanBuilder.new relation inverseKind).pushRows targetRow forward.written
  let looped := (predicted.cascades.map Prod.fst).foldl (pushCascade forward) (b, [relation])
  (looped.1.fkOrder looped.2).build

/-! ## The engine -/

variable {ω : Type} [Sha256]

def restorePointLabel (proposalId : String) (now : Nat) : String :=
  "pgb_" ++ proposalId ++ s!"_{now}"

/-- Everything `guarded_apply` decides before it touches the connection: the
grant cross-check, the cap pre-check and the certified action set. -/
def preflight (proposalId : String) (kind : WriteKind) (relation : String)
    (dryRun : BlastRadius) (cap : WriteCap) : Except ApplyError PredictedBlastRadius :=
  if dryRun.proposalId ≠ proposalId then
    .error (.invalidGrant ("blast-radius proposal_id `" ++ dryRun.proposalId ++
      "` does not match proposal `" ++ proposalId ++ "`"))
  else
    match PredictedBlastRadius.fromGrant dryRun relation with
    | .error e => .error e
    | .ok predicted =>
        if cap.maxRows < dryRun.predictedTotalTuples then
          .error (.capExceeded relation .rows cap.maxRows dryRun.predictedTotalTuples)
        else if cap.maxWalBytes < dryRun.walBytes then
          .error (.capExceeded relation .walBytes cap.maxWalBytes dryRun.walBytes)
        else
          match certify (operationFromDryRun kind dryRun) with
          | .error e => .error (.refused e)
          | .ok _ => .ok predicted

/-- The restore point before the transaction, when continuous archiving is
on. -/
def recoveryFence (proposalId : String) (pitr : PitrConfig) (conn : ApplyConn ω)
    (clock : Clock ω) : Apply ω RecoveryFence :=
  if pitr.enabled then do
    let now ← consult clock.nowUnixMillis .clockRead
    let label := restorePointLabel proposalId now
    let lsn ← perform (conn.createRestorePoint label) (.createRestorePoint label)
    pure (.pitrRestorePoint label lsn)
  else
    pure .typedInverseOnly

/-- The steps inside the open transaction. -/
def guardedBody (kind : WriteKind) (relation : String)
    (predicted : PredictedBlastRadius) (cap : WriteCap) (conn : ApplyConn ω)
    (barrier : ApplyBarrier ω) : Apply ω ForwardResult := do
  disturb (barrier.pausePoint "between dry_run and apply")
  let forward ← perform
    (conn.applyForward kind relation (predicted.cascades.map Prod.fst))
    (.applyForward kind relation)
  let deltas ← perform conn.xactTupleDeltas .xactTupleDeltas
  Eff.lift (reconcileFullEffect predicted relation kind deltas)
  Eff.lift (enforceCap relation .rows cap.maxRows (liveRows deltas))
  let liveWal ← perform conn.xactWalBytes .xactWalBytes
  Eff.lift (enforceCap relation .walBytes cap.maxWalBytes liveWal)
  Eff.lift (assertReversiblePreimageCoverage relation forward deltas)
  Eff.lift (assertWrittenColumnCoverage kind relation forward)
  pure forward

/-- The arm that commits.  The inverse and the checksum are computed after the
commit has returned. -/
def finish (proposalId : String) (kind : WriteKind) (relation : String)
    (predicted : PredictedBlastRadius) (fence : RecoveryFence) (timeoutMs : Nat)
    (forward : ForwardResult) (conn : ApplyConn ω) : Apply ω AppliedWrite := do
  perform conn.commit .commit
  let inverse := buildInverse kind relation predicted forward
  let applyChecksum ← Eff.lift (forward.writtenChecksum relation)
  pure
    { proposalId := proposalId
      rowsWritten := forward.written.length
      applyChecksum := applyChecksum
      inverse := inverse
      fence := fence
      statementTimeoutMs := timeoutMs }

/-- The arm that rolls back.  The rollback's own error does not mask the
guard's. -/
def abandon (e : ApplyError) (conn : ApplyConn ω) : Apply ω AppliedWrite := do
  let _ ← (Eff.attempt (perform conn.rollback .rollback) :
    Apply ω (Except ApplyError Unit))
  Eff.fail e

/-- Apply a dry-run-validated proposal under the guards. -/
def guardedApply (proposalId : String) (kind : WriteKind) (relation : String)
    (dryRun : BlastRadius) (cap : WriteCap) (pitr : PitrConfig) (conn : ApplyConn ω)
    (barrier : ApplyBarrier ω) (clock : Clock ω) : Apply ω AppliedWrite := do
  let predicted ← Eff.lift (preflight proposalId kind relation dryRun cap)
  let fence ← recoveryFence proposalId pitr conn clock
  let timeoutMs := statementTimeoutMs dryRun.durationMs
  perform (conn.begin timeoutMs) (.begin timeoutMs)
  let outcome ← (Eff.attempt (guardedBody kind relation predicted cap conn barrier) :
    Apply ω (Except ApplyError ForwardResult))
  match outcome with
  | .ok forward =>
      finish proposalId kind relation predicted fence timeoutMs forward conn
  | .error e => abandon e conn

end PgBrakes.Ports.GuardedApply
