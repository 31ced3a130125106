import PgBrakes.Ports.GuardedApply
import PgBrakes.Ports.Predicate

/-!
# Proposals and the dry-run

A port of `crates/clone-orchestrator/src/proposal.rs` and `dry_run.rs`.  A
proposal is a statement with an id and a time to live.  The dry-run classifies
the statement, passes it through the gates that need no execution, has it
rehearsed, and assembles the measurement into the blast-radius record.

The rehearsal is a seam: any functions of the world.  The process-wide counter
behind the ids is passed in and out.

## Main results

* `dryRun_ok` — what a statement whose dry-run succeeded has passed.
* `assemble_ok` — the fields of the record that do not come from the
  measurement.
-/

namespace PgBrakes.Ports.DryRun

open PgBrakes.Verified.Effect
open PgBrakes.Verified.SelfDelimiting
open PgBrakes.Verified.MachineWord
open PgBrakes.Ports.KeyChecksum
open PgBrakes.Ports.TypedInverse
open PgBrakes.Ports.BlastRecord
open PgBrakes.Ports.GuardedApply
open PgBrakes.Ports.SqlAst
open PgBrakes.Ports.Predicate

/-! ## Proposals -/

/-- Fifteen minutes. -/
def defaultTtlMillis : Nat := 15 * 60 * 1000

/-- A proposed write. -/
structure Proposal where
  id : String
  statement : String
  expectedRows : Option Nat
  createdUnixMillis : Nat
  createdMonotonicMillis : Nat
  ttlMillis : Nat
deriving DecidableEq

variable {ω : Type}

/-- Whether the time to live has elapsed on the monotonic clock. -/
def Proposal.isExpired (p : Proposal) (clock : Clock ω) (w : ω) : Bool × ω :=
  let now := clock.monotonicMillis w
  (decide (now.1 - p.createdMonotonicMillis ≥ p.ttlMillis), now.2)

/-- One byte of FNV-1a. -/
def fnvStep (h : UInt64) (b : UInt8) : UInt64 := (h ^^^ b.toUInt64) * 0x00000100000001b3

/-- The id of a proposal: a 64-bit FNV-1a hash in sixteen hexadecimal digits. -/
def makeId (statement : String) (expectedRows : Option Nat) (createdMillis seq : Nat) : String :=
  let bytes := utf8 statement ++ leBytes 8 (expectedRows.getD u64Max) ++
    leBytes 8 createdMillis ++ leBytes 8 seq
  let h := bytes.foldl fnvStep 0xcbf29ce484222325
  "p-" ++ hexEncode (beBytes 8 h.toNat)

/-- `propose`: the next value of the process counter enters the id. -/
def mintProposal (statement : String) (expectedRows : Option Nat) (clock : Clock ω)
    (seq : Nat) (w : ω) : Proposal × ω :=
  let created := clock.nowUnixMillis w
  let monotonic := clock.monotonicMillis created.2
  ( { id := makeId statement expectedRows created.1 seq
      statement := statement
      expectedRows := expectedRows
      createdUnixMillis := created.1
      createdMonotonicMillis := monotonic.1
      ttlMillis := defaultTtlMillis }
  , monotonic.2 )

/-! ## The measurement and its seam -/

/-- Why a dry-run was refused or failed. -/
inductive DryRunError where
  | volatile (reason : VolatileReason)
  | notRehearsable (message : String)
  | notSelfDetermined (reason : NotSelfDetermined)
  | pkLess (relation : String)
  | expired (id : String)
  | backend (message : String)
deriving DecidableEq, Repr

structure AffectedTable where
  relation : String
  checksum : Option PkChecksum
  rows : Nat
deriving DecidableEq, Repr

structure RelationEffect where
  relation : String
  counts : OpCounts
deriving DecidableEq, Repr

/-- What a rehearsal measured. -/
structure Measurement where
  target : AffectedTable
  cascades : List AffectedTable
  fullEffect : List RelationEffect
  triggersFired : List TriggerFired
  locks : List LockHeld
  durationMs : Nat
  walBytes : Nat
  constraintViolations : List ConstraintViolation
  cloneLsn : String
  stalenessLsnBytes : Nat
deriving DecidableEq

/-- The rehearsal backend. -/
structure Rehearsal (ω : Type) where
  volatilityOf : String → ω → Volatility × ω
  certifyApplyShape : String → WriteKind → String → ω → Option String × ω
  selfDeterminedPkColumn : String → ω → Option String × ω
  rehearse : String → WriteKind → String → Eff ω String Measurement

/-! ## Classification -/

section Classify

variable [Sql]

/-- The relation a table factor names; a bare name is in `public`. -/
def relationOfTableFactor : TableFactor → Option String
  | .table [] => some ""
  | .table [part] => some ("public." ++ Sql.displayIdent part)
  | .table parts => some (String.intercalate "." (parts.map Sql.displayIdent))
  | .other => none

def stmtLabel : Statement → String
  | .insert => "INSERT"
  | .truncate => "TRUNCATE"
  | .drop => "DROP"
  | .alterTable => "ALTER"
  | .createTable => "CREATE TABLE"
  | .query => "SELECT"
  | .merge => "MERGE"
  | .update _ => "unsupported"
  | .delete _ => "unsupported"
  | .other => "unsupported"

/-- The kind and the target of a statement, when it is one certified write. -/
def classify (statement : String) : Except DryRunError (WriteKind × String) :=
  match Sql.parseSql statement with
  | .error e => .error (.notRehearsable ("parse error: " ++ e))
  | .ok [.update u] =>
      match relationOfTableFactor u.table.relation with
      | none => .error (.notRehearsable "UPDATE target is not a plain table")
      | some rel => .ok (.update, rel)
  | .ok [.delete d] =>
      match d.fromTables with
      | [] => .error (.notRehearsable "DELETE has no target table")
      | first :: _ =>
          match relationOfTableFactor first.relation with
          | none => .error (.notRehearsable "DELETE target is not a plain table")
          | some rel => .ok (.delete, rel)
  | .ok [stmt] =>
      .error (.notRehearsable ("statement kind `" ++ stmtLabel stmt ++
        "` is not a certified rehearsable write"))
  | .ok parsed =>
      .error (.notRehearsable s!"expected exactly one statement, got {parsed.length}")

/-- A statement that was classified was parsed. -/
theorem parsed_of_classify {statement : String} {target : WriteKind × String}
    (h : classify statement = .ok target) : ∃ stmts, Sql.parseSql statement = .ok stmts := by
  unfold classify at h
  rcases hparse : Sql.parseSql statement with e | stmts
  · rw [hparse] at h
    cases h
  · exact ⟨stmts, rfl⟩

end Classify

/-! ## The record -/

def WriteKind.inverseKind : WriteKind → InverseKind
  | .update => .forUpdate
  | .delete => .forDelete

def WriteKind.opCounts : WriteKind → Nat → OpCounts
  | .update, n => ⟨0, n, 0⟩
  | .delete, n => ⟨0, 0, n⟩

/-- The strength of a lock mode. -/
def lockRank : LockMode → Nat
  | .accessShareLock => 0
  | .rowShareLock => 1
  | .rowExclusiveLock => 2
  | .shareUpdateExclusiveLock => 3
  | .shareLock => 4
  | .shareRowExclusiveLock => 5
  | .exclusiveLock => 6
  | .accessExclusiveLock => 7

/-- The strongest lock held; a certified write holds at least the default. -/
def maxLockMode : List LockHeld → LockMode
  | [] => .rowExclusiveLock
  | l :: ls => ls.foldl (fun m l' => if lockRank m ≤ lockRank l'.mode then l'.mode else m) l.mode

/-- The loop over the cascades: the maps and the total so far, or the first
cascade without a key. -/
def absorbCascades : List AffectedTable →
    Std.TreeMap String Nat × Std.TreeMap String String × Nat →
    Except DryRunError (Std.TreeMap String Nat × Std.TreeMap String String × Nat)
  | [], acc => .ok acc
  | c :: cs, (byTable, checksums, total) =>
      match c.checksum with
      | none => .error (.pkLess c.relation)
      | some checksum =>
          absorbCascades cs
            ( byTable.insert c.relation c.rows
            , checksums.insert c.relation checksum.asPrefixed
            , satAdd total c.rows )

/-- The footprint: the measured one, or one made of the target and the
cascades. -/
def effectByTable (kind : WriteKind) (m : Measurement) : Std.TreeMap String OpCounts :=
  if m.fullEffect.isEmpty then
    m.cascades.foldl
      (fun effects c => effects.insert c.relation (WriteKind.opCounts kind c.rows))
      ((∅ : Std.TreeMap String OpCounts).insert m.target.relation
        (WriteKind.opCounts kind m.target.rows))
  else
    m.fullEffect.foldl (fun effects e => effects.insert e.relation e.counts) ∅

/-- Turn a measurement into the record. -/
def assemble (proposal : Proposal) (kind : WriteKind) (m : Measurement) :
    Except DryRunError BlastRadius :=
  match m.target.checksum with
  | none => .error (.pkLess m.target.relation)
  | some checksum =>
      match absorbCascades m.cascades
          (∅, (∅ : Std.TreeMap String String).insert m.target.relation checksum.asPrefixed,
            m.target.rows) with
      | .error e => .error e
      | .ok (cascadeByTable, pkSetChecksum, totalRows) => .ok
          { proposalId := proposal.id
            cloneLsn := m.cloneLsn
            stalenessLsnBytes := m.stalenessLsnBytes
            affected :=
              { byTable := (∅ : Std.TreeMap String Nat).insert m.target.relation m.target.rows
                cascadeByTable := cascadeByTable
                pkSetChecksum := pkSetChecksum
                effectByTable := effectByTable kind m
                totalRows := totalRows }
            triggersFired := m.triggersFired
            locks := m.locks
            maxLockMode := maxLockMode m.locks
            durationMs := m.durationMs
            walBytes := m.walBytes
            constraintViolations := m.constraintViolations
            reversible := true
            inverseKind := WriteKind.inverseKind kind
            predicateVolatile := false }

/-- The record names the proposal and is reversible. -/
theorem assemble_ok {proposal : Proposal} {kind : WriteKind} {m : Measurement}
    {r : BlastRadius} (h : assemble proposal kind m = .ok r) :
    r.proposalId = proposal.id ∧ r.reversible = true := by
  unfold assemble at h
  split at h
  · cases h
  split at h
  · cases h
  · cases h
    exact ⟨rfl, rfl⟩

/-- The cascades are absorbed when each of them has a key, and the checksums
already there stay. -/
theorem absorbCascades_ok_iff (cs : List AffectedTable)
    (acc : Std.TreeMap String Nat × Std.TreeMap String String × Nat) :
    (∃ acc', absorbCascades cs acc = .ok acc') ↔ ∀ c ∈ cs, c.checksum ≠ none := by
  induction cs generalizing acc with
  | nil => simp [absorbCascades]
  | cons c cs ih =>
      rcases hsum : c.checksum with _ | checksum
      · simp [absorbCascades, hsum]
      · simp [absorbCascades, hsum, ih]

theorem absorbCascades_contains {cs : List AffectedTable}
    {acc acc' : Std.TreeMap String Nat × Std.TreeMap String String × Nat}
    (h : absorbCascades cs acc = .ok acc') {k : String} (hk : k ∈ acc.2.1) : k ∈ acc'.2.1 := by
  induction cs generalizing acc with
  | nil =>
      cases h
      exact hk
  | cons c cs ih =>
      unfold absorbCascades at h
      split at h
      · cases h
      · exact ih h (Std.TreeMap.mem_insert.mpr (.inr hk))

/-- A record is assembled exactly when the target and every cascade have a key,
and it has a checksum for the target. -/
theorem assemble_ok_iff (proposal : Proposal) (kind : WriteKind) (m : Measurement) :
    (∃ r, assemble proposal kind m = .ok r) ↔
      m.target.checksum ≠ none ∧ ∀ c ∈ m.cascades, c.checksum ≠ none := by
  unfold assemble
  rcases hsum : m.target.checksum with _ | checksum
  · simp
  · rw [← absorbCascades_ok_iff m.cascades (∅,
      (∅ : Std.TreeMap String String).insert m.target.relation checksum.asPrefixed,
      m.target.rows)]
    rcases habsorb : absorbCascades m.cascades (∅,
      (∅ : Std.TreeMap String String).insert m.target.relation checksum.asPrefixed,
      m.target.rows) with e | acc
    · simp [habsorb]
    · simp [habsorb]

theorem assemble_contains {proposal : Proposal} {kind : WriteKind} {m : Measurement}
    {r : BlastRadius} (h : assemble proposal kind m = .ok r) :
    m.target.relation ∈ r.affected.pkSetChecksum := by
  unfold assemble at h
  split at h
  · cases h
  split at h
  · cases h
  · next habsorb =>
      cases h
      exact absorbCascades_contains habsorb (Std.TreeMap.mem_insert_self)

/-! ## The dry-run -/

section DryRun

variable [Sql]

/-- The self-determined gate, skipped when the backend names no key column. -/
def steerableReason (statement : String) (r : Rehearsal ω) (pkCol : Option String) (w : ω) :
    Option NotSelfDetermined × ω :=
  match pkCol with
  | none => (none, w)
  | some col => selfDeterminedPredicateReason statement col r.volatilityOf w

/-- The part of `dry_run` behind the classification: the gates that ask the
backend, the rehearsal, the record. -/
def dryRunClassified (proposal : Proposal) (kind : WriteKind) (relation : String)
    (r : Rehearsal ω) : Eff ω DryRunError BlastRadius := do
  let volatile ← Eff.ask (predicateVolatileReason proposal.statement r.volatilityOf)
  Eff.refuse .volatile volatile
  let shape ← Eff.ask (r.certifyApplyShape proposal.statement kind relation)
  Eff.refuse .notRehearsable shape
  let pkCol ← Eff.ask (r.selfDeterminedPkColumn relation)
  let steerable ← Eff.ask (steerableReason proposal.statement r pkCol)
  Eff.refuse .notSelfDetermined steerable
  let m ← Eff.mapError .backend (r.rehearse proposal.statement kind relation)
  Eff.lift (assemble proposal kind m)

/-- `dry_run`: an expired proposal is refused first, then an uncertified
statement. -/
def dryRun (proposal : Proposal) (r : Rehearsal ω) (clock : Clock ω) :
    Eff ω DryRunError BlastRadius := do
  let expired ← Eff.ask (proposal.isExpired clock)
  if expired then
    Eff.fail (.expired proposal.id)
  else do
    let target ← Eff.lift (classify proposal.statement)
    dryRunClassified proposal target.1 target.2 r

/-- A successful dry-run has passed the classification and every gate, and its
record was assembled from one rehearsal. -/
theorem dryRun_ok {proposal : Proposal} {r : Rehearsal ω} {clock : Clock ω} {w w' : ω}
    {radius : BlastRadius} (h : dryRun proposal r clock w = (.ok radius, w')) :
    ∃ kind relation m, classify proposal.statement = .ok (kind, relation) ∧
      assemble proposal kind m = .ok radius := by
  unfold dryRun at h
  rw [Eff.ask_bind_apply] at h
  split at h
  · cases h
  obtain ⟨target, w₁, hclassify, hrest⟩ := Eff.bind_ok_iff.mp h
  unfold dryRunClassified at hrest
  rw [Eff.ask_bind_apply, Eff.refuse_bind_ok_iff] at hrest
  have hshape := hrest.2
  rw [Eff.ask_bind_apply, Eff.refuse_bind_ok_iff] at hshape
  have hsteer := hshape.2
  rw [Eff.ask_bind_apply, Eff.ask_bind_apply, Eff.refuse_bind_ok_iff] at hsteer
  obtain ⟨m, w₂, -, hassemble⟩ := Eff.bind_ok_iff.mp hsteer.2
  exact ⟨target.1, target.2, m, congrArg Prod.fst hclassify, congrArg Prod.fst hassemble⟩

end DryRun

end PgBrakes.Ports.DryRun
