import PgBrakes.Ports.GuardedApplyRun
import PgBrakes.Ports.Predicate
import PgBrakes.Ports.Grant

/-!
# The grant-gated apply

A port of `crates/clone-orchestrator/src/apply_grant.rs`: the checks that stand
in front of the apply engine, in their order.  The primary-key column is asked
of the connection and the statement's predicate re-checked against it, the
record is cross-checked with the live request and the approved cap, the grant is
verified, and only then is the engine reached.

## Main results

* `run_granted_cases` — every call is refused by the gate, with the nonces and
  the database untouched, or passes it and is the engine's run.
-/

namespace PgBrakes.Ports.GrantedApply

open PgBrakes.Verified.Effect
open PgBrakes.Ports.KeyChecksum
open PgBrakes.Ports.BlastRecord
open PgBrakes.Ports.GuardedApply
open PgBrakes.Ports.GuardedApplyRun
open PgBrakes.Ports.SqlAst
open PgBrakes.Ports.Predicate
open PgBrakes.Ports.Grant

/-- `clone.provider` of the policy. -/
inductive CloneProvider where
  | none
  | dblab
deriving DecidableEq, Repr

/-- The providers the orchestrator knows. -/
inductive ProviderKind where
  | none
  | local
  | dblab
deriving DecidableEq, Repr

def ProviderKind.ofCloneProvider : CloneProvider → ProviderKind
  | .none => .none
  | .dblab => .dblab

/-- The two knobs of the policy the apply path reads. -/
structure PolicyConfig where
  cloneProvider : CloneProvider
  pitrEnabled : Bool
deriving DecidableEq, Repr

structure BridgedApplyConfig where
  provider : ProviderKind
  pitr : PitrConfig
deriving DecidableEq, Repr

def BridgedApplyConfig.fromPolicy (policy : PolicyConfig) : BridgedApplyConfig :=
  { provider := .ofCloneProvider policy.cloneProvider
    pitr := { enabled := policy.pitrEnabled } }

/-- The facts of the request being applied now. -/
structure LiveRequest where
  statementText : String
  normalizedParams : List String
  role : String
  sessionId : String
  proposalId : String
deriving DecidableEq

/-- Why a grant-gated apply was refused or aborted. -/
inductive GrantedApplyError where
  | grant (e : GrantError)
  | apply (e : ApplyError)
  | inconsistent (message : String)
  | notSelfDetermined (reason : NotSelfDetermined)
deriving DecidableEq

def GrantedApplyError.toString : GrantedApplyError → String
  | .grant e => "GRANT REJECTED at apply: " ++ e.toString
  | .apply e => e.toString
  | .inconsistent message => "INVALID GRANT BINDING: " ++ message
  | .notSelfDetermined reason =>
      "GRANT REJECTED at apply: predicate is not self-determined (steerable) — " ++
        reason.toString

/-- An error of the engine behind the gate, as opposed to one of the gate. -/
def GrantedApplyError.isApply : GrantedApplyError → Bool
  | .apply _ => true
  | _ => false

/-- The arguments of one `guarded_apply_with_grant` call, the nonce store
apart. -/
structure GrantCall (ω : Type) where
  policy : PolicyConfig
  grant : GrantToken
  live : LiveRequest
  verifyingKey : VerifyingKey
  kind : WriteKind
  relation : String
  blastRadius : BlastRadius
  conn : ApplyConn ω
  barrier : ApplyBarrier ω
  clock : Clock ω

namespace GrantCall

variable {ω : Type}

/-- The binding re-derived from the live request. -/
def liveBinding (c : GrantCall ω) : GrantBinding :=
  { statementText := c.live.statementText
    normalizedParams := c.live.normalizedParams
    role := c.live.role
    sessionId := c.live.sessionId
    proposalId := c.live.proposalId
    dryRunLsn := c.blastRadius.cloneLsn
    cap := c.grant.binding.cap
    nonce := c.grant.binding.nonce
    expiryUnixMillis := c.grant.binding.expiryUnixMillis }

/-- The structural re-check, skipped when the connection names no single key
column. -/
def predicateCheck [Sql] (c : GrantCall ω) (pkCol : Option String) :
    Except GrantedApplyError Unit :=
  match pkCol with
  | none => .ok ()
  | some col =>
      match selfDeterminedPredicateStructuralReason c.live.statementText col with
      | some reason => .error (.notSelfDetermined reason)
      | none => .ok ()

/-- The record is the one this apply is for, the write has a key, and the
approved cap admits the measured footprint. -/
def consistencyCheck (c : GrantCall ω) : Except GrantedApplyError Unit :=
  if c.blastRadius.proposalId ≠ c.live.proposalId then
    .error (.inconsistent ("blast-radius proposal_id `" ++ c.blastRadius.proposalId ++
      "` != live proposal_id `" ++ c.live.proposalId ++ "`"))
  else if !c.blastRadius.affected.pkSetChecksum.contains c.relation then
    .error (.inconsistent ("blast-radius has no pk_set_checksum for target `" ++
      c.relation ++ "` (un-keyable write)"))
  else if c.grant.binding.cap.maxRows < c.blastRadius.predictedTotalTuples then
    .error (.inconsistent (s!"grant cap max_rows={c.grant.binding.cap.maxRows}" ++
      " cannot admit the dry-run's measured footprint of " ++
      s!"{c.blastRadius.predictedTotalTuples} rows " ++
      "(the approved cap is smaller than the write it authorizes)"))
  else if c.grant.binding.cap.maxWalBytes < c.blastRadius.walBytes then
    .error (.inconsistent (s!"grant cap max_wal_bytes={c.grant.binding.cap.maxWalBytes}" ++
      s!" cannot admit the dry-run's measured {c.blastRadius.walBytes} WAL bytes"))
  else
    .ok ()

/-- The engine call behind the gate. -/
def invocation (c : GrantCall ω) : Invocation ω :=
  { proposalId := c.live.proposalId
    kind := c.kind
    relation := c.relation
    dryRun := c.blastRadius
    cap := c.grant.binding.cap
    pitr := (BridgedApplyConfig.fromPolicy c.policy).pitr
    conn := c.conn
    barrier := c.barrier
    clock := c.clock }

variable [Sha256] [Ed25519] [Sql]

/-- `guarded_apply_with_grant`. -/
def run (c : GrantCall ω) :
    Eff (GateState ω) GrantedApplyError (AppliedWrite × BridgedApplyConfig) := do
  let pkCol ← onCalls id (consult (c.conn.selfDeterminedPkColumn c.relation)
    (.selfDeterminedPkColumn c.relation))
  Eff.lift (c.predicateCheck pkCol)
  Eff.lift c.consistencyCheck
  Eff.mapError .grant (verifyForApply c.grant c.liveBinding c.verifyingKey c.clock)
  let applied ← onCalls .apply c.invocation.run
  pure (applied, BridgedApplyConfig.fromPolicy c.policy)

end GrantCall

/-! ## The two ways a call goes -/

variable {ω : Type}

/-- The state after the key column was asked for. -/
def afterPkColumn (c : GrantCall ω) (s : GateState ω) : GateState ω :=
  { s with calls :=
      ⟨(c.conn.selfDeterminedPkColumn c.relation s.calls.world).2,
        s.calls.log ++ [.selfDeterminedPkColumn c.relation
          (c.conn.selfDeterminedPkColumn c.relation s.calls.world).1]⟩ }

/-- The gate refused: the error is the gate's, the nonces are as they were, and
the connection was at most asked for its key column. -/
structure Refused [Sha256] [Ed25519] [Sql] (c : GrantCall ω) (s s' : GateState ω)
    (e : GrantedApplyError) : Prop where
  run : c.run s = (.error e, s')
  gate : e.isApply = false
  nonces : s'.nonces = s.nonces
  calls : s'.calls = (afterPkColumn c s).calls ∨
    s'.calls = (afterClock c.clock (afterPkColumn c s)).calls

/-- The gate let the call through to the engine. -/
structure Granted [Sha256] [Ed25519] [Sql] (c : GrantCall ω) (s : GateState ω) : Prop where
  signature : c.grant.verifySignature c.verifyingKey = .ok ()
  binding : c.liveBinding.bindingHash = c.grant.binding.bindingHash
  expiry : (c.clock.nowUnixMillis (afterPkColumn c s).calls.world).1 <
    c.grant.binding.expiryUnixMillis
  fresh : c.grant.binding.nonce ∉ s.nonces.used
  predicate : c.predicateCheck
    (c.conn.selfDeterminedPkColumn c.relation s.calls.world).1 = .ok ()
  consistent : c.consistencyCheck = .ok ()
  run : c.run s =
    (((c.invocation.run (afterClock c.clock (afterPkColumn c s)).calls).1.mapError .apply).map
        fun applied => (applied, BridgedApplyConfig.fromPolicy c.policy),
      ⟨⟨insert c.grant.binding.nonce s.nonces.used⟩,
        (c.invocation.run (afterClock c.clock (afterPkColumn c s)).calls).2⟩)

private theorem predicateCheck_gate [Sql] {c : GrantCall ω} {pkCol : Option String}
    {e : GrantedApplyError} (h : c.predicateCheck pkCol = .error e) : e.isApply = false := by
  unfold GrantCall.predicateCheck at h
  split at h
  · cases h
  split at h
  · cases h
    rfl
  · cases h

private theorem consistencyCheck_gate {c : GrantCall ω} {e : GrantedApplyError}
    (h : c.consistencyCheck = .error e) : e.isApply = false := by
  unfold GrantCall.consistencyCheck at h
  split at h
  · cases h
    rfl
  split at h
  · cases h
    rfl
  split at h
  · cases h
    rfl
  split at h
  · cases h
    rfl
  · cases h

/-- A consistent call has a cap that admits what its record predicts. -/
theorem consistencyCheck_ok {c : GrantCall ω} (h : c.consistencyCheck = .ok ()) :
    c.blastRadius.predictedTotalTuples ≤ c.grant.binding.cap.maxRows ∧
      c.blastRadius.walBytes ≤ c.grant.binding.cap.maxWalBytes := by
  unfold GrantCall.consistencyCheck at h
  split at h
  · cases h
  split at h
  · cases h
  split at h
  · cases h
  split at h
  · cases h
  next hrows hwal => exact ⟨Nat.le_of_not_lt hrows, Nat.le_of_not_lt hwal⟩

/-- Every call is refused by the gate or passes it. -/
theorem run_granted_cases [Sha256] [Ed25519] [Sql] (c : GrantCall ω) (s : GateState ω) :
    (∃ e s', Refused c s s' e) ∨ Granted c s := by
  have hpk : onCalls id (consult (c.conn.selfDeterminedPkColumn c.relation)
      (.selfDeterminedPkColumn c.relation)) s =
      ((.ok (c.conn.selfDeterminedPkColumn c.relation s.calls.world).1 :
        Except GrantedApplyError (Option String)), afterPkColumn c s) := rfl
  rcases hpred : c.predicateCheck
      (c.conn.selfDeterminedPkColumn c.relation s.calls.world).1 with e | ⟨⟩
  · left
    refine ⟨e, afterPkColumn c s, ?_, predicateCheck_gate hpred, rfl, .inl rfl⟩
    refine (Eff.bind_of_ok hpk).trans ?_
    rw [hpred]
    rfl
  rcases hcons : c.consistencyCheck with e | ⟨⟩
  · left
    refine ⟨e, afterPkColumn c s, ?_, consistencyCheck_gate hcons, rfl, .inl rfl⟩
    refine (Eff.bind_of_ok hpk).trans ((Eff.bind_of_ok (Eff.lift_of_ok hpred _)).trans ?_)
    rw [hcons]
    rfl
  rcases hverify : verifyForApply c.grant c.liveBinding c.verifyingKey c.clock
      (afterPkColumn c s) with ⟨e | _, s'⟩
  · left
    obtain ⟨hnonces, hstate⟩ := verifyForApply_error hverify
    have hmapped : Eff.mapError GrantedApplyError.grant
        (verifyForApply c.grant c.liveBinding c.verifyingKey c.clock) (afterPkColumn c s) =
        (.error (.grant e), s') := by
      rw [Eff.mapError_apply, hverify]
      rfl
    refine ⟨.grant e, s', ?_, rfl, hnonces, ?_⟩
    · refine (Eff.bind_of_ok hpk).trans ((Eff.bind_of_ok (Eff.lift_of_ok hpred _)).trans ?_)
      exact (Eff.bind_of_ok (Eff.lift_of_ok hcons _)).trans (Eff.bind_of_error hmapped)
    · rcases hstate with rfl | rfl
      · exact .inl rfl
      · exact .inr rfl
  · right
    have hmapped : Eff.mapError GrantedApplyError.grant
        (verifyForApply c.grant c.liveBinding c.verifyingKey c.clock) (afterPkColumn c s) =
        (.ok (), s') := by
      rw [Eff.mapError_apply, hverify]
      rfl
    obtain ⟨hsig, hbind, hexp, hfresh, rfl⟩ := verifyForApply_ok hverify
    refine ⟨hsig, hbind, hexp, hfresh, hpred, hcons, ?_⟩
    refine (Eff.bind_of_ok hpk).trans ((Eff.bind_of_ok (Eff.lift_of_ok hpred _)).trans ?_)
    refine (Eff.bind_of_ok (Eff.lift_of_ok hcons _)).trans ((Eff.bind_of_ok hmapped).trans ?_)
    rcases hinv : c.invocation.run (afterClock c.clock (afterPkColumn c s)).calls with
      ⟨e | applied, calls⟩
    · have hon : onCalls GrantedApplyError.apply c.invocation.run
          (afterGrant c.clock c.grant.binding.nonce (afterPkColumn c s)) =
          (.error (.apply e), ⟨⟨insert c.grant.binding.nonce s.nonces.used⟩, calls⟩) := by
        simp only [onCalls, show (afterGrant c.clock c.grant.binding.nonce
          (afterPkColumn c s)).calls = (afterClock c.clock (afterPkColumn c s)).calls from rfl,
          hinv]
        rfl
      exact (Eff.bind_of_error hon).trans rfl
    · have hon : onCalls GrantedApplyError.apply c.invocation.run
          (afterGrant c.clock c.grant.binding.nonce (afterPkColumn c s)) =
          (.ok applied, ⟨⟨insert c.grant.binding.nonce s.nonces.used⟩, calls⟩) := by
        simp only [onCalls, show (afterGrant c.clock c.grant.binding.nonce
          (afterPkColumn c s)).calls = (afterClock c.clock (afterPkColumn c s)).calls from rfl,
          hinv]
        rfl
      exact (Eff.bind_of_ok hon).trans rfl

end PgBrakes.Ports.GrantedApply
