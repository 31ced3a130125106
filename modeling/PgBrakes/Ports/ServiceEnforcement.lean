import PgBrakes.Ports.ServiceLifecycle

/-!
# What an approval pins

A ticket copies the log position of the cached dry-run and a cap sized from it;
the apply reconciles against whatever dry-run is cached when it runs.  Between the
two, any number of dry-runs may have replaced the cache.  The grant's binding
holds the log position and the cap, so these are what a commit is tied to: the
record it reconciles against is the latest one cached, it was measured at the
approved log position, and its magnitude is within the approved cap.  The rest of
the record (which relations, which cascades, which triggers) is the approved one
when no dry-run came in between.

## Main results

* `run_enforces` — what every commit of every run is tied to.
* `reRehearsedRun_not_as_approved` — a commit that reconciles against another
  footprint than the approved one.
-/

namespace PgBrakes.Ports.ServiceEnforcement

open PgBrakes.Verified.Effect
open PgBrakes.Verified.History
open PgBrakes.Ports.KeyChecksum
open PgBrakes.Ports.BlastRecord
open PgBrakes.Ports.GuardedApply
open PgBrakes.Ports.GuardedApplyAtomicity
open PgBrakes.Ports.SqlAst
open PgBrakes.Ports.Grant
open PgBrakes.Ports.GrantedApply
open PgBrakes.Ports.DryRun
open PgBrakes.Ports.Approval
open PgBrakes.Ports.ApplyService
open PgBrakes.Ports.ServiceRun
open PgBrakes.Ports.ServiceLifecycle

variable {ω : Type}

/-- The record cached on a proposal. -/
def cachedRadius (service : Service) (p : String) : Option BlastRadius :=
  (service.proposals[p]?.bind (·.dryRun)).map (·.blastRadius)

theorem cachedRadius_of {service : Service} {p : String} {record : ProposalRecord}
    {dry : DryRunState} (hstored : service.proposals[p]? = some record)
    (hcached : record.dryRun = some dry) : cachedRadius service p = some dry.blastRadius := by
  simp [cachedRadius, hstored, hcached]

/-- `q` opened the ticket from whose approval the service has this grant of `p`.
`between` are the calls after `q`, the approval among them. -/
def ApprovedBy (history : List (ServiceRecord ω)) (p : String) (grant : GrantToken)
    (q : ServiceRecord ω) (between : List (ServiceRecord ω)) : Prop :=
  ∃ first a requestId approverId key nonce, history = first ++ q :: between ∧ a ∈ between ∧
    q.Opens p requestId ∧ a.Approves requestId approverId key nonce ∧
    a.after.grants[p]? = some grant

/-- What a reconciled record has in common with the approved one. -/
structure Pinned (cfg : DaemonConfig ω) (approved enforced : BlastRadius) : Prop where
  cloneLsn : enforced.cloneLsn = approved.cloneLsn
  rows : enforced.predictedTotalTuples ≤ (approved.suggestedCap cfg.rowHeadroom).maxRows
  wal : enforced.walBytes ≤
    max (approved.suggestedCap cfg.walHeadroom).maxWalBytes defaultWalFloorBytes

/-- The record was cached by the latest dry-run of `p`. -/
def LatestOf (history : List (ServiceRecord ω)) (p : String) (radius : BlastRadius) : Prop :=
  ∃ first d rest, history = first ++ d :: rest ∧ d.DryRan p ∧
    cachedRadius d.after p = some radius ∧ ∀ x ∈ rest, ¬ x.DryRan p

/-- What a commit of `p` is tied to. -/
def Enforced (cfg : DaemonConfig ω) (history : List (ServiceRecord ω)) (r : ServiceRecord ω) :
    Prop :=
  ∀ p, r.applies = some p → 0 < commits r.log →
    ∃ g q between approved, r.gateCalls = [g] ∧ LatestOf history p g.blastRadius ∧
      ApprovedBy history p g.grant q between ∧ cachedRadius q.before p = some approved ∧
      Pinned cfg approved g.blastRadius ∧
      ((∀ x ∈ between, ¬ x.DryRan p) → g.blastRadius = approved)

/-- The binding the gate derives from its arguments. -/
def liveBindingOf (g : GateCall) : GrantBinding :=
  { statementText := g.live.statementText
    normalizedParams := g.live.normalizedParams
    role := g.live.role
    sessionId := g.live.sessionId
    proposalId := g.live.proposalId
    dryRunLsn := g.blastRadius.cloneLsn
    cap := g.grant.binding.cap
    nonce := g.grant.binding.nonce
    expiryUnixMillis := g.grant.binding.expiryUnixMillis }

/-- The byte streams whose hashes the gate compares in a run. -/
def gateStreams (history : List (ServiceRecord ω)) : Set (List UInt8) :=
  { bytes | ∃ r ∈ history, ∃ g ∈ r.gateCalls,
    bytes = (liveBindingOf g).encode ∨ bytes = g.grant.binding.encode }

/-- The bindings of a run are within the bounds of the source's types. -/
def FitsRun (history : List (ServiceRecord ω)) : Prop :=
  ∀ r ∈ history, ∀ g ∈ r.gateCalls, (liveBindingOf g).Fits ∧ g.grant.binding.Fits

/-- Equal hashes of one call of the gate mean equal bindings. -/
def ToldApart [Sha256] (g : GateCall) : Prop :=
  (liveBindingOf g).bindingHash = g.grant.binding.bindingHash →
    liveBindingOf g = g.grant.binding

/-! ## The invariant -/

/-- The cache of `p` is still the one of `dry` unless a dry-run came in
between. -/
def Unmoved (service : Service) (p : String) (dry : DryRunState)
    (between : List (ServiceRecord ω)) : Prop :=
  (∀ x ∈ between, ¬ x.DryRan p) → ∀ record dry', service.proposals[p]? = some record →
    record.dryRun = some dry' → dry' = dry

/-- What the maps say about the dry-runs behind them. -/
structure Sourced [Sha256] [Ed25519] (cfg : DaemonConfig ω) (history : List (ServiceRecord ω))
    (service : Service) : Prop where
  cached : ∀ p record dry, service.proposals[p]? = some record → record.dryRun = some dry →
    LatestOf history p dry.blastRadius
  opened : ∀ requestId p, service.requestToProposal[requestId]? = some p →
    ∃ request first q between record dry, service.flow.requests[requestId]? = some request ∧
      history = first ++ q :: between ∧ q.Opens p requestId ∧
      q.before.proposals[p]? = some record ∧ record.dryRun = some dry ∧
      request.proposal = bindingProposal cfg record dry ∧ Unmoved service p dry between
  signed : ∀ p grant, service.grants[p]? = some grant →
    ∃ q between record dry nonce expiry key, ApprovedBy history p grant q between ∧
      q.before.proposals[p]? = some record ∧ record.dryRun = some dry ∧
      grant = GrantToken.sign ((bindingProposal cfg record dry).toBinding nonce expiry) key ∧
      Unmoved service p dry between

/-! ## One call -/

private theorem not_dryRan_of_opens {r : ServiceRecord ω} {p p' requestId : String}
    (h : r.Opens p requestId) : ¬ r.DryRan p' := by
  obtain ⟨reason, result, hcall, -⟩ := h
  rintro ⟨rehearsal, result', hcall', -⟩
  rw [hcall] at hcall'
  cases hcall'

private theorem ApprovedBy.keep {history between : List (ServiceRecord ω)}
    {q r : ServiceRecord ω} {p : String} {grant : GrantToken}
    (h : ApprovedBy history p grant q between) :
    ApprovedBy (history ++ [r]) p grant q (between ++ [r]) := by
  obtain ⟨first, a, requestId, approverId, key, nonce, heq, ha, hrest⟩ := h
  exact ⟨first, a, requestId, approverId, key, nonce, by rw [heq]; simp, by simp [ha], hrest⟩

section Step

variable [Sha256] [Ed25519] [Sql] {cfg : DaemonConfig ω} {history : List (ServiceRecord ω)}
  {r : ServiceRecord ω}

/-- A call other than a dry-run of `p` leaves what is cached on `p`. -/
private theorem cached_of_not_dryRan (h : Outcome cfg r.before r r.after) {p : String}
    (hnot : ¬ r.DryRan p) {record : ProposalRecord} {dry : DryRunState}
    (hafter : r.after.proposals[p]? = some record) (hdry : record.dryRun = some dry) :
    r.before.proposals[p]? = some record := by
  rcases h.proposals hafter with hold | ⟨-, hnone, -⟩ | ⟨old, dry', hran, -⟩
  · exact hold
  · rw [hnone] at hdry
    cases hdry
  · exact absurd hran hnot

private theorem Unmoved.keep (h : Outcome cfg r.before r r.after) {p : String}
    {dry : DryRunState} {between : List (ServiceRecord ω)}
    (hunmoved : Unmoved r.before p dry between) :
    Unmoved r.after p dry (between ++ [r]) := by
  intro hnone record dry' hafter hdry
  have hnot : ¬ r.DryRan p := hnone r (by simp)
  have hpast : ∀ x ∈ between, ¬ x.DryRan p := fun x hx => hnone x (by simp [hx])
  exact hunmoved hpast record dry' (cached_of_not_dryRan h hnot hafter hdry) hdry

private theorem cached_step (h : Outcome cfg r.before r r.after)
    (hinv : Sourced cfg history r.before) {p : String} {record : ProposalRecord}
    {dry : DryRunState} (hafter : r.after.proposals[p]? = some record)
    (hdry : record.dryRun = some dry) : LatestOf (history ++ [r]) p dry.blastRadius := by
  by_cases hran : r.DryRan p
  · exact ⟨history, r, [], rfl, hran, cachedRadius_of hafter hdry, by simp⟩
  · obtain ⟨first, d, rest, heq, hd, hcached, hrest⟩ :=
      hinv.cached p record dry (cached_of_not_dryRan h hran hafter hdry) hdry
    refine ⟨first, d, rest ++ [r], by rw [heq]; simp, hd, hcached, ?_⟩
    intro x hx
    rcases List.mem_append.mp hx with hx | hx
    · exact hrest x hx
    · rw [List.mem_singleton.mp hx]
      exact hran

private theorem opened_step (h : Outcome cfg r.before r r.after)
    (hinv : Sourced cfg history r.before) {requestId p : String}
    (hafter : r.after.requestToProposal[requestId]? = some p) :
    ∃ request first q between record dry, r.after.flow.requests[requestId]? = some request ∧
      history ++ [r] = first ++ q :: between ∧ q.Opens p requestId ∧
      q.before.proposals[p]? = some record ∧ record.dryRun = some dry ∧
      request.proposal = bindingProposal cfg record dry ∧ Unmoved r.after p dry between := by
  rcases h.tickets hafter with hold |
    ⟨record, dry, request, hopens, hstored, hcached, hrequest, hbinding, -⟩
  · obtain ⟨request, first, q, between, record, dry, hrequest, heq, hopens, hstored, hcached,
      hbinding, hunmoved⟩ := hinv.opened requestId p hold
    obtain ⟨request', hrequest', hproposal, -⟩ := h.requests hrequest
    exact ⟨request', first, q, between ++ [r], record, dry, hrequest', by rw [heq]; simp,
      hopens, hstored, hcached, hproposal.trans hbinding, hunmoved.keep h⟩
  · refine ⟨request, history, r, [], record, dry, hrequest, rfl, hopens, hstored, hcached,
      hbinding, ?_⟩
    intro _ record' dry' hafter' hdry'
    have hsame := cached_of_not_dryRan h (not_dryRan_of_opens hopens) hafter' hdry'
    rw [hstored] at hsame
    cases hsame
    rw [hcached] at hdry'
    cases hdry'
    rfl

private theorem signed_step (h : Outcome cfg r.before r r.after)
    (hinv : Sourced cfg history r.before) {p : String} {grant : GrantToken}
    (hafter : r.after.grants[p]? = some grant) :
    ∃ q between record dry nonce expiry key, ApprovedBy (history ++ [r]) p grant q between ∧
      q.before.proposals[p]? = some record ∧ record.dryRun = some dry ∧
      grant = GrantToken.sign ((bindingProposal cfg record dry).toBinding nonce expiry) key ∧
      Unmoved r.after p dry between := by
  rcases h.grants hafter with hold |
    ⟨requestId, approverId, key, nonce, request, expiry, happroves, -, hticket, hrequest, -,
      hgrant⟩
  · obtain ⟨q, between, record, dry, nonce, expiry, key, happroved, hstored, hcached, hgrant,
      hunmoved⟩ := hinv.signed p grant hold
    exact ⟨q, between ++ [r], record, dry, nonce, expiry, key, happroved.keep, hstored, hcached,
      hgrant, hunmoved.keep h⟩
  · obtain ⟨request', first, q, between, record, dry, hrequest', heq, hopens, hstored, hcached,
      hbinding, hunmoved⟩ := hinv.opened requestId p hticket
    rw [hrequest] at hrequest'
    cases hrequest'
    refine ⟨q, between ++ [r], record, dry, nonce, expiry, key, ?_, hstored, hcached, ?_,
      hunmoved.keep h⟩
    · exact ⟨first, r, requestId, approverId, key, nonce, by rw [heq]; simp, by simp, hopens,
        happroves, hafter⟩
    · rw [hgrant, hbinding]

/-- A commit is tied to the latest dry-run and to the approved one. -/
private theorem enforced_step (h : Outcome cfg r.before r r.after)
    (happart : ∀ g ∈ r.gateCalls, ToldApart g) (hinv : Sourced cfg history r.before) :
    Enforced cfg history r := by
  intro p hp hcommit
  have hlog : r.log ≠ [] := by
    intro hnil
    rw [hnil] at hcommit
    exact absurd hcommit (by decide)
  obtain ⟨p', confirmRows, confirmToken, conn, barrier, clock, w, record, dry, grant, hcall,
    hstored, hcached, hgranted, hgate, hrlog, -⟩ := h.reached hlog
  have hsame : p' = p := by
    simpa [ServiceRecord.applies, hcall] using hp
  subst hsame
  let g := gateCallOf p' record dry grant
  rw [hrlog] at hcommit
  have hpassed := ((gate_commits (g.grantCall cfg conn barrier clock) r.before.applyNonces w).2
    hcommit).1
  have hbinding : liveBindingOf g = grant.binding :=
    happart g (by rw [hgate]; simp [g]) hpassed.binding
  have hcap := consistencyCheck_ok hpassed.consistent
  obtain ⟨q, between, old, oldDry, nonce, expiry, key, happroved, hq, hqdry, hsigned,
    hunmoved⟩ := hinv.signed p' grant hgranted
  have hlsn : dry.blastRadius.cloneLsn = grant.binding.dryRunLsn :=
    congrArg GrantBinding.dryRunLsn hbinding
  rw [hsigned] at hlsn
  refine ⟨g, q, between, oldDry.blastRadius, hgate, hinv.cached p' record dry hstored hcached,
    happroved, cachedRadius_of hq hqdry, ⟨hlsn, ?_, ?_⟩, ?_⟩
  · have hrows : dry.blastRadius.predictedTotalTuples ≤ grant.binding.cap.maxRows := hcap.1
    rw [hsigned] at hrows
    exact hrows
  · have hwal : dry.blastRadius.walBytes ≤ grant.binding.cap.maxWalBytes := hcap.2
    rw [hsigned] at hwal
    exact hwal
  · intro hnone
    exact congrArg DryRunState.blastRadius (hunmoved hnone record dry hstored hcached)

/-- One call keeps the invariant, and a commit is tied to what the maps hold. -/
theorem sourced_step (h : Outcome cfg r.before r r.after) (hinv : Sourced cfg history r.before) :
    ((∀ g ∈ r.gateCalls, ToldApart g) → Enforced cfg history r) ∧
      Sourced cfg (history ++ [r]) r.after :=
  ⟨fun happart => enforced_step h happart hinv,
    { cached := fun _ _ _ hafter hdry => cached_step h hinv hafter hdry
      opened := fun _ _ hafter => opened_step h hinv hafter
      signed := fun _ _ hafter => signed_step h hinv hafter }⟩

end Step

/-! ## Whole runs -/

private theorem sourced_new [Sha256] [Ed25519] (cfg : DaemonConfig ω) :
    Sourced cfg [] Service.new where
  cached p record dry h := by simp [Service.new] at h
  opened requestId p h := by simp [Service.new] at h
  signed p grant h := by simp [Service.new] at h

/-- Every commit of every run reconciles against the latest dry-run of its
proposal, measured at the approved log position and within the approved cap; and
against the approved record itself when no dry-run came after its ticket. -/
theorem run_enforces [Sha256] [Ed25519] [Sql] (cfg : DaemonConfig ω)
    (inputs : List (ServiceInput ω)) (seq : Nat) (w : ω)
    (hhash : Set.InjOn Sha256.digest (gateStreams (serviceHistory cfg inputs seq w)))
    (hfits : FitsRun (serviceHistory cfg inputs seq w)) :
    EveryStep (Enforced cfg) (serviceHistory cfg inputs seq w) := by
  have hrule := run_rule (serviceStep cfg)
    (fun history (s : DaemonState ω) => Sourced cfg history s.service) (fun _ => True)
    (fun history r => (∀ g ∈ r.gateCalls, ToldApart g) → Enforced cfg history r)
    (fun history s i _ hinv => by
      have hstep := serviceStep_outcome cfg i s
      exact sourced_step (r := (serviceStep cfg i s).1) hstep hinv)
    (s := ⟨.new, seq, w⟩) (sourced_new cfg) (fun i (_ : i ∈ inputs) => trivial)
  intro before r after heq
  refine hrule.2 before r after heq ?_
  intro g hg hequal
  have hr : r ∈ serviceHistory cfg inputs seq w := by
    rw [heq]
    simp
  have hencode : (liveBindingOf g).encode = g.grant.binding.encode :=
    hhash ⟨r, hr, g, hg, .inl rfl⟩ ⟨r, hr, g, hg, .inr rfl⟩ hequal
  exact GrantBinding.encode_injective (hfits r hr g hg).1 (hfits r hr g hg).2 hencode

/-! ## A dry-run between the ticket and the apply -/

/-- The parts of a record that an apply reconciles against. -/
structure Footprint where
  effects : List (String × OpCounts)
  cascades : List (String × Nat)
  triggers : List TriggerFired
deriving DecidableEq

def footprint (r : BlastRadius) : Footprint :=
  ⟨r.affected.effectByTable.toList, r.affected.cascadeByTable.toList, r.triggersFired⟩

/-- The apply reconciled against the footprint that was cached when the approved
ticket was opened. -/
def AsApproved (history : List (ServiceRecord ω)) (r : ServiceRecord ω) : Prop :=
  ∀ p, r.applies = some p → 0 < commits r.log → ∀ g ∈ r.gateCalls,
    ∃ q between approved, ApprovedBy history p g.grant q between ∧
      cachedRadius q.before p = some approved ∧ footprint g.blastRadius = footprint approved

/-- The rehearsal after a trigger was added to the table, at the same log
position. -/
def triggeredRehearsal : Rehearsal Unit :=
  { accountsRehearsal with
    rehearse := fun _ _ _ => pure { accountsMeasurement with
      fullEffect := [⟨"public.accounts", ⟨0, 2, 0⟩⟩, ⟨"public.audit", ⟨1, 0, 0⟩⟩]
      triggersFired := [⟨"audit_accounts", 1⟩] } }

/-- A proposal that is rehearsed again after its approval. -/
def reRehearsed : List (ServiceInput Unit) :=
  [ .propose GrantSingleUse.accountsBinding.statementText none "app" "agent"
  , .dryRun accountsId accountsRehearsal
  , .requestElevation accountsId "once"
  , .approve "req-00000001" "alice" GrantSingleUse.approverKey "n1" 1000
  , .dryRun accountsId triggeredRehearsal
  , .apply accountsId 2 none (.scripted GrantSingleUse.plainForward
      [⟨"public.accounts", 0, 2, 0⟩, ⟨"public.audit", 1, 0, 0⟩]) .noop ].map fun call =>
    ⟨call, ⟨fun w => (0, w), fun w => (0, w)⟩⟩

/-- The footprint of the second rehearsal. -/
def triggeredFootprint : Footprint :=
  ⟨[("public.accounts", ⟨0, 2, 0⟩), ("public.audit", ⟨1, 0, 0⟩)], [], [⟨"audit_accounts", 1⟩]⟩

/-- The binding of the one grant of that run. -/
def reRehearsedBinding : GrantBinding :=
  { GrantSingleUse.accountsBinding with
    proposalId := accountsId
    cap := { maxRows := 3, maxWalBytes := 65536 } }

/-- The call is a `request_elevation`. -/
def isElevation (r : ServiceRecord ω) : Bool :=
  match r.call with
  | .requestElevation _ _ => true
  | _ => false

/-- The commit of that run is tied to its approval by log position and cap. -/
theorem run_enforces_reRehearsed :
    letI := Sha256.standard
    letI := GrantSingleUse.sharedBytes
    letI := accountsSql
    EveryStep (Enforced accountsDaemon) (serviceHistory accountsDaemon reRehearsed 0 ()) := by
  let _ := Sha256.standard
  let _ := GrantSingleUse.sharedBytes
  let _ := accountsSql
  have hgate : ∀ r ∈ serviceHistory accountsDaemon reRehearsed 0 (), ∀ g ∈ r.gateCalls,
      liveBindingOf g = reRehearsedBinding ∧ g.grant.binding = reRehearsedBinding := by
    decide +kernel
  have hfits : reRehearsedBinding.Fits := by constructor <;> decide +kernel
  apply run_enforces
  · have hone : gateStreams (serviceHistory accountsDaemon reRehearsed 0 ()) ⊆
        {reRehearsedBinding.encode} := by
      rintro bytes ⟨r, hr, g, hg, heq | heq⟩
      · rw [heq, (hgate r hr g hg).1]
        rfl
      · rw [heq, (hgate r hr g hg).2]
        rfl
    exact (Set.injOn_singleton _ _).mono hone
  · intro r hr g hg
    rw [(hgate r hr g hg).1, (hgate r hr g hg).2]
    exact ⟨hfits, hfits⟩

/-- That commit reconciles against another footprint than the approved one. -/
theorem reRehearsedRun_not_as_approved :
    letI := Sha256.standard
    letI := GrantSingleUse.sharedBytes
    letI := accountsSql
    ¬ EveryStep AsApproved (serviceHistory accountsDaemon reRehearsed 0 ()) := by
  let _ := Sha256.standard
  let _ := GrantSingleUse.sharedBytes
  let _ := accountsSql
  intro hall
  have hcommit : ∃ r ∈ serviceHistory accountsDaemon reRehearsed 0 (),
      r.applies = some accountsId ∧ 0 < commits r.log ∧
        r.gateCalls.map (footprint ·.blastRadius) = [triggeredFootprint] := by
    decide +kernel
  have hopened : ∀ q ∈ serviceHistory accountsDaemon reRehearsed 0 (), isElevation q = true →
      (cachedRadius q.before accountsId).map footprint ≠ some triggeredFootprint := by
    decide +kernel
  obtain ⟨r, hr, hp, hlog, hfoot⟩ := hcommit
  obtain ⟨before, after, heq⟩ := List.append_of_mem hr
  obtain ⟨g, hg⟩ : ∃ g, g ∈ r.gateCalls :=
    List.exists_mem_of_ne_nil _ (by rintro hnil; rw [hnil] at hfoot; cases hfoot)
  obtain ⟨q, between, approved, ⟨first, a, requestId, approverId, key, nonce, hsplit, -,
    ⟨reason, result, hcall, -⟩, -⟩, hcached, hsame⟩ := hall before r after heq _ hp hlog g hg
  have hq : q ∈ serviceHistory accountsDaemon reRehearsed 0 () := by
    rw [heq, hsplit]
    simp
  have hg' : footprint g.blastRadius = triggeredFootprint := by
    have hmem := List.mem_map_of_mem (f := (footprint ·.blastRadius)) hg
    rw [hfoot] at hmem
    simpa using hmem
  apply hopened q hq (by simp only [isElevation, hcall])
  rw [hcached, Option.map_some, ← hsame, hg']

end PgBrakes.Ports.ServiceEnforcement
