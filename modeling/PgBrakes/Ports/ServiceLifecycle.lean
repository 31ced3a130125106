import PgBrakes.Ports.GuardedApplyAtomicity
import PgBrakes.Ports.GrantSingleUse
import PgBrakes.Ports.ServiceRun

/-!
# The life of a proposal

A commit of a proposal is preceded, in every run of the service, by the propose
that stored it, by a dry-run, by a ticket and by the approval of that ticket; and
a proposal commits at most once.

The second half depends on the connection.  The service consumes a proposal when
the apply returns a success, and the engine can commit and return an error: when
the keys of the written rows have different numbers of columns, the checksum
after the commit does not exist.  Such a proposal stays in the service, and the
next approval lets it commit again.

## Main results

* `run_lifecycle_safe` — over connections that report keys of one arity, every
  run is safe.
* `recommittedRun_not_safe` — a run in which a proposal commits twice.
-/

namespace PgBrakes.Ports.ServiceLifecycle

open PgBrakes.Verified.Effect
open PgBrakes.Verified.History
open PgBrakes.Ports.KeyChecksum
open PgBrakes.Ports.TypedInverse
open PgBrakes.Ports.BlastRecord
open PgBrakes.Ports.GuardedApply
open PgBrakes.Ports.GuardedApplyRun
open PgBrakes.Ports.GuardedApplyAtomicity
open PgBrakes.Ports.SqlAst
open PgBrakes.Ports.Grant
open PgBrakes.Ports.GrantedApply
open PgBrakes.Ports.DryRun
open PgBrakes.Ports.Approval
open PgBrakes.Ports.ApplyService
open PgBrakes.Ports.ServiceRun

variable {ω : Type}

/-! ## Commits behind the gate -/

/-- The connection reports keys of one arity, whatever it is asked to write. -/
def KeysOfOneArity (conn : ApplyConn ω) : Prop :=
  ∀ kind relation cascades w forward w',
    conn.applyForward kind relation cascades w = (.ok forward, w') →
      PkSetBuilder.UniformArity (forward.written.map (·.pk))

/-- The keys that a call reported. -/
def keysReported : ApplyCall → List PkTuple
  | .applyForward _ _ (.ok forward) => forward.written.map (·.pk)
  | _ => []

/-- Each of these calls reported keys of one arity. -/
def AnswersOfOneArity (log : List ApplyCall) : Prop :=
  ∀ call ∈ log, PkSetBuilder.UniformArity (keysReported call)

instance (log : List ApplyCall) : Decidable (AnswersOfOneArity log) :=
  inferInstanceAs (Decidable (∀ call ∈ log, PkSetBuilder.UniformArity (keysReported call)))

/-- The calls of the gate itself settle nothing. -/
private theorem gateCalls_quiet (c : GrantCall ω) (nonces : NonceStore) (w : ω) :
    ∀ call ∈ (afterClock c.clock (afterPkColumn c ⟨nonces, ⟨w, []⟩⟩)).calls.log,
      call.IsQuiet := by
  intro call hcall
  simp only [afterClock, afterPkColumn, List.nil_append, List.mem_append,
    List.mem_singleton] at hcall
  rcases hcall with rfl | rfl
  · exact ⟨rfl, rfl⟩
  · exact ⟨rfl, rfl⟩

private theorem commits_of_refused [Sha256] [Ed25519] [Sql] {c : GrantCall ω}
    {nonces : NonceStore} {w : ω} {s' : GateState ω} {e : GrantedApplyError}
    (h : Refused c ⟨nonces, ⟨w, []⟩⟩ s' e) : commits s'.calls.log = 0 := by
  have hquiet := gateCalls_quiet c nonces w
  rcases h.calls with hcalls | hcalls
  · rw [hcalls]
    exact commits_of_quiet fun call hcall => hquiet call (List.mem_append_left _ hcall)
  · rw [hcalls]
    exact commits_of_quiet hquiet

/-- What the connection was asked for when the engine starts behind the gate. -/
def engineStart (c : GrantCall ω) (nonces : NonceStore) (w : ω) : Logged ω ApplyCall :=
  (afterClock c.clock (afterPkColumn c ⟨nonces, ⟨w, []⟩⟩)).calls

/-- A granted call that does not come to the commit commits nothing. -/
private theorem commits_without_commitPoint [Sha256] [Ed25519] [Sql] {c : GrantCall ω}
    {nonces : NonceStore} {w : ω} (h : Granted c ⟨nonces, ⟨w, []⟩⟩)
    (hpoint : ∀ t, ¬ CommitPoint c.invocation (engineStart c nonces w).world t) :
    commits (c.run ⟨nonces, ⟨w, []⟩⟩).2.calls.log = 0 := by
  have hquiet := commits_of_quiet (gateCalls_quiet c nonces w)
  have hlog : (c.run ⟨nonces, ⟨w, []⟩⟩).2.calls.log =
      (c.invocation.run (engineStart c nonces w)).2.log := by
    rw [h.run]
    rfl
  rcases run_cases c.invocation (engineStart c nonces w) with ⟨e, w', es, hrun, hidle⟩ |
    ⟨e, w', before, body, answer, hrun, hbefore, hbody⟩ | ⟨t, ht⟩
  · rw [hlog, hrun, commits_append, commits_of_quiet fun call hc => (hidle call hc).1]
    exact hquiet
  · rw [hlog, hrun, commits_append, commits_append,
      commits_of_quiet fun call hc => (hbefore call hc).1,
      show ApplyCall.begin c.invocation.timeoutMs (.ok ()) :: (body ++ [.rollback answer]) =
        [.begin c.invocation.timeoutMs (.ok ())] ++ (body ++ [.rollback answer]) from rfl,
      commits_append, commits_append, commits_of_quiet fun call hc => (hbody call hc).1]
    exact hquiet
  · exact absurd ht (hpoint t)

/-- At the commit, the connection's answer is what counts, and a success needs keys of one
arity besides. -/
theorem gate_at_commitPoint [Sha256] [Ed25519] [Sql] {c : GrantCall ω} {nonces : NonceStore}
    {w : ω} (h : Granted c ⟨nonces, ⟨w, []⟩⟩) {t : Transcript ω}
    (ht : CommitPoint c.invocation (engineStart c nonces w).world t) :
    let out := c.run ⟨nonces, ⟨w, []⟩⟩
    commits out.2.calls.log = commits [.commit (c.conn.commit t.final).1] ∧
      ((c.conn.commit t.final).1 = .ok () →
        ((∃ a, out.1 = .ok a) ↔ PkSetBuilder.UniformArity (t.forward.written.map (·.pk)))) := by
  intro out
  have hquiet : commits (engineStart c nonces w).log = 0 :=
    commits_of_quiet (gateCalls_quiet c nonces w)
  have hrun := run_of_commitPoint ht (engineStart c nonces w).log
  have hlog : out.2.calls.log = (c.invocation.run (engineStart c nonces w)).2.log := by
    simp only [out, h.run, engineStart]
  refine ⟨?_, ?_⟩
  · rw [hlog, hrun, commits_append, commits_append, hquiet, commits_of_quiet (calls_quiet ht)]
    exact Nat.zero_add _
  · intro hcommit
    have hresult : (c.invocation.run (engineStart c nonces w)).1 =
        t.result c.invocation (.ok ()) := by
      rw [hrun, show c.invocation.conn = c.conn from rfl, hcommit]
    have hfirst : out.1 = ((c.invocation.run (engineStart c nonces w)).1.mapError
        GrantedApplyError.apply).map
          fun applied => (applied, BridgedApplyConfig.fromPolicy c.policy) :=
      congrArg Prod.fst h.run
    rw [hresult, Transcript.result] at hfirst
    rw [← writtenChecksum_ok_iff t.forward c.invocation.relation, hfirst]
    rcases t.forward.writtenChecksum c.invocation.relation with e | checksum
    · simp [Except.mapError, Except.map]
    · simp [Except.mapError, Except.map]

/-- A call of the gate commits exactly if it was granted, came to the commit, and the
connection took it. -/
theorem gate_commits_iff [Sha256] [Ed25519] [Sql] (c : GrantCall ω) (nonces : NonceStore)
    (w : ω) : 0 < commits (c.run ⟨nonces, ⟨w, []⟩⟩).2.calls.log ↔
      Granted c ⟨nonces, ⟨w, []⟩⟩ ∧ ∃ t,
        CommitPoint c.invocation (engineStart c nonces w).world t ∧
        (c.conn.commit t.final).1 = .ok () := by
  constructor
  · intro hsome
    rcases run_granted_cases c ⟨nonces, ⟨w, []⟩⟩ with ⟨e, s', h⟩ | h
    · rw [h.run, commits_of_refused h] at hsome
      exact absurd hsome (Nat.lt_irrefl 0)
    · by_cases hpoint : ∃ t, CommitPoint c.invocation (engineStart c nonces w).world t
      · obtain ⟨t, ht⟩ := hpoint
        have hcount := (gate_at_commitPoint h ht).1
        rcases hcommit : (c.conn.commit t.final).1 with e | ⟨⟩
        · rw [hcount, hcommit] at hsome
          exact absurd hsome (Nat.lt_irrefl 0)
        · exact ⟨h, t, ht, hcommit⟩
      · have := commits_without_commitPoint h (not_exists.mp hpoint)
        omega
  · rintro ⟨h, t, ht, hcommit⟩
    rw [(gate_at_commitPoint h ht).1, hcommit]
    exact Nat.one_pos

/-- A call of the gate that commits has run its forward operation, and over keys of one arity
it returns a success. -/
theorem gate_forward [Sha256] [Ed25519] [Sql] (c : GrantCall ω) (nonces : NonceStore) (w : ω)
    (hcommit : 0 < commits (c.run ⟨nonces, ⟨w, []⟩⟩).2.calls.log) :
    ∃ kind relation cascades w₁ forward w₂,
      c.conn.applyForward kind relation cascades w₁ = (.ok forward, w₂) ∧
      .applyForward kind relation (.ok forward) ∈ (c.run ⟨nonces, ⟨w, []⟩⟩).2.calls.log ∧
      (PkSetBuilder.UniformArity (forward.written.map (·.pk)) →
        ∃ a, (c.run ⟨nonces, ⟨w, []⟩⟩).1 = .ok a) := by
  obtain ⟨h, t, ht, hanswer⟩ := (gate_commits_iff c nonces w).mp hcommit
  refine ⟨_, _, _, _, t.forward, _, ht.forward, ?_, ((gate_at_commitPoint h ht).2 hanswer).mpr⟩
  have hlog : (c.run ⟨nonces, ⟨w, []⟩⟩).2.calls.log =
      (c.invocation.run (engineStart c nonces w)).2.log := by
    rw [h.run]
    rfl
  rw [hlog, run_of_commitPoint ht (engineStart c nonces w).log]
  simp [Transcript.calls, Transcript.bodyCalls]

/-- A call of the gate commits at most once.  One that commits was granted, and
over keys of one arity it returns a success. -/
theorem gate_commits [Sha256] [Ed25519] [Sql] (c : GrantCall ω) (nonces : NonceStore) (w : ω) :
    let out := c.run ⟨nonces, ⟨w, []⟩⟩
    commits out.2.calls.log ≤ 1 ∧
      (0 < commits out.2.calls.log → Granted c ⟨nonces, ⟨w, []⟩⟩ ∧
        (AnswersOfOneArity out.2.calls.log → ∃ a, out.1 = .ok a)) := by
  intro out
  by_cases hsome : 0 < commits out.2.calls.log
  · obtain ⟨h, t, ht, hcommit⟩ := (gate_commits_iff c nonces w).mp hsome
    obtain ⟨_, _, _, _, forward, _, -, hmem, hok⟩ := gate_forward c nonces w hsome
    refine ⟨?_, fun _ => ⟨h, fun hkeys => hok (hkeys _ hmem)⟩⟩
    rw [(gate_at_commitPoint h ht).1, hcommit]
    exact Nat.le_refl 1
  · exact ⟨by omega, fun h => absurd h hsome⟩

/-! ## The law -/

/-- The proposal ids minted in a run, oldest first. -/
def mintedIds (history : List (ServiceRecord ω)) : List String :=
  history.filterMap fun r => match r.reply with
    | .ok (.proposed result) => some result.proposalId
    | _ => none

/-- The successful commits of `p` in a run. -/
def commitsOf (p : String) (history : List (ServiceRecord ω)) : Nat :=
  (history.map fun r => if r.applies = some p then commits r.log else 0).sum

/-- The tickets opened for `p` in a run. -/
def ticketsOf (p : String) (history : List (ServiceRecord ω)) : List String :=
  history.filterMap fun r => match r.call, r.reply with
    | .requestElevation proposalId _, .ok (.elevated result) =>
        if proposalId = p then some result.requestId else none
    | _, _ => none

/-- The successful approvals of tickets for `p` in a run. -/
def approvalsOf (p : String) (history : List (ServiceRecord ω)) : Nat :=
  history.countP fun r => match r.reply with
    | .ok (.approved result) => (ticketsOf p history).contains result.requestId
    | _ => false

/-- The way of `p` to its approval: proposed, rehearsed, ticketed, and approved
with the configured key by someone other than the session that proposed it. -/
def Chain [Ed25519] (cfg : DaemonConfig ω) (history : List (ServiceRecord ω))
    (p sql role sessionId : String) : Prop :=
  ∃ x d q a requestId approverId key nonce, [x, d, q, a].Sublist history ∧
    x.Mints p sql role sessionId ∧ d.DryRan p ∧ q.Opens p requestId ∧
    a.Approves requestId approverId key nonce ∧
    Ed25519.verifyingKey key = cfg.verifyingKey ∧ approverId ≠ sessionId

/-- A commit went the whole way, and what was handed to the gate is what was
proposed. -/
def Preceded [Ed25519] (cfg : DaemonConfig ω) (history : List (ServiceRecord ω))
    (r : ServiceRecord ω) : Prop :=
  ∀ p, r.applies = some p → 0 < commits r.log →
    ∃ sql role sessionId, Chain cfg history p sql role sessionId ∧
      r.gateCalls.map (·.live) = [⟨sql, [], role, sessionId, p⟩]

/-- What the service guarantees of a run. -/
structure LifecycleSafe [Ed25519] (cfg : DaemonConfig ω) (history : List (ServiceRecord ω)) :
    Prop where
  preceded : EveryStep (Preceded cfg) history
  approved : ∀ p, commitsOf p history ≤ approvalsOf p history
  once : ∀ p, commitsOf p history ≤ 1

/-! ## The invariant -/

/-- What the four maps say about the run so far. -/
structure Lifecycle [Ed25519] (cfg : DaemonConfig ω) (history : List (ServiceRecord ω))
    (service : Service) : Prop where
  proposed : ∀ p record, service.proposals[p]? = some record →
    ∃ x ∈ history, x.Mints p record.proposal.statement record.role record.sessionId
  rehearsed : ∀ p record dry, service.proposals[p]? = some record → record.dryRun = some dry →
    ∃ x d, [x, d].Sublist history ∧
      x.Mints p record.proposal.statement record.role record.sessionId ∧ d.DryRan p
  ticketed : ∀ requestId p, service.requestToProposal[requestId]? = some p →
    ∃ request x d q sql role, service.flow.requests[requestId]? = some request ∧
      [x, d, q].Sublist history ∧ x.Mints p sql role request.requesterId ∧ d.DryRan p ∧
      q.Opens p requestId
  granted : ∀ p grant, service.grants[p]? = some grant →
    ∃ sql role sessionId, Chain cfg history p sql role sessionId
  spent : ∀ p, 0 < commitsOf p history →
    p ∈ mintedIds history ∧ service.proposals[p]? = none
  once : ∀ p, commitsOf p history ≤ 1

/-- A commit leaves nothing of its proposal in the store. -/
def Consumes (r : ServiceRecord ω) (after : Service) : Prop :=
  ∀ p, r.applies = some p → 0 < commits r.log → after.proposals[p]? = none

theorem mintedIds_append (a b : List (ServiceRecord ω)) :
    mintedIds (a ++ b) = mintedIds a ++ mintedIds b := List.filterMap_append

theorem commitsOf_snoc (p : String) (history : List (ServiceRecord ω)) (r : ServiceRecord ω) :
    commitsOf p (history ++ [r]) =
      commitsOf p history + if r.applies = some p then commits r.log else 0 := by
  simp [commitsOf]

theorem mem_mintedIds {history : List (ServiceRecord ω)} {x : ServiceRecord ω}
    {p sql role sessionId : String} (hx : x ∈ history) (h : x.Mints p sql role sessionId) :
    p ∈ mintedIds history := by
  obtain ⟨expectedRows, ttlMillis, -, hreply⟩ := h
  exact List.mem_filterMap.mpr ⟨x, hx, by rw [hreply]⟩

/-- With distinct ids, an id has one statement, one role and one session. -/
theorem mints_unique {history : List (ServiceRecord ω)} (hids : (mintedIds history).Nodup)
    {x y : ServiceRecord ω} (hx : x ∈ history) (hy : y ∈ history)
    {p sql role sessionId sql' role' sessionId' : String}
    (h : x.Mints p sql role sessionId) (h' : y.Mints p sql' role' sessionId') :
    sql = sql' ∧ role = role' ∧ sessionId = sessionId' := by
  induction history with
  | nil => cases hx
  | cons r rest ih =>
      rw [show r :: rest = [r] ++ rest from rfl, mintedIds_append] at hids
      have hrest := (List.nodup_append.mp hids).2.1
      have hapart : ∀ z, z.Mints p sql role sessionId ∨ z.Mints p sql' role' sessionId' →
          r = z → p ∉ mintedIds rest := by
        rintro z hz rfl hmem
        have hhead : p ∈ mintedIds [r] := by
          rcases hz with hz | hz
          · exact mem_mintedIds (by simp) hz
          · exact mem_mintedIds (by simp) hz
        exact (List.nodup_append.mp hids).2.2 p hhead p hmem rfl
      rcases List.mem_cons.mp hx with rfl | hxrest
      · rcases List.mem_cons.mp hy with rfl | hyrest
        · obtain ⟨rows, ttl, hcall, -⟩ := h
          obtain ⟨rows', ttl', hcall', -⟩ := h'
          rw [hcall] at hcall'
          cases hcall'
          exact ⟨rfl, rfl, rfl⟩
        · exact absurd (mem_mintedIds hyrest h') (hapart x (.inl h) rfl)
      · rcases List.mem_cons.mp hy with rfl | hyrest
        · exact absurd (mem_mintedIds hxrest h) (hapart y (.inr h') rfl)
        · exact ih hrest hxrest hyrest

/-! ## One call -/

section Step

variable [Sha256] [Ed25519] [Sql] {cfg : DaemonConfig ω} {history : List (ServiceRecord ω)}
  {before after : Service} {r : ServiceRecord ω}

omit [Sha256] [Ed25519] [Sql] in
private theorem sublist_snoc {l : List (ServiceRecord ω)} (h : l.Sublist history) :
    (l ++ [r]).Sublist (history ++ [r]) := h.append (List.Sublist.refl _)

omit [Sha256] [Ed25519] [Sql] in
private theorem sublist_keep {l : List (ServiceRecord ω)} (h : l.Sublist history) :
    l.Sublist (history ++ [r]) := h.trans (List.sublist_append_left _ _)

/-- A commit is of a stored, rehearsed and granted proposal. -/
private theorem committed (h : Outcome cfg before r after) (hcommit : 0 < commits r.log) :
    ∃ p record dry grant, r.applies = some p ∧ before.proposals[p]? = some record ∧
      record.dryRun = some dry ∧ before.grants[p]? = some grant ∧
      r.gateCalls = [gateCallOf p record dry grant] ∧ commits r.log = 1 := by
  obtain ⟨p, confirmRows, confirmToken, conn, barrier, clock, w, record, dry, grant, hcall,
    hstored, hcached, hgranted, hgate, hrlog, -⟩ := h.reached (ne_nil_of_commits hcommit)
  have hone : commits r.log ≤ 1 := by
    rw [hrlog]
    exact (gate_commits ((gateCallOf p record dry grant).grantCall cfg conn barrier clock)
      before.applyNonces w).1
  refine ⟨p, record, dry, grant, ?_, hstored, hcached, hgranted, hgate, by omega⟩
  simp only [ServiceRecord.applies, hcall]

/-- Over keys of one arity a commit consumes its proposal. -/
theorem consumes_of_oneArity (h : Outcome cfg before r after) (hkeys : AnswersOfOneArity r.log) :
    Consumes r after := by
  intro p hp hcommit
  obtain ⟨p', confirmRows, confirmToken, conn, barrier, clock, w, record, dry, grant, hcall,
    -, -, -, -, hrlog, hsettled⟩ := h.reached (ne_nil_of_commits hcommit)
  have hsame : p' = p := by
    simpa [ServiceRecord.applies, hcall] using hp
  subst hsame
  rw [hrlog] at hcommit hkeys
  obtain ⟨a, ha⟩ := ((gate_commits ((gateCallOf p' record dry grant).grantCall cfg conn barrier
    clock) before.applyNonces w).2 hcommit).2 hkeys
  rw [(hsettled.applied a ha).1, getElem?_erase_string, if_pos rfl]

omit [Sha256] [Sql] in
private theorem Chain.keep {p sql role sessionId : String}
    (h : Chain cfg history p sql role sessionId) :
    Chain cfg (history ++ [r]) p sql role sessionId := by
  obtain ⟨x, d, q, a, requestId, approverId, key, nonce, hsub, hrest⟩ := h
  exact ⟨x, d, q, a, requestId, approverId, key, nonce, sublist_keep hsub, hrest⟩

/-- The statement, the role and the session of a commit are the proposed ones. -/
private theorem preceded_step (h : Outcome cfg before r after)
    (hids : (mintedIds history).Nodup) (hinv : Lifecycle cfg history before) :
    Preceded cfg history r := by
  intro p hp hcommit
  obtain ⟨p', record, dry, grant, hp', hstored, -, hgranted, hgate, -⟩ :=
    committed h hcommit
  rw [hp] at hp'
  cases hp'
  obtain ⟨x, hx, hmints⟩ := hinv.proposed p record hstored
  obtain ⟨sql, role, sessionId, hchain⟩ := hinv.granted p grant hgranted
  refine ⟨sql, role, sessionId, hchain, ?_⟩
  obtain ⟨y, d, q, a, requestId, approverId, key, nonce, hsub, hmints', -⟩ := hchain
  have hy : y ∈ history := hsub.subset (by simp)
  obtain ⟨rfl, rfl, rfl⟩ := mints_unique hids hx hy hmints hmints'
  rw [hgate]
  rfl

private theorem proposed_step (h : Outcome cfg before r after)
    (hinv : Lifecycle cfg history before) {p : String} {record : ProposalRecord}
    (hafter : after.proposals[p]? = some record) :
    ∃ x ∈ history ++ [r], x.Mints p record.proposal.statement record.role record.sessionId := by
  rcases h.proposals hafter with hold | ⟨hmints, -⟩ | ⟨old, dry, -, hold, rfl⟩
  · obtain ⟨x, hx, hmints⟩ := hinv.proposed p record hold
    exact ⟨x, by simp [hx], hmints⟩
  · exact ⟨r, by simp, hmints⟩
  · obtain ⟨x, hx, hmints⟩ := hinv.proposed p old hold
    exact ⟨x, by simp [hx], hmints⟩

private theorem rehearsed_step (h : Outcome cfg before r after)
    (hinv : Lifecycle cfg history before) {p : String} {record : ProposalRecord}
    {dry : DryRunState} (hafter : after.proposals[p]? = some record)
    (hdry : record.dryRun = some dry) :
    ∃ x d, [x, d].Sublist (history ++ [r]) ∧
      x.Mints p record.proposal.statement record.role record.sessionId ∧ d.DryRan p := by
  rcases h.proposals hafter with hold | ⟨-, hnone, -⟩ | ⟨old, dry', hran, hold, rfl⟩
  · obtain ⟨x, d, hsub, hmints, hran⟩ := hinv.rehearsed p record dry hold hdry
    exact ⟨x, d, sublist_keep hsub, hmints, hran⟩
  · rw [hnone] at hdry
    cases hdry
  · obtain ⟨x, hx, hmints⟩ := hinv.proposed p old hold
    exact ⟨x, r, sublist_snoc (List.singleton_sublist.mpr hx), hmints, hran⟩

private theorem ticketed_step (h : Outcome cfg before r after)
    (hinv : Lifecycle cfg history before) {requestId p : String}
    (hafter : after.requestToProposal[requestId]? = some p) :
    ∃ request x d q sql role, after.flow.requests[requestId]? = some request ∧
      [x, d, q].Sublist (history ++ [r]) ∧ x.Mints p sql role request.requesterId ∧
      d.DryRan p ∧ q.Opens p requestId := by
  rcases h.tickets hafter with hold |
    ⟨record, dry, request, hopens, hstored, hcached, hrequest, -, hrequester⟩
  · obtain ⟨request, x, d, q, sql, role, hrequest, hsub, hmints, hran, hopens⟩ :=
      hinv.ticketed requestId p hold
    obtain ⟨request', hrequest', -, hrequester⟩ := h.requests hrequest
    rw [← hrequester] at hmints
    exact ⟨request', x, d, q, sql, role, hrequest', sublist_keep hsub, hmints, hran, hopens⟩
  · obtain ⟨x, d, hsub, hmints, hran⟩ := hinv.rehearsed p record dry hstored hcached
    rw [← hrequester] at hmints
    exact ⟨request, x, d, r, _, _, hrequest, sublist_snoc hsub, hmints, hran, hopens⟩

private theorem granted_step (h : Outcome cfg before r after)
    (hinv : Lifecycle cfg history before) {p : String} {grant : GrantToken}
    (hafter : after.grants[p]? = some grant) :
    ∃ sql role sessionId, Chain cfg (history ++ [r]) p sql role sessionId := by
  rcases h.grants hafter with hold |
    ⟨requestId, approverId, key, nonce, request, expiry, happroves, hkey, hticket, hstored,
      hother, -⟩
  · obtain ⟨sql, role, sessionId, hchain⟩ := hinv.granted p grant hold
    exact ⟨sql, role, sessionId, hchain.keep⟩
  · obtain ⟨request', x, d, q, sql, role, hrequest, hsub, hmints, hran, hopens⟩ :=
      hinv.ticketed requestId p hticket
    rw [hstored] at hrequest
    cases hrequest
    exact ⟨sql, role, request.requesterId, x, d, q, r, requestId, approverId, key, nonce,
      sublist_snoc hsub, hmints, hran, hopens, happroves, hkey, hother⟩

/-- A proposal that has committed is not stored, and is not minted again. -/
private theorem spent_step (h : Outcome cfg before r after) (hconsumes : Consumes r after)
    (hids : (mintedIds (history ++ [r])).Nodup) (hinv : Lifecycle cfg history before)
    {p : String} (hsome : 0 < commitsOf p (history ++ [r])) :
    p ∈ mintedIds (history ++ [r]) ∧ after.proposals[p]? = none := by
  rw [mintedIds_append] at hids ⊢
  by_cases hnow : r.applies = some p ∧ 0 < commits r.log
  · obtain ⟨p', record, dry, grant, hp', hstored, -⟩ := committed h hnow.2
    rw [hnow.1] at hp'
    cases hp'
    obtain ⟨x, hx, hmints⟩ := hinv.proposed p record hstored
    exact ⟨List.mem_append_left _ (mem_mintedIds hx hmints), hconsumes p hnow.1 hnow.2⟩
  · have hpast : 0 < commitsOf p history := by
      rw [commitsOf_snoc] at hsome
      by_cases hp : r.applies = some p
      · rw [if_pos hp] at hsome
        have : ¬ 0 < commits r.log := fun hcommit => hnow ⟨hp, hcommit⟩
        omega
      · rw [if_neg hp] at hsome
        omega
    obtain ⟨hminted, hnone⟩ := hinv.spent p hpast
    refine ⟨List.mem_append_left _ hminted, ?_⟩
    rcases hafter : after.proposals[p]? with _ | record
    · rfl
    rcases h.proposals hafter with hold | ⟨hmints, -⟩ | ⟨old, dry, -, hold, -⟩
    · rw [hnone] at hold
      cases hold
    · have hagain : p ∈ mintedIds [r] := mem_mintedIds (by simp) hmints
      exact absurd rfl ((List.nodup_append.mp hids).2.2 p hminted p hagain)
    · rw [hnone] at hold
      cases hold

private theorem once_step (h : Outcome cfg before r after)
    (hinv : Lifecycle cfg history before) (p : String) : commitsOf p (history ++ [r]) ≤ 1 := by
  have hpast := hinv.once p
  rw [commitsOf_snoc]
  by_cases hnow : r.applies = some p ∧ 0 < commits r.log
  · obtain ⟨p', record, dry, grant, hp', hstored, -, -, -, hone⟩ := committed h hnow.2
    rw [hnow.1] at hp'
    cases hp'
    have hnever : ¬ 0 < commitsOf p history := by
      intro hsome
      rw [(hinv.spent p hsome).2] at hstored
      cases hstored
    rw [if_pos hnow.1]
    omega
  · by_cases hp : r.applies = some p
    · have : ¬ 0 < commits r.log := fun hcommit => hnow ⟨hp, hcommit⟩
      rw [if_pos hp]
      omega
    · rw [if_neg hp]
      omega

/-- One call keeps the invariant, and commits only what has gone the whole way. -/
theorem lifecycle_step (h : Outcome cfg before r after) (hconsumes : Consumes r after)
    (hids : (mintedIds (history ++ [r])).Nodup) (hinv : Lifecycle cfg history before) :
    Preceded cfg history r ∧ Lifecycle cfg (history ++ [r]) after := by
  have hpast : (mintedIds history).Nodup := by
    rw [mintedIds_append] at hids
    exact (List.nodup_append.mp hids).1
  refine ⟨preceded_step h hpast hinv, ?_⟩
  exact
    { proposed := fun p record hafter => proposed_step h hinv hafter
      rehearsed := fun p record dry hafter hdry => rehearsed_step h hinv hafter hdry
      ticketed := fun requestId p hafter => ticketed_step h hinv hafter
      granted := fun p grant hafter => granted_step h hinv hafter
      spent := fun p hsome => spent_step h hconsumes hids hinv hsome
      once := once_step h hinv }

end Step

/-! ## Whole runs -/

theorem lifecycle_new [Ed25519] (cfg : DaemonConfig ω) :
    Lifecycle cfg [] Service.new where
  proposed p record h := by simp [Service.new] at h
  rehearsed p record dry h := by simp [Service.new] at h
  ticketed requestId p h := by simp [Service.new] at h
  granted p grant h := by simp [Service.new] at h
  spent p h := by simp [commitsOf] at h
  once p := by simp [commitsOf]

/-- A commit of `p` counts an approval of a ticket for `p`. -/
private theorem approvalsOf_pos [Ed25519] {cfg : DaemonConfig ω}
    {history : List (ServiceRecord ω)} {p sql role sessionId : String}
    (h : Chain cfg history p sql role sessionId) : 0 < approvalsOf p history := by
  obtain ⟨x, d, q, a, requestId, approverId, key, nonce, hsub, -, -,
    ⟨reason, result, hcall, hreply, hid⟩, ⟨ttl, -, happroved⟩, -⟩ := h
  have hq : q ∈ history := hsub.subset (by simp)
  have ha : a ∈ history := hsub.subset (by simp)
  have hticket : requestId ∈ ticketsOf p history := by
    refine List.mem_filterMap.mpr ⟨q, hq, ?_⟩
    simp [hcall, hreply, hid]
  refine List.countP_pos_iff.mpr ⟨a, ha, ?_⟩
  simp [happroved, hticket]

/-- A proposal that has committed has a record that committed it. -/
private theorem exists_commit {history : List (ServiceRecord ω)} {p : String}
    (h : 0 < commitsOf p history) : ∃ r ∈ history, r.applies = some p ∧ 0 < commits r.log := by
  obtain ⟨n, hn, hpos⟩ := List.sum_pos_iff_exists_pos_nat.mp h
  obtain ⟨r, hr, rfl⟩ := List.mem_map.mp hn
  by_cases hp : r.applies = some p
  · rw [if_pos hp] at hpos
    exact ⟨r, hr, hp, hpos⟩
  · rw [if_neg hp] at hpos
    omega

/-- Where the keys that a forward operation reports have one arity each time, with distinct
proposal ids, every run of the service is safe. -/
theorem run_lifecycle_safe [Sha256] [Ed25519] [Sql] (cfg : DaemonConfig ω)
    (inputs : List (ServiceInput ω)) (seq : Nat) (w : ω)
    (hids : (mintedIds (serviceHistory cfg inputs seq w)).Nodup)
    (hkeys : ∀ r ∈ serviceHistory cfg inputs seq w, AnswersOfOneArity r.log) :
    LifecycleSafe cfg (serviceHistory cfg inputs seq w) := by
  have hrule := run_rule_where (serviceStep cfg)
    (fun history (s : DaemonState ω) =>
      (mintedIds history).Nodup → Lifecycle cfg history s.service)
    (fun _ => True) (fun _ r => AnswersOfOneArity r.log)
    (fun history r => (mintedIds (history ++ [r])).Nodup → Preceded cfg history r)
    (fun history s i _ hmet hinv => by
      have hstep := serviceStep_outcome cfg i s
      have hconsumes := consumes_of_oneArity hstep hmet
      have hpast : (mintedIds (history ++ [(serviceStep cfg i s).1])).Nodup →
          (mintedIds history).Nodup := by
        intro hnodup
        rw [mintedIds_append] at hnodup
        exact (List.nodup_append.mp hnodup).1
      exact ⟨fun hnodup => (lifecycle_step hstep hconsumes hnodup (hinv (hpast hnodup))).1,
        fun hnodup => (lifecycle_step hstep hconsumes hnodup (hinv (hpast hnodup))).2⟩)
    (s := ⟨.new, seq, w⟩) (fun _ => lifecycle_new cfg) (fun _ _ => trivial)
    (everyStep_iff_forall.mpr hkeys)
  have hinv : Lifecycle cfg (serviceHistory cfg inputs seq w) _ := hrule.1 hids
  have hpreceded : EveryStep (Preceded cfg) (serviceHistory cfg inputs seq w) := by
    intro before r after heq
    refine hrule.2 before r after heq ?_
    rw [heq, show before ++ r :: after = (before ++ [r]) ++ after by simp,
      mintedIds_append] at hids
    exact (List.nodup_append.mp hids).1
  refine ⟨hpreceded, fun p => ?_, hinv.once⟩
  rcases Nat.eq_zero_or_pos (commitsOf p (serviceHistory cfg inputs seq w)) with hzero | hpos
  · omega
  · obtain ⟨r, hr, hp, hcommit⟩ := exists_commit hpos
    obtain ⟨before, after, heq⟩ := List.append_of_mem hr
    obtain ⟨sql, role, sessionId, hchain, -⟩ := hpreceded before r after heq p hp hcommit
    obtain ⟨x, d, q, a, requestId, approverId, key, nonce, hsub, hrest⟩ := hchain
    have hwhole : Chain cfg (serviceHistory cfg inputs seq w) p sql role sessionId := by
      refine ⟨x, d, q, a, requestId, approverId, key, nonce, hsub.trans ?_, hrest⟩
      rw [heq]
      exact List.sublist_append_left _ _
    have := approvalsOf_pos hwhole
    have := hinv.once p
    omega

/-! ## A proposal that commits twice -/

/-- The statement of `GrantSingleUse.accountsBinding`, parsed. -/
def updateAccounts : Statement :=
  .update
    { table := ⟨.table [.plain "public", .plain "accounts"], []⟩
      assignments := [⟨.columnName [.plain "owner"], .value "'x'"⟩]
      from? := none
      selection := some (.inList (.identifier (.plain "id")) [.value "1", .value "2"]) }

@[reducible] def accountsSql : Sql :=
  .knowing [(GrantSingleUse.accountsBinding.statementText, updateAccounts)]

/-- A daemon whose sink accepts everything. -/
def accountsDaemon [Ed25519] : DaemonConfig Unit :=
  { verifyingKey := Ed25519.verifyingKey GrantSingleUse.approverKey
    policy := { cloneProvider := .dblab, pitrEnabled := false }
    seams := ⟨⟨fun _ _ => pure ()⟩, fun _ w => w⟩
    rowHeadroom := ⟨fun base => some ((base + 9) / 10)⟩
    walHeadroom := ⟨fun base => some (3 * base)⟩ }

/-- The measurement of two rows and nothing else. -/
def accountsMeasurement : Measurement :=
  { target := ⟨"public.accounts", some ⟨"00"⟩, 2⟩
    cascades := []
    fullEffect := []
    triggersFired := []
    locks := []
    durationMs := 1
    walBytes := 0
    constraintViolations := []
    cloneLsn := "0/1"
    stalenessLsnBytes := 0 }

def accountsRehearsal : Rehearsal Unit :=
  { volatilityOf := fun _ w => (.immutable, w)
    certifyApplyShape := fun _ _ _ w => (none, w)
    selfDeterminedPkColumn := fun _ w => (none, w)
    rehearse := fun _ _ _ => pure accountsMeasurement }

/-- The id the first proposal of a process gets at time zero. -/
def accountsId : String := makeId GrantSingleUse.accountsBinding.statementText none 0 0

/-- A proposal that is approved and applied, and again approved and applied. -/
def applyTwice (conn : ApplyConn Unit) : List (ServiceInput Unit) :=
  [ .propose GrantSingleUse.accountsBinding.statementText none "app" "agent"
  , .dryRun accountsId accountsRehearsal
  , .requestElevation accountsId "first"
  , .approve "req-00000001" "alice" GrantSingleUse.approverKey "n1" 1000
  , .apply accountsId 2 none conn .noop
  , .requestElevation accountsId "second"
  , .approve "req-00000002" "alice" GrantSingleUse.approverKey "n2" 1000
  , .apply accountsId 2 none conn .noop ].map fun call =>
    ⟨call, ⟨fun w => (0, w), fun w => (0, w)⟩⟩

/-- Over keys of one arity the second apply finds nothing to apply. -/
theorem run_lifecycle_safe_accounts :
    letI := Sha256.standard
    letI := GrantSingleUse.sharedBytes
    letI := accountsSql
    let history := serviceHistory accountsDaemon (applyTwice (.scripted
      GrantSingleUse.plainForward [⟨"public.accounts", 0, 2, 0⟩])) 0 ()
    LifecycleSafe accountsDaemon history ∧ commitsOf accountsId history = 1 := by
  let _ := Sha256.standard
  let _ := GrantSingleUse.sharedBytes
  let _ := accountsSql
  intro history
  have hrun : mintedIds history = [accountsId] ∧ commitsOf accountsId history = 1 ∧
      ∀ r ∈ history, AnswersOfOneArity r.log := by
    decide +kernel
  refine ⟨?_, hrun.2.1⟩
  apply run_lifecycle_safe
  · exact hrun.1 ▸ List.nodup_singleton _
  · exact hrun.2.2

/-- Over keys of two arities the first apply commits and returns an error, and
the second commits again. -/
theorem recommittedRun_not_safe :
    letI := Sha256.standard
    letI := GrantSingleUse.sharedBytes
    letI := accountsSql
    let history := serviceHistory accountsDaemon (applyTwice (.scripted
      mixedArityForward [⟨"public.accounts", 0, 2, 0⟩])) 0 ()
    (mintedIds history).Nodup ∧ ¬ LifecycleSafe accountsDaemon history := by
  let _ := Sha256.standard
  let _ := GrantSingleUse.sharedBytes
  let _ := accountsSql
  intro history
  have hrun : mintedIds history = [accountsId] ∧ commitsOf accountsId history = 2 := by
    decide +kernel
  constructor
  · rw [hrun.1]
    exact List.nodup_singleton _
  · intro hsafe
    have honce := hsafe.once accountsId
    omega

end PgBrakes.Ports.ServiceLifecycle
