import PgBrakes.Ports.AuditChain
import PgBrakes.Ports.Expiry

/-!
# The approval flow and its audit chain

The flow of `crates/cli/src/flow.rs` over a sink that keeps a chain and may refuse any
append.  Each of the three steps changes its state first and appends afterwards, and
`audit_step` drops the answer of the sink.  So a step that goes through goes through
unaudited when the append is refused.

## Main results

* `called_ends` — a call is turned down by its own checks and leaves the flow as it
  was, or passes them, returns well and makes one append.
* `flow_audited_iff` — over any calls, every call is audited exactly when the sink accepts
  the append of every call that passes its checks.
* `droppedAppend_unaudited` — a grant that is signed and not in the chain.
-/

namespace PgBrakes.Ports.AuditedFlow

open PgBrakes.Verified
open PgBrakes.Verified.Effect
open PgBrakes.Verified.MachineWord
open PgBrakes.Ports.KeyChecksum
open PgBrakes.Ports.TypedInverse
open PgBrakes.Ports.BlastRecord
open PgBrakes.Ports.Grant
open PgBrakes.Ports.Approval
open PgBrakes.Ports.Expiry (Outcome)
open PgBrakes.Ports.GrantSingleUse (sharedBytes approverKey)
open PgBrakes.Ports.Audit (AuditChain AuditRecord SerdeJson)

variable {ω τ ε : Type}

/-! ## The last step of the flow -/

/-- The entry of a verification. -/
def verdictEntry (live : GrantBinding) (result : Except GrantError Unit) : NewEntry :=
  { statementText := live.statementText
    decision := match result with
      | .ok () => .allow
      | .error _ => .reject
    reasonCode := match result with
      | .ok () => "grant_verified"
      | .error _ => "grant_rejected"
    reason := some (match result with
      | .ok () => "grant re-verified at apply (binding + nonce + expiry)"
      | .error e => e.toString)
    role := live.role
    sessionId := some live.sessionId
    principal := none
    dryRunId := some live.proposalId }

section Verify

variable [Sha256] [Ed25519]

/-- The verification over the nonces of the flow. -/
def verifyInFlow (verifyingKey : VerifyingKey) (grant : GrantToken) (live : GrantBinding)
    (clock : Clock ω) : Eff (FlowState ω) ε (Except GrantError Unit) := fun s =>
  let out := verifyForApply grant live verifyingKey clock ⟨s.flow.nonces, ⟨s.audit.world, []⟩⟩
  (.ok out.1,
    { flow := { s.flow with nonces := out.2.nonces }
      audit := { s.audit with world := out.2.calls.world } })

/-- `ApprovalFlow::verify_at_apply`. -/
def verifyAtApply (seams : FlowSeams ω) (verifyingKey : VerifyingKey) (grant : GrantToken)
    (live : GrantBinding) (clock : Clock ω) : Eff (FlowState ω) GrantError Unit := do
  let result ← verifyInFlow verifyingKey grant live clock
  auditStep seams clock (verdictEntry live result)
  Eff.lift result

end Verify

/-! ## The chain behind the sink -/

/-- The chain, the appends tried so far, and whatever else the clock and the webhook
live in. -/
structure Ledger (τ : Type) where
  chain : AuditChain
  attempts : Nat
  rest : τ

/-- What surrounds the flow: which of the appends fail, the webhook, and the clock. -/
structure Surroundings (τ : Type) where
  failures : Nat → Option SinkError
  notify : ApprovalRequest → τ → τ
  clock : Clock τ

/-- The entry of a flow step, in full. -/
def fullEntry (entry : NewEntry) : Audit.NewEntry :=
  { statementText := entry.statementText
    decision := entry.decision
    reasonCode := entry.reasonCode
    reason := entry.reason
    principal := ⟨entry.role, entry.sessionId, entry.principal⟩
    intent := .default
    writeSafety := ⟨entry.dryRunId, none⟩ }

def chainClock (env : Surroundings τ) : Clock (Ledger τ) where
  nowUnixMillis w := ((env.clock.nowUnixMillis w.rest).1,
    { w with rest := (env.clock.nowUnixMillis w.rest).2 })
  monotonicMillis w := ((env.clock.monotonicMillis w.rest).1,
    { w with rest := (env.clock.monotonicMillis w.rest).2 })

section Chain

variable [SerdeJson] [Sha256] (env : Surroundings τ)

/-- The chain after an entry. -/
def extended (chain : AuditChain) (entry : NewEntry) (timestampMs : Nat) : AuditChain :=
  chain.append (fullEntry entry) (.ofNat timestampMs)

/-- The sink appends to the chain; a failure leaves the chain alone. -/
def chainSeams : FlowSeams (Ledger τ) where
  sink :=
    { append := fun entry timestampMs w =>
        match env.failures w.attempts with
        | some e => (.error e, { w with attempts := w.attempts + 1 })
        | none =>
            (.ok (), { w with
              chain := extended w.chain entry timestampMs
              attempts := w.attempts + 1 }) }
  notify request w := { w with rest := env.notify request w.rest }

theorem extended_length (chain : AuditChain) (entry : NewEntry) (timestampMs : Nat) :
    (extended chain entry timestampMs).records.length = chain.records.length + 1 :=
  List.length_append

theorem extended_ne {chain : AuditChain} {entry : NewEntry} {timestampMs : Nat} :
    extended chain entry timestampMs ≠ chain := by
  intro h
  have hlength := extended_length chain entry timestampMs
  rw [h] at hlength
  omega

/-- What an append does to the ledger. -/
def Appended (before after : Ledger τ) (a : AuditAppend) : Prop :=
  match env.failures before.attempts with
  | some e => a.answer = .error e ∧ after.chain = before.chain
  | none => a.answer = .ok () ∧ after.chain = extended before.chain a.entry a.timestampMs

variable {env} in
theorem Appended.prefix_records {before after : Ledger τ} {a : AuditAppend}
    (h : Appended env before after a) : before.chain.records <+: after.chain.records := by
  unfold Appended at h
  rcases hfails : env.failures before.attempts with _ | e
  · rw [hfails] at h
    rw [h.2]
    exact List.prefix_append _ _
  · rw [hfails] at h
    rw [h.2]

/-- An audit step leaves the flow alone and makes one append. -/
theorem afterAudit_appended (entry : NewEntry) (s : FlowState (Ledger τ)) :
    let s' := afterAudit (chainSeams env) (chainClock env) entry s
    s'.flow = s.flow ∧ ∃ a, s'.audit.log = s.audit.log ++ [a] ∧ a.entry = entry ∧
      Appended env s.audit.world s'.audit.world a := by
  intro s'
  refine ⟨rfl, _, rfl, rfl, ?_⟩
  simp only [s', Appended, afterAudit, appendEntry, chainSeams, chainClock]
  rcases env.failures s.audit.world.attempts with _ | e
  · exact ⟨rfl, rfl⟩
  · exact ⟨rfl, rfl⟩

end Chain

/-! ## Calls -/

inductive FlowCall where
  | requestElevation (id : String) (proposal : RequestProposal) (requesterId : String)
      (op : Operation) (ttlMillis : Nat)
  | approve (id : String) (approver : Principal) (key : SigningKey) (nonce : String)
      (grantTtlMillis : Nat)
  | verifyAtApply (grant : GrantToken) (live : GrantBinding)

/-- A call, with the flow and the ledger before and after it. -/
structure Called (τ : Type) where
  call : FlowCall
  start : ApprovalFlow × Ledger τ
  finish : ApprovalFlow × Ledger τ
  appends : List AuditAppend
  outcome : Outcome

section Runs

variable [SerdeJson] [Sha256] [Ed25519] (env : Surroundings τ) (verifyingKey : VerifyingKey)

/-- The call's own checks: an eligible operation under a fresh id; a pending ticket that
has not expired, and an approver for it; a grant that is signed, for the live fields, not
expired and not used. -/
def FlowCall.Passes (call : FlowCall) (s : ApprovalFlow × Ledger τ) : Prop :=
  match call with
  | .requestElevation id _ _ op _ =>
      (certify op).toBool = true ∧ s.1.requests.contains id = false
  | .approve id approver _ _ _ =>
      ∃ request, s.1.requests[id]? = some request ∧ request.status = .pending ∧
        request.isExpired (env.clock.nowUnixMillis s.2.rest).1 = false ∧
        authorize approver request.requesterId = .ok ()
  | .verifyAtApply grant live =>
      grant.verifySignature verifyingKey = .ok () ∧
        live.bindingHash = grant.binding.bindingHash ∧
        (env.clock.nowUnixMillis s.2.rest).1 < grant.binding.expiryUnixMillis ∧
        grant.binding.nonce ∉ s.1.nonces.used

def FlowCall.run (call : FlowCall) (s : FlowState (Ledger τ)) :
    Outcome × FlowState (Ledger τ) :=
  match call with
  | .requestElevation id proposal requesterId op ttlMillis =>
      let out := Approval.requestElevation (chainSeams env) id proposal requesterId op
        ttlMillis (chainClock env) s
      (.ticket out.1, out.2)
  | .approve id approver key nonce grantTtlMillis =>
      let out := Approval.approve (chainSeams env) id approver key nonce grantTtlMillis
        (chainClock env) s
      (.grant out.1, out.2)
  | .verifyAtApply grant live =>
      let out := AuditedFlow.verifyAtApply (chainSeams env) verifyingKey grant live
        (chainClock env) s
      (.verdict out.1, out.2)

/-- Make a call. -/
def called (call : FlowCall) (s : ApprovalFlow × Ledger τ) :
    Called τ × (ApprovalFlow × Ledger τ) :=
  let out := call.run env verifyingKey ⟨s.1, ⟨s.2, []⟩⟩
  let finish := (out.2.flow, out.2.audit.world)
  (⟨call, s, finish, out.2.audit.log, out.1⟩, finish)

/-- The entry a call that returned well is due: the ticket, the grant with its binding,
or the verdict. -/
def Called.Enters (r : Called τ) (entry : NewEntry) : Prop :=
  match r.call, r.outcome with
  | .requestElevation id proposal requesterId _ ttlMillis, _ =>
      entry = ticketEntry id proposal requesterId ttlMillis
  | .approve id approver _ _ _, .grant (.ok token) =>
      ∃ request, r.start.1.requests[id]? = some request ∧
        entry = flowEntry request.proposal .allow "grant_signed"
          (grantSignedReason approver.id id token.binding) approver.id
  | .approve .., _ => False
  | .verifyAtApply _ live, _ => entry = verdictEntry live (.ok ())

/-- A call that returned well has its record in the chain at the end, and one whose
append failed has changed nothing. -/
structure Audited (final : AuditChain) (r : Called τ) : Prop where
  recorded : r.outcome.isOk = true → ∃ a ∈ r.appends, r.Enters a.entry ∧
    r.finish.2.chain = extended r.start.2.chain a.entry a.timestampMs ∧
    r.finish.2.chain.records <+: final.records
  unchanged : (∃ a ∈ r.appends, ∃ e, a.answer = .error e) → r.finish.1 = r.start.1

/-! ## One call -/

/-- How a call ends. -/
inductive Called.Ends (r : Called τ) : Prop where
  | turnedDown (hpasses : ¬ r.call.Passes env verifyingKey r.start)
      (hout : r.outcome.isOk = false) (hflow : r.finish.1 = r.start.1)
      (hchain : r.start.2.chain.records <+: r.finish.2.chain.records)
  | through (hpasses : r.call.Passes env verifyingKey r.start) (hout : r.outcome.isOk = true)
      (a : AuditAppend) (happends : r.appends = [a]) (henters : r.Enters a.entry)
      (happended : Appended env r.start.2 r.finish.2 a)

theorem requestElevation_ends (id : String) (proposal : RequestProposal) (requesterId : String)
    (op : Operation) (ttlMillis : Nat) (s : ApprovalFlow × Ledger τ) :
    (called env verifyingKey (.requestElevation id proposal requesterId op ttlMillis)
      s).1.Ends env verifyingKey := by
  have hrun := requestElevation_eq (chainSeams env) id proposal requesterId op ttlMillis
    (chainClock env) ⟨s.1, ⟨s.2, []⟩⟩
  simp only [called, FlowCall.run, hrun]
  rcases hop : certify op with refused | action
  · obtain ⟨-, a, -, -, happended⟩ := afterAudit_appended env
      (flowEntry proposal .reject "structural_op_refused" refused.toString requesterId)
      ⟨s.1, ⟨s.2, []⟩⟩
    refine .turnedDown ?_ rfl rfl happended.prefix_records
    rintro ⟨hcertified, -⟩
    rw [hop] at hcertified
    cases hcertified
  simp only
  by_cases hused : s.1.requests.contains id = true
  · rw [if_pos hused]
    refine .turnedDown ?_ rfl rfl (List.prefix_refl _)
    rintro ⟨-, hfresh⟩
    rw [hfresh] at hused
    cases hused
  rw [if_neg hused]
  obtain ⟨-, a, hlog, hentry, happended⟩ := afterAudit_appended env
    (ticketEntry id proposal requesterId ttlMillis)
    (withTicket
      { id := id
        proposal := proposal
        requesterId := requesterId
        createdUnixMillis := ((chainClock env).nowUnixMillis s.2).1
        ttlMillis := ttlMillis
        status := .pending }
      (afterRead (chainClock env) ⟨s.1, ⟨s.2, []⟩⟩))
  refine .through ⟨?_, ?_⟩ rfl a hlog hentry happended
  · rw [hop]
    rfl
  · exact Bool.eq_false_iff.mpr hused

theorem approve_ends (id : String) (approver : Principal) (key : SigningKey) (nonce : String)
    (grantTtlMillis : Nat) (s : ApprovalFlow × Ledger τ) :
    (called env verifyingKey (.approve id approver key nonce grantTtlMillis) s).1.Ends env
      verifyingKey := by
  have hrun := approve_eq (chainSeams env) id approver key nonce grantTtlMillis
    (chainClock env) ⟨s.1, ⟨s.2, []⟩⟩
  simp only [called, FlowCall.run, hrun]
  rcases hget : s.1.requests[id]? with _ | request
  · refine .turnedDown ?_ rfl rfl (List.prefix_refl _)
    rintro ⟨request, hsome, -⟩
    rw [hget] at hsome
    cases hsome
  -- The ticket is this one, so its own status, deadline and requester decide.
  have hthis : ∀ request', s.1.requests[id]? = some request' → request' = request := by
    intro request' hsome
    rw [hget] at hsome
    exact (Option.some.inj hsome).symm
  simp only
  by_cases hstatus : request.status ≠ .pending
  · rw [if_pos hstatus]
    refine .turnedDown ?_ rfl rfl (List.prefix_refl _)
    rintro ⟨request', hsome, hpending, -⟩
    rw [hthis request' hsome] at hpending
    exact hstatus hpending
  rw [if_neg hstatus]
  have hread : ((chainClock env).nowUnixMillis s.2).1 = (env.clock.nowUnixMillis s.2.rest).1 := rfl
  rw [hread]
  by_cases hexpired : request.isExpired (env.clock.nowUnixMillis s.2.rest).1 = true
  · rw [if_pos hexpired]
    refine .turnedDown ?_ rfl rfl (List.prefix_refl _)
    rintro ⟨request', hsome, -, hlive, -⟩
    rw [hthis request' hsome, hexpired] at hlive
    cases hlive
  rw [if_neg hexpired]
  rcases hauth : authorize approver request.requesterId with e | ⟨⟩
  · obtain ⟨-, a, -, -, happended⟩ := afterAudit_appended env
      (flowEntry request.proposal .reject "self_approval_refused" e.toString approver.id)
      (afterRead (chainClock env) ⟨s.1, ⟨s.2, []⟩⟩)
    refine .turnedDown ?_ rfl rfl happended.prefix_records
    rintro ⟨request', hsome, -, -, hauthorized⟩
    rw [hthis request' hsome, hauth] at hauthorized
    cases hauthorized
  let s₁ := afterRead (chainClock env) ⟨s.1, ⟨s.2, []⟩⟩
  let binding := request.proposal.toBinding nonce
    (satAdd ((chainClock env).nowUnixMillis s₁.audit.world).1 grantTtlMillis)
  obtain ⟨-, a, hlog, hentry, happended⟩ := afterAudit_appended env
    (flowEntry request.proposal .allow "grant_signed"
      (grantSignedReason approver.id id binding) approver.id)
    { afterRead (chainClock env) s₁ with flow := { s.1 with
      requests := s.1.requests.insert id { request with status := .approved } } }
  refine .through ?_ rfl a hlog ⟨request, hget, hentry⟩ happended
  exact ⟨request, hget, not_not.mp hstatus, Bool.eq_false_iff.mpr hexpired, hauth⟩

theorem verifyAtApply_ends (grant : GrantToken) (live : GrantBinding)
    (s : ApprovalFlow × Ledger τ) :
    (called env verifyingKey (.verifyAtApply grant live) s).1.Ends env verifyingKey := by
  let s₀ : GateState (Ledger τ) := ⟨s.1.nonces, ⟨s.2, []⟩⟩
  rcases hverify : verifyForApply grant live verifyingKey (chainClock env) s₀ with ⟨result, s₁⟩
  let s₂ : FlowState (Ledger τ) := ⟨{ s.1 with nonces := s₁.nonces }, ⟨s₁.calls.world, []⟩⟩
  have hinFlow : (verifyInFlow verifyingKey grant live (chainClock env) :
      Eff (FlowState (Ledger τ)) GrantError _) ⟨s.1, ⟨s.2, []⟩⟩ = (.ok result, s₂) := by
    show (Except.ok _, _) = _
    rw [hverify]
  have hrun : AuditedFlow.verifyAtApply (chainSeams env) verifyingKey grant live (chainClock env)
      ⟨s.1, ⟨s.2, []⟩⟩ = (result, afterAudit (chainSeams env) (chainClock env)
        (verdictEntry live result) s₂) := Eff.bind_of_ok hinFlow
  obtain ⟨hflow, a, hlog, hentry, happended⟩ :=
    afterAudit_appended env (verdictEntry live result) s₂
  simp only [called, FlowCall.run, hrun]
  cases result with
  | error e =>
      obtain ⟨hnonces, hs₁⟩ := verifyForApply_error hverify
      have hchain : s₁.calls.world.chain = s.2.chain := by
        rcases hs₁ with rfl | rfl
        · rfl
        · rfl
      refine .turnedDown ?_ rfl ?_ (hchain ▸ happended.prefix_records)
      · rintro ⟨hsig, hhash, hlive, hfresh⟩
        have hok : verifyForApply grant live verifyingKey (chainClock env) s₀ = _ :=
          verifyForApply_accepts hsig hhash hlive hfresh
        rw [hverify] at hok
        cases hok
      · show (⟨s.1.requests, s₁.nonces⟩ : ApprovalFlow) = s.1
        rw [hnonces]
  | ok verified =>
      obtain ⟨hsig, hhash, hlive, hfresh, rfl⟩ := verifyForApply_ok hverify
      exact .through ⟨hsig, hhash, hlive, hfresh⟩ rfl a hlog hentry happended

/-- A call is turned down by its own checks and leaves the flow as it was, or it passes
them, returns well and makes one append. -/
theorem called_ends (call : FlowCall) (s : ApprovalFlow × Ledger τ) :
    (called env verifyingKey call s).1.Ends env verifyingKey := by
  cases call with
  | requestElevation id proposal requesterId op ttlMillis =>
      exact requestElevation_ends env verifyingKey id proposal requesterId op ttlMillis s
  | approve id approver key nonce grantTtlMillis =>
      exact approve_ends env verifyingKey id approver key nonce grantTtlMillis s
  | verifyAtApply grant live => exact verifyAtApply_ends env verifyingKey grant live s

variable {env verifyingKey}

/-- The chain only grows. -/
theorem Called.Ends.prefix_records {r : Called τ} (h : r.Ends env verifyingKey) :
    r.start.2.chain.records <+: r.finish.2.chain.records := by
  cases h with
  | turnedDown hpasses hout hflow hchain => exact hchain
  | through hpasses hout a happends henters happended => exact happended.prefix_records

/-- One call is audited exactly when its checks turn it down or its append does not
fail. -/
theorem Called.Ends.audited_iff {r : Called τ} (h : r.Ends env verifyingKey)
    {final : AuditChain} (hfinal : r.finish.2.chain.records <+: final.records) :
    Audited final r ↔
      (r.call.Passes env verifyingKey r.start → env.failures r.start.2.attempts = none) := by
  cases h with
  | turnedDown hpasses hout hflow hchain =>
      refine ⟨fun _ hpass => absurd hpass hpasses, fun _ => ⟨fun hok => ?_, fun _ => hflow⟩⟩
      rw [hout] at hok
      cases hok
  | through hpasses hout a happends henters happended =>
      unfold Appended at happended
      rcases hfails : env.failures r.start.2.attempts with _ | e
      · rw [hfails] at happended
        refine ⟨fun _ _ => rfl, fun _ => ⟨fun _ => ?_, ?_⟩⟩
        · exact ⟨a, by simp [happends], henters, happended.2, hfinal⟩
        · rintro ⟨a', ha', e, herror⟩
          rw [happends, List.mem_singleton] at ha'
          rw [ha', happended.1] at herror
          cases herror
      · -- The chain is as it was, and an entry would have made it longer.
        rw [hfails] at happended
        refine ⟨fun haudited => ?_, fun haccepted => absurd (haccepted hpasses) (by simp)⟩
        obtain ⟨a', -, -, hextended, -⟩ := haudited.recorded hout
        rw [happended.2] at hextended
        exact absurd hextended.symm extended_ne

/-- A call has ended, and what it left in the chain is there. -/
def Called.Kept (env : Surroundings τ) (verifyingKey : VerifyingKey) (chain : AuditChain)
    (r : Called τ) : Prop :=
  r.Ends env verifyingKey ∧ r.finish.2.chain.records <+: chain.records

/-- Over any calls, what a call left in the chain is there at the end. -/
theorem history_kept (env : Surroundings τ) (verifyingKey : VerifyingKey) (calls : List FlowCall)
    (start : ApprovalFlow × Ledger τ) :
    let out := History.run (called env verifyingKey) calls start
    ∀ r ∈ out.1, r.Kept env verifyingKey out.2.2.chain := by
  have hstep : ∀ (history : List (Called τ)) (s : ApprovalFlow × Ledger τ) (call : FlowCall),
      True → (∀ r ∈ history, r.Kept env verifyingKey s.2.chain) →
      True ∧ ∀ r ∈ history ++ [(called env verifyingKey call s).1],
        r.Kept env verifyingKey (called env verifyingKey call s).2.2.chain := by
    intro history s call _ hinv
    refine ⟨trivial, ?_⟩
    have hends := called_ends env verifyingKey call s
    intro r hr
    rcases List.mem_append.mp hr with hr | hr
    · obtain ⟨hr, hprefix⟩ := hinv r hr
      exact ⟨hr, hprefix.trans hends.prefix_records⟩
    · rw [List.mem_singleton.mp hr]
      exact ⟨hends, List.prefix_refl _⟩
  exact (History.run_rule _
    (fun (history : List (Called τ)) (s : ApprovalFlow × Ledger τ) =>
      ∀ r ∈ history, r.Kept env verifyingKey s.2.chain)
    (fun _ => True) (fun _ _ => True) hstep (by simp) (by simp)).1

/-- Over any calls and any failures of the sink, every call is audited exactly when no
append fails of a call that passes its own checks. -/
theorem flow_audited_iff (env : Surroundings τ) (verifyingKey : VerifyingKey)
    (calls : List FlowCall) (start : ApprovalFlow × Ledger τ) :
    let out := History.run (called env verifyingKey) calls start
    (∀ r ∈ out.1, Audited out.2.2.chain r) ↔
      ∀ r ∈ out.1, r.call.Passes env verifyingKey r.start →
        env.failures r.start.2.attempts = none := by
  intro out
  have hkept := history_kept env verifyingKey calls start
  constructor
  · intro haudited r hr
    obtain ⟨hends, hprefix⟩ := hkept r hr
    exact (hends.audited_iff hprefix).mp (haudited r hr)
  · intro haccepted r hr
    obtain ⟨hends, hprefix⟩ := hkept r hr
    exact (hends.audited_iff hprefix).mpr (haccepted r hr)

end Runs

/-! ## A grant that is not in the chain -/

/-- A ticket is opened and approved. -/
def ticketCalls : List FlowCall :=
  let proposal : RequestProposal :=
    { proposalId := "p1"
      statementText := "DELETE FROM accounts WHERE id = 1"
      normalizedParams := []
      role := "app"
      sessionId := "agent"
      dryRunLsn := "0/1"
      cap := { maxRows := 1, maxWalBytes := 0 } }
  [.requestElevation "r1" proposal "agent" (.delete true true) 100,
    .approve "r1" (.approver "alice") approverKey "n1" 100]

/-- The second append fails; the clock stands still. -/
def secondAppendFails : Surroundings Unit where
  failures n := if n = 1 then some ⟨"audit sink backend error: connection closed"⟩ else none
  notify _ w := w
  clock := ⟨fun w => (1000, w), fun w => (0, w)⟩

/-- The ticket is opened and audited.  The grant is signed and returned, and the chain
has the record of the ticket only. -/
theorem droppedAppend_unaudited :
    letI := SerdeJson.knowing []
    letI := Sha256.standard
    letI := sharedBytes
    let out := History.run (called secondAppendFails (Ed25519.verifyingKey approverKey))
      ticketCalls (.new, ⟨.new, 0, ()⟩)
    out.1.map (·.outcome.isOk) = [true, true] ∧ out.2.2.chain.records.length = 1 ∧
      ¬ ∀ r ∈ out.1, Audited out.2.2.chain r := by
  let _ := SerdeJson.knowing []
  let _ := Sha256.standard
  let _ := sharedBytes
  intro out
  refine ⟨by decide +kernel, by decide +kernel, fun haudited => ?_⟩
  obtain ⟨r₀, r₁, hcalls, hok, hbefore, hafter⟩ : ∃ r₀ r₁ : Called Unit, out.1 = [r₀, r₁] ∧
      r₁.outcome.isOk = true ∧ r₁.start.2.chain.records.length = 1 ∧
      r₁.finish.2.chain.records.length = 1 :=
    ⟨_, _, rfl, by decide +kernel, by decide +kernel, by decide +kernel⟩
  obtain ⟨a, -, -, hextended, -⟩ := (haudited r₁ (by simp [hcalls])).recorded hok
  have hlength := extended_length r₁.start.2.chain a.entry a.timestampMs
  rw [← hextended] at hlength
  omega

end PgBrakes.Ports.AuditedFlow
