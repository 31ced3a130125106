import PgBrakes.Verified.History
import PgBrakes.Ports.Approval
import PgBrakes.Ports.GrantSingleUse

/-!
# Two clocks and the expiry of tickets and grants

The clock of `crates/core/src/clock.rs` has two readings: a wall clock, which can jump
either way, and a monotonic one.  A ticket and a grant carry a deadline on the wall
clock, and it is the wall clock that is asked whether the deadline has passed.  Here
every reading of the clock is the next instant of a schedule, and the approval flow and
the verification of grants run over it, with anything between two calls.

## Main results

* `approve_spec`, `verify_spec` — what a call reads and what it decides on it.
* `expiry_irrevocable` — over a schedule on which the wall clock keeps up with the
  monotonic one, a deadline that has passed stays passed.
* `clockSetBack_revokes` — a wall clock set back brings an expired ticket back.
-/

namespace PgBrakes.Ports.Expiry

open PgBrakes.Verified.Effect
open PgBrakes.Verified.MachineWord
open PgBrakes.Ports.KeyChecksum
open PgBrakes.Ports.TypedInverse
open PgBrakes.Ports.BlastRecord
open PgBrakes.Ports.Grant
open PgBrakes.Ports.Approval
open PgBrakes.Ports.GrantSingleUse (sharedBytes approverKey)

/-! ## Readings -/

/-- What the two clocks show at a moment. -/
structure Instant where
  unix : Nat
  mono : Nat
deriving DecidableEq

/-- A world with the number of readings taken in it. -/
structure Timed (τ : Type) where
  readings : Nat
  rest : τ

variable {τ : Type}

/-- Every reading is the next instant of the schedule. -/
def scheduled (schedule : Nat → Instant) : Clock (Timed τ) where
  nowUnixMillis w := ((schedule w.readings).unix, { w with readings := w.readings + 1 })
  monotonicMillis w := ((schedule w.readings).mono, { w with readings := w.readings + 1 })

/-- The sink and the webhook, which take no reading. -/
def besideClock (seams : FlowSeams τ) : FlowSeams (Timed τ) where
  sink :=
    { append := fun entry timestampMs w =>
        ((seams.sink.append entry timestampMs w.rest).1,
          { w with rest := (seams.sink.append entry timestampMs w.rest).2 }) }
  notify request w := { w with rest := seams.notify request w.rest }

/-! ## Runs -/

/-- A call that opens, signs or verifies.  A verification may come with any nonce
store. -/
inductive Step where
  | requestElevation (id : String) (proposal : RequestProposal) (requesterId : String)
      (op : Operation) (ttlMillis : Nat)
  | approve (id : String) (approver : Principal) (key : SigningKey) (nonce : String)
      (grantTtlMillis : Nat)
  | verifyForApply (token : GrantToken) (live : GrantBinding) (key : VerifyingKey)
      (nonces : NonceStore)

inductive Outcome where
  | ticket (result : Except ElevationError ApprovalRequired)
  | grant (result : Except ApproveError GrantToken)
  | verdict (result : Except GrantError Unit)
deriving DecidableEq

/-- The call returned well. -/
def Outcome.isOk : Outcome → Bool
  | .ticket result => result.toBool
  | .grant result => result.toBool
  | .verdict result => result.toBool

/-- A call, its first reading and its outcome. -/
structure Record where
  step : Step
  reading : Nat
  outcome : Outcome

section Runs

variable [Sha256] [Ed25519] (schedule : Nat → Instant) (seams : FlowSeams τ)

def Step.run (step : Step) (s : FlowState (Timed τ)) : Outcome × FlowState (Timed τ) :=
  match step with
  | .requestElevation id proposal requesterId op ttlMillis =>
      let out := Approval.requestElevation (besideClock seams) id proposal requesterId op
        ttlMillis (scheduled schedule) s
      (.ticket out.1, out.2)
  | .approve id approver key nonce grantTtlMillis =>
      let out := Approval.approve (besideClock seams) id approver key nonce grantTtlMillis
        (scheduled schedule) s
      (.grant out.1, out.2)
  | .verifyForApply token live key nonces =>
      let out := Grant.verifyForApply token live key (scheduled schedule)
        ⟨nonces, ⟨s.audit.world, []⟩⟩
      (.verdict out.1, { s with audit := { s.audit with world := out.2.calls.world } })

def Step.record (step : Step) (s : FlowState (Timed τ)) : Record × FlowState (Timed τ) :=
  (⟨step, s.audit.world.readings, (step.run schedule seams s).1⟩, (step.run schedule seams s).2)

/-- The calls on a new flow, from the first instant of the schedule. -/
def history (steps : List Step) (start : τ) : List Record :=
  (PgBrakes.Verified.History.run (fun step s => step.record schedule seams s) steps
    ⟨.new, ⟨⟨0, start⟩, []⟩⟩).1

end Runs

/-! ## What a record says -/

namespace Record

/-- A ticket was opened. -/
def Opens (r : Record) (id : String) (ttlMillis : Nat) : Prop :=
  ∃ proposal requesterId op contract,
    r.step = .requestElevation id proposal requesterId op ttlMillis ∧
      r.outcome = .ticket (.ok contract)

/-- A grant was signed. -/
def Signs (r : Record) (token : GrantToken) (ttlMillis : Nat) : Prop :=
  ∃ id approver key nonce, r.step = .approve id approver key nonce ttlMillis ∧
    r.outcome = .grant (.ok token)

/-- The ticket was approved. -/
def Approves (r : Record) (id : String) : Prop :=
  ∃ approver key nonce ttlMillis token, r.step = .approve id approver key nonce ttlMillis ∧
    r.outcome = .grant (.ok token)

/-- The ticket was refused as expired. -/
def RefusesTicket (r : Record) (id : String) : Prop :=
  ∃ approver key nonce ttlMillis id' expiresAt now,
    r.step = .approve id approver key nonce ttlMillis ∧
      r.outcome = .grant (.error (.request (.expired id' expiresAt now)))

/-- The grant was accepted. -/
def Accepts (r : Record) (token : GrantToken) : Prop :=
  ∃ live key nonces, r.step = .verifyForApply token live key nonces ∧ r.outcome = .verdict (.ok ())

/-- The grant was refused as expired. -/
def RefusesGrant (r : Record) (token : GrantToken) : Prop :=
  ∃ live key nonces now expiry, r.step = .verifyForApply token live key nonces ∧
    r.outcome = .verdict (.error (.expired now expiry))

end Record

/-- What has expired is never accepted afterwards, and nothing is accepted after more
than its time to live.  A ticket is created by the first reading of its call, a grant by
the second. -/
structure Irrevocable (schedule : Nat → Instant) (before : List Record) (r : Record) : Prop where
  ticket : ∀ r' ∈ before, ∀ id, r'.RefusesTicket id → ¬ r.Approves id
  grant : ∀ r' ∈ before, ∀ token, r'.RefusesGrant token → ¬ r.Accepts token
  ticketTtl : ∀ r' ∈ before, ∀ id ttlMillis, r'.Opens id ttlMillis → r.Approves id →
    (schedule r.reading).mono ≤ (schedule r'.reading).mono + ttlMillis
  grantTtl : ∀ r' ∈ before, ∀ token ttlMillis, r'.Signs token ttlMillis → r.Accepts token →
    (schedule r.reading).mono ≤ (schedule (r'.reading + 1)).mono + ttlMillis

/-- The wall clock does not go back between two readings, and it advances as much as
the monotonic clock, up to a millisecond. -/
structure KeepsUp (schedule : Nat → Instant) : Prop where
  forward : ∀ i j, i ≤ j → (schedule i).unix ≤ (schedule j).unix
  pace : ∀ i j, i ≤ j →
    (schedule j).mono + (schedule i).unix ≤ (schedule i).mono + (schedule j).unix + 1

/-! ## One call -/

/-- Readings are only taken, and a ticket keeps its deadline. -/
structure Grows (s s' : FlowState (Timed τ)) : Prop where
  readings : s.audit.world.readings ≤ s'.audit.world.readings
  tickets : ∀ (id : String) (request : ApprovalRequest), s.flow.requests[id]? = some request →
    ∃ request', s'.flow.requests[id]? = some request' ∧ request'.expiresAt = request.expiresAt

theorem Grows.of_flow {s s' : FlowState (Timed τ)} (hflow : s'.flow = s.flow)
    (h : s.audit.world.readings ≤ s'.audit.world.readings) : Grows s s' := by
  refine ⟨h, fun id request hget => ⟨request, ?_, rfl⟩⟩
  rw [hflow]
  exact hget

section Calls

variable (schedule : Nat → Instant) (seams : FlowSeams τ)

/-- An opened ticket has its deadline from the first reading. -/
theorem requestElevation_spec (id : String) (proposal : RequestProposal) (requesterId : String)
    (op : Operation) (ttlMillis : Nat) (s : FlowState (Timed τ)) :
    let out := Approval.requestElevation (besideClock seams) id proposal requesterId op ttlMillis
      (scheduled schedule) s
    Grows s out.2 ∧ ∀ contract, out.1 = .ok contract →
      s.audit.world.readings < out.2.audit.world.readings ∧
        ∃ request, out.2.flow.requests[id]? = some request ∧
          request.expiresAt = satAdd (schedule s.audit.world.readings).unix ttlMillis := by
  intro out
  simp only [out, requestElevation_eq]
  rcases certify op with refused | action
  · exact ⟨Grows.of_flow rfl (Nat.le_succ _), fun contract h => (by cases h)⟩
  simp only
  by_cases hused : s.flow.requests.contains id = true
  · rw [if_pos hused]
    exact ⟨Grows.of_flow rfl (Nat.le_refl _), fun contract h => (by cases h)⟩
  rw [if_neg hused]
  refine ⟨⟨Nat.le_add_right _ 2, ?_⟩, fun contract _ => ⟨Nat.lt_add_of_pos_right Nat.two_pos, ?_⟩⟩
  · intro id' request' hget
    have hne : id ≠ id' := by
      rintro rfl
      exact hused (Std.TreeMap.contains_eq_isSome_getElem?.trans (by rw [hget]; rfl))
    refine ⟨request', ?_, rfl⟩
    show (s.flow.requests.insert id _)[id']? = some request'
    rw [Std.TreeMap.getElem?_insert, if_neg (by simpa using hne)]
    exact hget
  · have hstored : ∀ request : ApprovalRequest,
        (s.flow.requests.insert id request)[id]? = some request := by
      intro request
      rw [Std.TreeMap.getElem?_insert, if_pos (by simp)]
    exact ⟨_, hstored _, rfl⟩

variable [Sha256] [Ed25519]

/-- A ticket is approved before its deadline by the first reading, and the grant has its
deadline from the second.  A ticket is refused as expired behind its deadline. -/
theorem approve_spec (id : String) (approver : Principal) (key : SigningKey) (nonce : String)
    (grantTtlMillis : Nat) (s : FlowState (Timed τ)) :
    let out := Approval.approve (besideClock seams) id approver key nonce grantTtlMillis
      (scheduled schedule) s
    Grows s out.2 ∧
      (∀ token, out.1 = .ok token →
        s.audit.world.readings + 1 < out.2.audit.world.readings ∧
        token.binding.expiryUnixMillis =
          satAdd (schedule (s.audit.world.readings + 1)).unix grantTtlMillis ∧
        ∃ request, s.flow.requests[id]? = some request ∧
          (schedule s.audit.world.readings).unix < request.expiresAt) ∧
      (∀ id' expiresAt now, out.1 = .error (.request (.expired id' expiresAt now)) →
        s.audit.world.readings < out.2.audit.world.readings ∧
        ∃ request, s.flow.requests[id]? = some request ∧
          request.expiresAt ≤ (schedule s.audit.world.readings).unix) := by
  intro out
  simp only [out, approve_eq]
  rcases hget : s.flow.requests[id]? with _ | request
  · exact ⟨Grows.of_flow rfl (Nat.le_refl _), fun _ h => (by cases h), fun _ _ _ h => (by cases h)⟩
  simp only
  by_cases hstatus : request.status ≠ .pending
  · rw [if_pos hstatus]
    exact ⟨Grows.of_flow rfl (Nat.le_refl _), fun _ h => (by cases h), fun _ _ _ h => (by cases h)⟩
  rw [if_neg hstatus]
  have hread : ((scheduled schedule).nowUnixMillis s.audit.world).1 =
      (schedule s.audit.world.readings).unix := rfl
  rw [hread]
  by_cases hexpired : request.isExpired (schedule s.audit.world.readings).unix = true
  · have hpast : request.expiresAt ≤ (schedule s.audit.world.readings).unix := by
      simpa [ApprovalRequest.isExpired] using hexpired
    rw [if_pos hexpired]
    exact ⟨Grows.of_flow rfl (Nat.le_succ _), fun _ h => (by cases h),
      fun _ _ _ _ => ⟨Nat.lt_succ_self _, request, rfl, hpast⟩⟩
  have hlive : (schedule s.audit.world.readings).unix < request.expiresAt := by
    simpa [ApprovalRequest.isExpired] using hexpired
  rw [if_neg hexpired]
  rcases authorize approver request.requesterId with e | ⟨⟩
  · exact ⟨Grows.of_flow rfl (Nat.le_add_right _ 2), fun _ h => (by cases h),
      fun _ _ _ h => (by cases h)⟩
  refine ⟨⟨Nat.le_add_right _ 3, ?_⟩, ?_, fun _ _ _ h => (by cases h)⟩
  · intro id' request' hget'
    show ∃ request'', (s.flow.requests.insert id { request with status := .approved })[id']? =
      some request'' ∧ request''.expiresAt = request'.expiresAt
    rw [Std.TreeMap.getElem?_insert]
    by_cases heq : id = id'
    · subst heq
      rw [hget] at hget'
      cases hget'
      exact ⟨_, if_pos (by simp), rfl⟩
    · exact ⟨request', by rw [if_neg (by simpa using heq)]; exact hget', rfl⟩
  · intro token h
    cases h
    refine ⟨?_, rfl, request, rfl, hlive⟩
    show s.audit.world.readings + 1 < s.audit.world.readings + 3
    omega

theorem verifySignature_ne_expired {token : GrantToken} {key : VerifyingKey} {now expiry : Nat} :
    token.verifySignature key ≠ .error (.expired now expiry) := by
  unfold GrantToken.verifySignature
  split
  · simp
  split
  · simp
  split
  · simp
  · simp

/-- A grant is accepted before its deadline by the reading, and refused as expired
behind it. -/
theorem verify_spec (token : GrantToken) (live : GrantBinding) (key : VerifyingKey)
    (nonces : NonceStore) (w : Timed τ) :
    let out := Grant.verifyForApply token live key (scheduled schedule) ⟨nonces, ⟨w, []⟩⟩
    w.readings ≤ out.2.calls.world.readings ∧
      (out.1 = .ok () → (schedule w.readings).unix < token.binding.expiryUnixMillis) ∧
      (∀ now expiry, out.1 = .error (.expired now expiry) →
        w.readings < out.2.calls.world.readings ∧
        token.binding.expiryUnixMillis ≤ (schedule w.readings).unix) := by
  intro out
  have hread : (scheduled schedule).nowUnixMillis w =
      ((schedule w.readings).unix, { w with readings := w.readings + 1 }) := rfl
  simp only [out, verifyForApply_eq, hread]
  rcases hsig : token.verifySignature key with e | ⟨⟩
  · -- Only the clock reports an expiry.
    refine ⟨Nat.le_refl _, fun h => (by cases h), ?_⟩
    rintro now expiry ⟨⟩
    exact absurd hsig verifySignature_ne_expired
  simp only
  by_cases hhash : live.bindingHash ≠ token.binding.bindingHash
  · rw [if_pos hhash]
    exact ⟨Nat.le_refl _, fun h => (by cases h), fun _ _ h => (by cases h)⟩
  rw [if_neg hhash]
  by_cases hnow : (schedule w.readings).unix ≥ token.binding.expiryUnixMillis
  · rw [if_pos hnow]
    exact ⟨Nat.le_succ _, fun h => (by cases h), fun _ _ _ => ⟨Nat.lt_succ_self _, hnow⟩⟩
  rw [if_neg hnow]
  by_cases hused : token.binding.nonce ∈ nonces.used
  · rw [if_pos hused]
    exact ⟨Nat.le_succ _, fun h => (by cases h), fun _ _ h => (by cases h)⟩
  · rw [if_neg hused]
    exact ⟨Nat.le_succ _, fun _ => by omega, fun _ _ h => (by cases h)⟩

end Calls

/-! ## What a record leaves behind -/

/-- The deadlines a record speaks of are where it says, and its readings are past. -/
structure Settled (schedule : Nat → Instant) (s : FlowState (Timed τ)) (r : Record) : Prop where
  opens : ∀ id ttlMillis, r.Opens id ttlMillis → r.reading < s.audit.world.readings ∧
    ∃ request, s.flow.requests[id]? = some request ∧
      request.expiresAt = satAdd (schedule r.reading).unix ttlMillis
  refusesTicket : ∀ id, r.RefusesTicket id → r.reading < s.audit.world.readings ∧
    ∃ request, s.flow.requests[id]? = some request ∧
      request.expiresAt ≤ (schedule r.reading).unix
  signs : ∀ token ttlMillis, r.Signs token ttlMillis → r.reading + 1 < s.audit.world.readings ∧
    token.binding.expiryUnixMillis = satAdd (schedule (r.reading + 1)).unix ttlMillis
  refusesGrant : ∀ token, r.RefusesGrant token → r.reading < s.audit.world.readings ∧
    token.binding.expiryUnixMillis ≤ (schedule r.reading).unix

theorem Settled.grows {schedule : Nat → Instant} {s s' : FlowState (Timed τ)} {r : Record}
    (h : Settled schedule s r) (hgrows : Grows s s') : Settled schedule s' r := by
  have hmore := hgrows.readings
  refine ⟨?_, ?_, ?_, ?_⟩
  · intro id ttlMillis hopens
    obtain ⟨hread, request, hget, hdeadline⟩ := h.opens id ttlMillis hopens
    obtain ⟨request', hget', hsame⟩ := hgrows.tickets id request hget
    exact ⟨by omega, request', hget', hsame.trans hdeadline⟩
  · intro id hrefuses
    obtain ⟨hread, request, hget, hpast⟩ := h.refusesTicket id hrefuses
    obtain ⟨request', hget', hsame⟩ := hgrows.tickets id request hget
    exact ⟨by omega, request', hget', by omega⟩
  · intro token ttlMillis hsigns
    obtain ⟨hread, hdeadline⟩ := h.signs token ttlMillis hsigns
    exact ⟨by omega, hdeadline⟩
  · intro token hrefuses
    obtain ⟨hread, hpast⟩ := h.refusesGrant token hrefuses
    exact ⟨by omega, hpast⟩

section Steps

variable [Sha256] [Ed25519] (schedule : Nat → Instant) (seams : FlowSeams τ)

theorem record_grows (step : Step) (s : FlowState (Timed τ)) :
    Grows s (step.record schedule seams s).2 := by
  cases step with
  | requestElevation id proposal requesterId op ttlMillis =>
      exact (requestElevation_spec schedule seams id proposal requesterId op ttlMillis s).1
  | approve id approver key nonce grantTtlMillis =>
      exact (approve_spec schedule seams id approver key nonce grantTtlMillis s).1
  | verifyForApply token live key nonces =>
      exact Grows.of_flow rfl (verify_spec schedule token live key nonces s.audit.world).1

theorem record_settled (step : Step) (s : FlowState (Timed τ)) :
    Settled schedule (step.record schedule seams s).2 (step.record schedule seams s).1 := by
  refine ⟨?_, ?_, ?_, ?_⟩
  · rintro id ttlMillis ⟨proposal, requesterId, op, contract, rfl, hout⟩
    exact (requestElevation_spec schedule seams id proposal requesterId op ttlMillis s).2 contract
      (Outcome.ticket.inj hout)
  · rintro id ⟨approver, key, nonce, ttlMillis, id', expiresAt, now, rfl, hout⟩
    obtain ⟨hread, request, hget, hpast⟩ :=
      (approve_spec schedule seams id approver key nonce ttlMillis s).2.2 id' expiresAt now
        (Outcome.grant.inj hout)
    obtain ⟨request', hget', hsame⟩ := (record_grows schedule seams
      (.approve id approver key nonce ttlMillis) s).tickets id request hget
    exact ⟨hread, request', hget', hsame.trans_le hpast⟩
  · rintro token ttlMillis ⟨id, approver, key, nonce, rfl, hout⟩
    obtain ⟨hread, hdeadline, -⟩ :=
      (approve_spec schedule seams id approver key nonce ttlMillis s).2.1 token
        (Outcome.grant.inj hout)
    exact ⟨hread, hdeadline⟩
  · rintro token ⟨live, key, nonces, now, expiry, rfl, hout⟩
    exact (verify_spec schedule token live key nonces s.audit.world).2.2 now expiry
      (Outcome.verdict.inj hout)

/-- A ticket is approved before its deadline. -/
theorem record_approves {step : Step} {s : FlowState (Timed τ)} {id : String}
    (h : (step.record schedule seams s).1.Approves id) :
    ∃ request, s.flow.requests[id]? = some request ∧
      (schedule s.audit.world.readings).unix < request.expiresAt := by
  obtain ⟨approver, key, nonce, ttlMillis, token, rfl, hout⟩ := h
  exact ((approve_spec schedule seams id approver key nonce ttlMillis s).2.1 token
    (Outcome.grant.inj hout)).2.2

/-- A grant is accepted before its deadline. -/
theorem record_accepts {step : Step} {s : FlowState (Timed τ)} {token : GrantToken}
    (h : (step.record schedule seams s).1.Accepts token) :
    (schedule s.audit.world.readings).unix < token.binding.expiryUnixMillis := by
  obtain ⟨live, key, nonces, rfl, hout⟩ := h
  exact (verify_spec schedule token live key nonces s.audit.world).2.1 (Outcome.verdict.inj hout)

end Steps

/-! ## Whole runs -/

variable {schedule : Nat → Instant}

/-- Behind settled records, over a wall clock that keeps up, a call revokes nothing. -/
theorem record_irrevocable [Sha256] [Ed25519] (hkeeps : KeepsUp schedule) (seams : FlowSeams τ)
    (step : Step) {s : FlowState (Timed τ)} {before : List Record}
    (hinv : ∀ r ∈ before, Settled schedule s r) :
    Irrevocable schedule before (step.record schedule seams s).1 := by
  refine ⟨?_, ?_, ?_, ?_⟩
  · intro r' hr' id hrefused happroves
    obtain ⟨hread, request, hget, hpast⟩ := (hinv r' hr').refusesTicket id hrefused
    obtain ⟨request', hget', hlive⟩ := record_approves schedule seams happroves
    have hforward := hkeeps.forward r'.reading s.audit.world.readings (by omega)
    rw [hget] at hget'
    cases hget'
    omega
  · intro r' hr' token hrefused haccepts
    obtain ⟨hread, hpast⟩ := (hinv r' hr').refusesGrant token hrefused
    have hlive := record_accepts schedule seams haccepts
    have hforward := hkeeps.forward r'.reading s.audit.world.readings (by omega)
    omega
  · intro r' hr' id ttlMillis hopens happroves
    obtain ⟨hread, request, hget, hdeadline⟩ := (hinv r' hr').opens id ttlMillis hopens
    obtain ⟨request', hget', hlive⟩ := record_approves schedule seams happroves
    have hpace := hkeeps.pace r'.reading s.audit.world.readings (by omega)
    rw [hget] at hget'
    cases hget'
    rw [hdeadline] at hlive
    have hbefore := lt_of_lt_satAdd hlive
    show (schedule s.audit.world.readings).mono ≤ _
    omega
  · intro r' hr' token ttlMillis hsigns haccepts
    obtain ⟨hread, hdeadline⟩ := (hinv r' hr').signs token ttlMillis hsigns
    have hlive := record_accepts schedule seams haccepts
    have hpace := hkeeps.pace (r'.reading + 1) s.audit.world.readings (by omega)
    rw [hdeadline] at hlive
    have hbefore := lt_of_lt_satAdd hlive
    show (schedule s.audit.world.readings).mono ≤ _
    omega

/-- Over a schedule on which the wall clock keeps up, expiry is irrevocable in every
run. -/
theorem expiry_irrevocable [Sha256] [Ed25519] (schedule : Nat → Instant)
    (hkeeps : KeepsUp schedule) (seams : FlowSeams τ) (steps : List Step) (start : τ) :
    PgBrakes.Verified.History.EveryStep (Irrevocable schedule)
      (history schedule seams steps start) := by
  have hstep : ∀ (before : List Record) (s : FlowState (Timed τ)) (step : Step), True →
      (∀ r ∈ before, Settled schedule s r) →
      Irrevocable schedule before (step.record schedule seams s).1 ∧
        ∀ r ∈ before ++ [(step.record schedule seams s).1],
          Settled schedule (step.record schedule seams s).2 r := by
    intro before s step _ hinv
    refine ⟨record_irrevocable hkeeps seams step hinv, ?_⟩
    intro r hr
    rcases List.mem_append.mp hr with hr | hr
    · exact (hinv r hr).grows (record_grows schedule seams step s)
    · rw [List.mem_singleton.mp hr]
      exact record_settled schedule seams step s
  exact (PgBrakes.Verified.History.run_rule _ (fun before s => ∀ r ∈ before, Settled schedule s r)
    (fun _ => True) (Irrevocable schedule) hstep (by simp) (by simp)).2

/-! ## A ticket and two wall clocks -/

def ticketProposal : RequestProposal where
  proposalId := "p1"
  statementText := "DELETE FROM accounts WHERE id = 1"
  normalizedParams := []
  role := "app"
  sessionId := "agent"
  dryRunLsn := "0/1"
  cap := { maxRows := 1, maxWalBytes := 0 }

def openStep (id : String) (ttlMillis : Nat) : Step :=
  .requestElevation id ticketProposal "agent" (.delete true true) ttlMillis

def approveStep (id nonce : String) : Step :=
  .approve id (.approver "alice") approverKey nonce 100

/-- The calls on a ticket that lives for 100 ms: it is opened, and approved twice. -/
def ticketSteps : List Step := [openStep "r1" 100, approveStep "r1" "n1", approveStep "r1" "n1"]

/-- A sink that takes every entry. -/
def silentSeams : FlowSeams Unit := ⟨⟨fun _ _ => pure ()⟩, fun _ w => w⟩

/-- Both clocks advance by 40 ms between two readings. -/
def together (i : Nat) : Instant := ⟨1000 + 40 * i, 40 * i⟩

/-- Two tickets, and a grant over the first. -/
def grantSteps : List Step := [openStep "r1" 200, openStep "r2" 100, approveStep "r1" "n1"]

/-- The grants signed in some calls. -/
def grantsOf (calls : List Record) : List GrantToken :=
  calls.filterMap fun r => match r.outcome with
    | .grant (.ok token) => some token
    | _ => none

/-- The grant is verified in time and once more when it has expired, and between the two the
second ticket is approved too late. -/
def expirySteps [Sha256] [Ed25519] : List Step :=
  grantSteps ++ (grantsOf (history together silentSeams grantSteps ())).flatMap fun token =>
    let verify : Step := .verifyForApply token token.binding (Ed25519.verifyingKey approverKey) .new
    [verify, approveStep "r2" "n2", verify]

/-- The call was refused because of a deadline. -/
def Outcome.isExpired : Outcome → Bool
  | .grant (.error (.request (.expired _ _ _))) => true
  | .verdict (.error (.expired _ _)) => true
  | _ => false

/-- The first ticket and its grant are used in time; the second ticket and the second use of
the grant come too late. -/
theorem expiry_irrevocable_together :
    letI := Sha256.standard
    letI := sharedBytes
    let calls := history together silentSeams expirySteps ()
    calls.map (fun r => (r.outcome.isOk, r.outcome.isExpired)) =
        [(true, false), (true, false), (true, false), (true, false), (false, true),
          (false, true)] ∧
      PgBrakes.Verified.History.EveryStep (Irrevocable together) calls := by
  let _ := Sha256.standard
  let _ := sharedBytes
  have hkeeps : KeepsUp together := by
    constructor
    · intro i j hij
      simp only [together]
      omega
    · intro i j hij
      simp only [together]
      omega
  exact ⟨by decide +kernel, expiry_irrevocable together hkeeps silentSeams expirySteps ()⟩

/-- The wall clock runs 200 ms and is then set back by 150 ms. -/
def setBack (i : Nat) : Instant :=
  { unix := if i < 2 then 1000 else if i = 2 then 1200 else 1050
    mono := if i < 2 then 0 else if i = 2 then 200 else 300 }

/-- The ticket is refused as expired 200 ms after it was opened, and approved 100 ms
later, when the wall clock has been set back. -/
theorem clockSetBack_revokes :
    letI := Sha256.standard
    letI := sharedBytes
    (∀ i j, i ≤ j → (setBack i).mono ≤ (setBack j).mono) ∧
      ¬ PgBrakes.Verified.History.EveryStep (Irrevocable setBack)
        (history setBack silentSeams ticketSteps ()) := by
  let _ := Sha256.standard
  let _ := sharedBytes
  constructor
  · intro i j hij
    show (if i < 2 then 0 else if i = 2 then 200 else 300) ≤
      if j < 2 then 0 else if j = 2 then 200 else 300
    split
    · omega
    split
    · rw [if_neg (by omega)]
      split
      · omega
      · omega
    · rw [if_neg (by omega), if_neg (by omega)]
  · intro hevery
    obtain ⟨r₀, r₁, r₂, hcalls, hrefused, approver, key, nonce, ttlMillis, result, hstep, hout,
        hok⟩ : ∃ r₀ r₁ r₂ : Record, history setBack silentSeams ticketSteps () = [r₀, r₁, r₂] ∧
          r₁.RefusesTicket "r1" ∧ ∃ approver key nonce ttlMillis result,
            r₂.step = .approve "r1" approver key nonce ttlMillis ∧
              r₂.outcome = .grant result ∧ result.toBool = true :=
      ⟨_, _, _, rfl, ⟨_, _, _, _, "r1", 1100, 1200, rfl, by decide +kernel⟩, _, _, _, _, _, rfl,
        rfl, by decide +kernel⟩
    cases result with
    | error e => cases hok
    | ok token =>
        exact (hevery [r₀, r₁] r₂ [] hcalls).ticket r₁ (by simp) "r1" hrefused
          ⟨approver, key, nonce, ttlMillis, token, hstep, hout⟩

end PgBrakes.Ports.Expiry
