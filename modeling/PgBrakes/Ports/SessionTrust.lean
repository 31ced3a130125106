import PgBrakes.Verified.Ratchet
import PgBrakes.Ports.BlastRecord

/-!
# The trust of a session

A port of `crates/core/src/session.rs`.  A session is granted a level of trust, and
signals seen while it runs may lower it.  Rows and bytes are counted next to it, with
sums that saturate.  The clock is read at every update and its value is not used.

## Main results

* `run_trust`, `run_rows`, `run_bytes` — the session after any calls.
* `trust_ratchets` — the trust is the least of the granted level and the ceilings of
  the events seen, in any order, and it only falls.
* `trust_not_of_counters` — the counters do not determine it.
-/

namespace PgBrakes.Ports.Session

open PgBrakes.Verified.MachineWord
open PgBrakes.Verified.Ratchet
open PgBrakes.Ports.BlastRecord

/-- How trusted a session is, least first. -/
inductive TrustLevel where
  | untrusted
  | agent
  | operator
deriving DecidableEq

namespace TrustLevel

def rank : TrustLevel → Nat
  | .untrusted => 0
  | .agent => 1
  | .operator => 2

theorem rank_injective : Function.Injective rank := by
  intro a b h
  cases a <;> cases b <;> first | rfl | cases h

instance : LinearOrder TrustLevel := LinearOrder.lift' rank rank_injective

theorem le_iff_rank {a b : TrustLevel} : a ≤ b ↔ a.rank ≤ b.rank := Iff.rfl

theorem le_operator (a : TrustLevel) : a ≤ .operator := by
  cases a <;> decide

def defaultFloor : TrustLevel := .untrusted

/-- The budget a level unlocks, in basis points. -/
def budgetMultiplierBp : TrustLevel → Nat
  | .untrusted => 1000
  | .agent => 5000
  | .operator => 10000

/-- The less trusted of the two. -/
def tighten (a b : TrustLevel) : TrustLevel := min a b

/-- A lower level never unlocks a bigger budget. -/
theorem budgetMultiplierBp_mono {a b : TrustLevel} (h : a ≤ b) :
    a.budgetMultiplierBp ≤ b.budgetMultiplierBp := by
  rw [le_iff_rank] at h
  cases a <;> cases b <;> simp [rank, budgetMultiplierBp] at h ⊢

end TrustLevel

/-- A signal observed during a session. -/
inductive TrustEvent where
  | benignRead (rows bytes : Nat)
  | benignWrite (rows : Nat)
  | suspiciousPattern
  | floorTripped
  | slowDripSuspected
  | operatorQuarantine
deriving DecidableEq

namespace TrustEvent

/-- The highest level the event is consistent with. -/
def trustCeiling : TrustEvent → TrustLevel
  | .benignRead _ _ | .benignWrite _ => .operator
  | .suspiciousPattern => .agent
  | .floorTripped | .slowDripSuspected | .operatorQuarantine => .untrusted

def rows : TrustEvent → Nat
  | .benignRead rows _ => rows
  | .benignWrite rows => rows
  | _ => 0

def bytes : TrustEvent → Nat
  | .benignRead _ bytes => bytes
  | _ => 0

end TrustEvent

variable {ω : Type}

/-- The level implied by the events; the clock is read and not used. -/
def trustTransition (clock : Clock ω) (events : List TrustEvent) (w : ω) : TrustLevel × ω :=
  (events.foldl (fun level event => level.tighten event.trustCeiling) .operator,
    (clock.monotonicMillis w).2)

structure SessionState where
  cumulativeRows : Nat
  cumulativeBytes : Nat
  granted : TrustLevel
  trust : TrustLevel
deriving DecidableEq

namespace SessionState

/-- A fresh session of a granted identity. -/
def withGranted (granted : TrustLevel) : SessionState := ⟨0, 0, granted, granted⟩

/-- A fresh session without one. -/
def new : SessionState := withGranted .defaultFloor

def budgetMultiplierBp (s : SessionState) : Nat := s.trust.budgetMultiplierBp

def applyEvent (clock : Clock ω) (event : TrustEvent) (s : SessionState) (w : ω) :
    SessionState × ω :=
  let (fromEvent, w) := trustTransition clock [event] w
  ({ s with
      cumulativeRows := satAdd s.cumulativeRows event.rows
      cumulativeBytes := satAdd s.cumulativeBytes event.bytes
      trust := s.trust.tighten fromEvent }, w)

def recomputeTrust (clock : Clock ω) (events : List TrustEvent) (s : SessionState) (w : ω) :
    SessionState × ω :=
  let (recomputed, w) := trustTransition clock events w
  ({ s with trust := s.trust.tighten recomputed }, w)

end SessionState

/-! ## Runs -/

/-- The two calls that update a session. -/
inductive SessionCall where
  | applyEvent (event : TrustEvent)
  | recomputeTrust (events : List TrustEvent)

namespace SessionCall

def step (clock : Clock ω) : SessionCall → SessionState × ω → SessionState × ω
  | .applyEvent event, (s, w) => s.applyEvent clock event w
  | .recomputeTrust events, (s, w) => s.recomputeTrust clock events w

/-- The events a call looks at. -/
def seen : SessionCall → List TrustEvent
  | .applyEvent event => [event]
  | .recomputeTrust events => events

/-- The events a call adds to the counters. -/
def counted : SessionCall → List TrustEvent
  | .applyEvent event => [event]
  | .recomputeTrust _ => []

end SessionCall

/-- The session after the calls. -/
def runCalls (clock : Clock ω) (calls : List SessionCall) (start : SessionState × ω) :
    SessionState × ω :=
  calls.foldl (fun st call => call.step clock st) start

/-- All events the calls look at. -/
def seen (calls : List SessionCall) : List TrustEvent := calls.flatMap SessionCall.seen

/-- All events the calls add to the counters. -/
def counted (calls : List SessionCall) : List TrustEvent := calls.flatMap SessionCall.counted

variable (clock : Clock ω)

/-! ## One call -/

/-- Tightening by what the events imply is tightening by one event after the other. -/
theorem tighten_transition (level : TrustLevel) (events : List TrustEvent) (w : ω) :
    level.tighten (trustTransition clock events w).1 =
      lowered TrustEvent.trustCeiling level events := by
  show min level (lowered TrustEvent.trustCeiling .operator events) = _
  rw [← lowered_min, min_eq_left level.le_operator]

theorem step_trust (call : SessionCall) (st : SessionState × ω) :
    (call.step clock st).1.trust = lowered TrustEvent.trustCeiling st.1.trust call.seen := by
  cases call with
  | applyEvent event => exact tighten_transition clock st.1.trust [event] st.2
  | recomputeTrust events => exact tighten_transition clock st.1.trust events st.2

/-- Only applied events are counted, and a total at the maximum stays there. -/
theorem step_counters (call : SessionCall) (st : SessionState × ω) :
    (call.step clock st).1.cumulativeRows =
        call.counted.foldl (fun n e => satAdd n e.rows) st.1.cumulativeRows ∧
      (call.step clock st).1.cumulativeBytes =
        call.counted.foldl (fun n e => satAdd n e.bytes) st.1.cumulativeBytes := by
  cases call <;> exact ⟨rfl, rfl⟩

/-! ## Any calls -/

theorem run_trust (calls : List SessionCall) (st : SessionState × ω) :
    (runCalls clock calls st).1.trust =
      lowered TrustEvent.trustCeiling st.1.trust (seen calls) := by
  induction calls generalizing st with
  | nil => rfl
  | cons call calls ih =>
      show (runCalls clock calls (call.step clock st)).1.trust = _
      rw [ih, step_trust, ← lowered_append]
      rfl

theorem run_counters (calls : List SessionCall) (st : SessionState × ω) :
    (runCalls clock calls st).1.cumulativeRows =
        (counted calls).foldl (fun n e => satAdd n e.rows) st.1.cumulativeRows ∧
      (runCalls clock calls st).1.cumulativeBytes =
        (counted calls).foldl (fun n e => satAdd n e.bytes) st.1.cumulativeBytes := by
  induction calls generalizing st with
  | nil => exact ⟨rfl, rfl⟩
  | cons call calls ih =>
      have hstep := step_counters clock call st
      have hrest := ih (call.step clock st)
      rw [hstep.1, hstep.2] at hrest
      rw [counted, List.flatMap_cons, List.foldl_append, List.foldl_append]
      exact hrest

theorem run_rows (granted : TrustLevel) (calls : List SessionCall) (w : ω) :
    (runCalls clock calls (.withGranted granted, w)).1.cumulativeRows =
      min ((counted calls).map TrustEvent.rows).sum u64Max := by
  rw [(run_counters clock calls _).1]
  refine (saturated_eq u64Max TrustEvent.rows 0 _ (Nat.zero_le _)).trans ?_
  rw [Nat.zero_add]

theorem run_bytes (granted : TrustLevel) (calls : List SessionCall) (w : ω) :
    (runCalls clock calls (.withGranted granted, w)).1.cumulativeBytes =
      min ((counted calls).map TrustEvent.bytes).sum u64Max := by
  rw [(run_counters clock calls _).2]
  refine (saturated_eq u64Max TrustEvent.bytes 0 _ (Nat.zero_le _)).trans ?_
  rw [Nat.zero_add]

/-- Later calls never leave more trust. -/
theorem run_trust_le (before after : List SessionCall) (st : SessionState × ω) :
    (runCalls clock (before ++ after) st).1.trust ≤ (runCalls clock before st).1.trust := by
  have happend : runCalls clock (before ++ after) st =
      runCalls clock after (runCalls clock before st) := List.foldl_append
  rw [happend, run_trust]
  exact lowered_le _ _ _

/-- From a fresh grant, after any calls: the trust is not above the grant nor above what
it was after the earlier ones, and neither is the budget; the counters are the saturated
sums of the applied events; the trust is the least of the grant and the ceilings of the
events seen, so calls that see the same events in another order end with the same. -/
theorem trust_ratchets (granted : TrustLevel) (calls : List SessionCall) (w : ω) :
    let final := (runCalls clock calls (.withGranted granted, w)).1
    final.trust ≤ granted ∧
    (∀ before after, calls = before ++ after →
      final.trust ≤ (runCalls clock before (.withGranted granted, w)).1.trust ∧
      final.budgetMultiplierBp ≤
        (runCalls clock before (.withGranted granted, w)).1.budgetMultiplierBp) ∧
    final.cumulativeRows = min ((counted calls).map TrustEvent.rows).sum u64Max ∧
    final.cumulativeBytes = min ((counted calls).map TrustEvent.bytes).sum u64Max ∧
    IsLeast {level | level = granted ∨ ∃ e ∈ seen calls, level = e.trustCeiling} final.trust ∧
    (∀ calls' w', (seen calls').Perm (seen calls) →
      (runCalls clock calls' (.withGranted granted, w')).1.trust = final.trust) := by
  have htrust : ∀ calls w, (runCalls clock calls (.withGranted granted, w)).1.trust =
      lowered TrustEvent.trustCeiling granted (seen calls) :=
    fun calls w => run_trust clock calls (.withGranted granted, w)
  refine ⟨?_, ?_, run_rows clock granted calls w, run_bytes clock granted calls w, ?_, ?_⟩
  · rw [htrust]
    exact lowered_le _ _ _
  · rintro before after rfl
    have hle := run_trust_le clock before after (.withGranted granted, w)
    exact ⟨hle, TrustLevel.budgetMultiplierBp_mono hle⟩
  · rw [htrust]
    exact isLeast_lowered _ _ _
  · intro calls' w' hperm
    rw [htrust, htrust]
    exact lowered_perm _ _ hperm

/-- A clock that stands still. -/
def stoppedClock : Clock Unit := ⟨fun w => (0, w), fun w => (0, w)⟩

/-- A suspicious pattern between two reads, and the same events replayed backwards. -/
theorem trust_ratchets_replayed :
    (runCalls stoppedClock [.recomputeTrust [.benignRead 5 50, .suspiciousPattern,
        .benignRead 10 100]] (.withGranted .operator, ())).1.trust =
      (runCalls stoppedClock [.applyEvent (.benignRead 10 100), .applyEvent .suspiciousPattern,
        .applyEvent (.benignRead 5 50)] (.withGranted .operator, ())).1.trust := by
  have hperm : (seen [.recomputeTrust [.benignRead 5 50, .suspiciousPattern,
        .benignRead 10 100]]).Perm
      (seen [.applyEvent (.benignRead 10 100), .applyEvent .suspiciousPattern,
        .applyEvent (.benignRead 5 50)]) := by
    decide
  exact (trust_ratchets stoppedClock .operator _ ()).2.2.2.2.2 _ () hperm

/-- A tripped floor lowers the trust and counts nothing: a session that saw it has the
counters of a fresh one, so no ceiling read off the counters is right for both. -/
theorem trust_not_of_counters :
    ¬ ∃ ceiling : Nat → Nat → TrustLevel, ∀ (granted : TrustLevel) (calls : List SessionCall),
      let final := (runCalls stoppedClock calls (.withGranted granted, ())).1
      final.trust = min granted (ceiling final.cumulativeRows final.cumulativeBytes) := by
  rintro ⟨ceiling, h⟩
  have hfresh : TrustLevel.operator = min .operator (ceiling 0 0) := h .operator []
  have htripped : TrustLevel.untrusted = min .operator (ceiling 0 0) :=
    h .operator [.applyEvent .floorTripped]
  have hsame := hfresh.trans htripped.symm
  cases hsame

end PgBrakes.Ports.Session
