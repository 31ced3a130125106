import PgBrakes.Verified.History
import Mathlib.Data.List.Basic

/-!
# The warden and its circuit breaker

A port of `crates/warden/src/{model,thresholds,poller,breaker}.rs`.  On every tick the
warden lets the breaker cool down, looks at the cluster once, terminates the agents'
runaway backends and trips the breaker if a threshold is passed.  The clock is read at
two places of a tick, by `CircuitBreaker::tick` when the breaker is open and by
`CircuitBreaker::trip` when it is not; `Reads` is what it shows there.

## Main results

* `assess_trip_isSome_iff`, `assess_toTerminate` — what one assessment decides.
* `breaker_keeps_its_window` — over whole runs: a trip condition leaves the breaker open,
  the window it opens is kept to the instant, and only runaway agents are terminated.
* `breaker_recovers_iff` — the loop probes a half-open breaker only by tripping it again.
-/

namespace PgBrakes.Ports.Warden

open PgBrakes.Verified.History

/-! ## What the warden sees -/

def proxyAppName : String := "pgb_proxy"

def agentRole : String := "pgb_agent"

/-- One row of `pg_stat_activity`. -/
structure Backend where
  pid : Int
  usename : String
  applicationName : String
  state : String
  queryRuntimeMillis : Nat
  query : String
deriving DecidableEq

/-- The role cannot be shed, the name can: either one is enough. -/
def Backend.isAgentTagged (b : Backend) : Bool :=
  b.usename == agentRole || b.applicationName == proxyAppName

/-- One row of `pg_replication_slots`. -/
structure ReplicationSlot where
  slotName : String
  slotType : String
  active : Bool
  retainedWalBytes : Nat
deriving DecidableEq

/-- One poll.  `pg_stat_activity` has one row for each backend pid, an `i32`, so there
are fewer rows than the `u32` that counts them can hold. -/
structure Observation where
  backends : List Backend
  slots : List ReplicationSlot
  replicationLagBytes : Nat
  rows_lt : backends.length < UInt32.size
deriving DecidableEq

def Observation.default : Observation := ⟨[], [], 0, by decide⟩

structure WardenThresholds where
  pollIntervalMillis : Nat
  maxQueryRuntimeMillis : Nat
  slotRetainedWalAlarmBytes : Nat
  breakerLagTripBytes : Nat
  breakerRunawayTripCount : Nat
  breakerCooldownMillis : Nat
deriving DecidableEq

def WardenThresholds.default : WardenThresholds where
  pollIntervalMillis := 2000
  maxQueryRuntimeMillis := 60000
  slotRetainedWalAlarmBytes := 64 * 1024 * 1024
  breakerLagTripBytes := 128 * 1024 * 1024
  breakerRunawayTripCount := 3
  breakerCooldownMillis := 30000

/-! ## The assessment -/

inductive TripReason where
  | replicationLag (observedBytes tripBytes : Nat)
  | runawayVolume (observed trip : Nat)
  | slotWalCeiling (slotName : String) (observedBytes ceilingBytes : Nat)
deriving DecidableEq

structure Assessment where
  toTerminate : List Int
  sparedNonAgent : List Int
  slotAlarms : List (String × Nat)
  trip : Option TripReason
deriving DecidableEq

def isRunaway (b : Backend) (maxRuntimeMillis : Nat) : Bool :=
  b.state == "active" && decide (b.queryRuntimeMillis > maxRuntimeMillis)

def isSlotOverCeiling (s : ReplicationSlot) (ceilingBytes : Nat) : Bool :=
  decide (s.retainedWalBytes > ceilingBytes)

/-- The accumulators of the loop over the backends. -/
structure Targets where
  toTerminate : List Int
  sparedNonAgent : List Int
  runawayAgentCount : Nat

/-- One backend of the loop. -/
def Targets.visit (t : WardenThresholds) (acc : Targets) (b : Backend) : Targets :=
  if !isRunaway b t.maxQueryRuntimeMillis then acc
  else if b.isAgentTagged then
    { acc with
      toTerminate := acc.toTerminate ++ [b.pid]
      runawayAgentCount := (acc.runawayAgentCount + 1) % UInt32.size }
  else { acc with sparedNonAgent := acc.sparedNonAgent ++ [b.pid] }

/-- The first reason that applies: lag, then a slot, then the number of runaways. -/
def tripOf (obs : Observation) (t : WardenThresholds) (slotAlarms : List (String × Nat))
    (runawayAgentCount : Nat) : Option TripReason :=
  if obs.replicationLagBytes > t.breakerLagTripBytes then
    some (.replicationLag obs.replicationLagBytes t.breakerLagTripBytes)
  else match slotAlarms.head? with
    | some (name, bytes) => some (.slotWalCeiling name bytes t.slotRetainedWalAlarmBytes)
    | none =>
        if runawayAgentCount ≥ t.breakerRunawayTripCount then
          some (.runawayVolume runawayAgentCount t.breakerRunawayTripCount)
        else none

def assess (obs : Observation) (t : WardenThresholds) : Assessment :=
  let targets := obs.backends.foldl (Targets.visit t) ⟨[], [], 0⟩
  let slotAlarms := (obs.slots.filter (isSlotOverCeiling · t.slotRetainedWalAlarmBytes)).map
    fun s => (s.slotName, s.retainedWalBytes)
  { toTerminate := targets.toTerminate
    sparedNonAgent := targets.sparedNonAgent
    slotAlarms := slotAlarms
    trip := tripOf obs t slotAlarms targets.runawayAgentCount }

/-- An active backend of an agent whose query has run past the ceiling. -/
def RunawayAgent (t : WardenThresholds) (b : Backend) : Prop :=
  b.state = "active" ∧ t.maxQueryRuntimeMillis < b.queryRuntimeMillis ∧
    (b.usename = agentRole ∨ b.applicationName = proxyAppName)

instance (t : WardenThresholds) (b : Backend) : Decidable (RunawayAgent t b) :=
  inferInstanceAs (Decidable (_ ∧ _ ∧ _))

def runawayAgents (t : WardenThresholds) (obs : Observation) : List Backend :=
  obs.backends.filter fun b => decide (RunawayAgent t b)

def slotsOverCeiling (t : WardenThresholds) (obs : Observation) : List ReplicationSlot :=
  obs.slots.filter fun s => decide (t.slotRetainedWalAlarmBytes < s.retainedWalBytes)

/-- A threshold of the breaker is passed. -/
def TripCondition (t : WardenThresholds) (obs : Observation) : Prop :=
  t.breakerLagTripBytes < obs.replicationLagBytes ∨ slotsOverCeiling t obs ≠ [] ∨
    t.breakerRunawayTripCount ≤ (runawayAgents t obs).length

instance (t : WardenThresholds) (obs : Observation) : Decidable (TripCondition t obs) :=
  inferInstanceAs (Decidable (_ ∨ _ ∨ _))

theorem runawayAgent_iff (t : WardenThresholds) (b : Backend) :
    RunawayAgent t b ↔ isRunaway b t.maxQueryRuntimeMillis = true ∧ b.isAgentTagged = true := by
  simp only [RunawayAgent, isRunaway, Backend.isAgentTagged, Bool.and_eq_true, Bool.or_eq_true,
    beq_iff_eq, decide_eq_true_eq, gt_iff_lt, and_assoc]

/-- What the loop does with one backend, in the words of the specification. -/
theorem visit_eq (t : WardenThresholds) (acc : Targets) (b : Backend) :
    (RunawayAgent t b ∧ acc.visit t b =
      { acc with
        toTerminate := acc.toTerminate ++ [b.pid]
        runawayAgentCount := (acc.runawayAgentCount + 1) % UInt32.size }) ∨
    (¬ RunawayAgent t b ∧ (acc.visit t b).toTerminate = acc.toTerminate ∧
      (acc.visit t b).runawayAgentCount = acc.runawayAgentCount) := by
  rw [runawayAgent_iff]
  unfold Targets.visit
  by_cases hrun : isRunaway b t.maxQueryRuntimeMillis = true
  · by_cases htag : b.isAgentTagged = true
    · exact .inl ⟨⟨hrun, htag⟩, by simp [hrun, htag]⟩
    · exact .inr ⟨fun h => htag h.2, by simp [hrun, htag], by simp [hrun, htag]⟩
  · exact .inr ⟨fun h => hrun h.1, by simp [hrun], by simp [hrun]⟩

/-- The whole loop.  The counter does not wrap as long as it could count every backend. -/
theorem foldl_visit (t : WardenThresholds) (backends : List Backend) (acc : Targets)
    (hfits : acc.runawayAgentCount + backends.length < UInt32.size) :
    (backends.foldl (Targets.visit t) acc).toTerminate =
        acc.toTerminate ++ (backends.filter fun b => decide (RunawayAgent t b)).map Backend.pid ∧
      (backends.foldl (Targets.visit t) acc).runawayAgentCount =
        acc.runawayAgentCount + (backends.filter fun b => decide (RunawayAgent t b)).length := by
  induction backends generalizing acc with
  | nil => simp
  | cons b backends ih =>
      rw [List.length_cons] at hfits
      rw [List.foldl_cons]
      rcases visit_eq t acc b with ⟨hb, hvisit⟩ | ⟨hb, hterm, hcount⟩
      · have hwrap : (acc.runawayAgentCount + 1) % UInt32.size = acc.runawayAgentCount + 1 :=
          Nat.mod_eq_of_lt (by omega)
        rw [hwrap] at hvisit
        obtain ⟨hterms, hcounts⟩ := ih (acc.visit t b) (by rw [hvisit]; simp only; omega)
        rw [List.filter_cons_of_pos (by simpa using hb)]
        constructor
        · rw [hterms, hvisit]
          simp
        · rw [hcounts, hvisit]
          simp only [List.length_cons]
          omega
      · obtain ⟨hterms, hcounts⟩ := ih (acc.visit t b) (by rw [hcount]; omega)
        rw [List.filter_cons_of_neg (by simpa using hb)]
        exact ⟨by rw [hterms, hterm], by rw [hcounts, hcount]⟩

theorem assess_toTerminate (obs : Observation) (t : WardenThresholds) :
    (assess obs t).toTerminate = (runawayAgents t obs).map Backend.pid := by
  have h := (foldl_visit t obs.backends ⟨[], [], 0⟩ (by simpa using obs.rows_lt)).1
  simpa [assess, runawayAgents] using h

theorem assess_trip_isSome_iff (obs : Observation) (t : WardenThresholds) :
    (assess obs t).trip.isSome = true ↔ TripCondition t obs := by
  have hcount : (obs.backends.foldl (Targets.visit t) ⟨[], [], 0⟩).runawayAgentCount =
      (runawayAgents t obs).length := by
    simpa [runawayAgents] using
      (foldl_visit t obs.backends ⟨[], [], 0⟩ (by simpa using obs.rows_lt)).2
  have halarms : ∀ f : ReplicationSlot → String × Nat,
      ((slotsOverCeiling t obs).map f).head? = none ↔ slotsOverCeiling t obs = [] := by
    intro f
    rw [List.head?_eq_none_iff, List.map_eq_nil_iff]
  show (tripOf obs t ((slotsOverCeiling t obs).map _) _).isSome = true ↔ _
  rw [hcount]
  unfold tripOf TripCondition
  by_cases hlag : obs.replicationLagBytes > t.breakerLagTripBytes
  · simp [hlag]
  · rw [if_neg hlag]
    cases hhead : ((slotsOverCeiling t obs).map fun s =>
        (s.slotName, s.retainedWalBytes)).head? with
    | some alarm =>
        have hne : slotsOverCeiling t obs ≠ [] := by
          intro hnil
          rw [(halarms _).mpr hnil] at hhead
          cases hhead
        simp [hne]
    | none =>
        have hnil := (halarms _).mp hhead
        by_cases hvolume : t.breakerRunawayTripCount ≤ (runawayAgents t obs).length
        · simp [hvolume]
        · simp [hvolume, hnil, Nat.le_of_not_lt hlag]

theorem assess_trip_eq_none_iff (obs : Observation) (t : WardenThresholds) :
    (assess obs t).trip = none ↔ ¬ TripCondition t obs := by
  rw [← assess_trip_isSome_iff, Bool.not_eq_true, Option.isSome_eq_false_iff,
    Option.isNone_iff_eq_none]

/-! ## The breaker -/

/-- Who asks for a change of the breaker's state. -/
inductive Principal where
  | warden
  | agent
  | operator
deriving DecidableEq

/-- Proof of being the warden.  It is minted in the process and never read from outside. -/
structure WardenCredential where
  mint ::
deriving DecidableEq

def WardenCredential.principal (_ : WardenCredential) : Principal := .warden

inductive BreakerState where
  | closed
  | opened (openedAtMillis : Nat)
  | halfOpen
deriving DecidableEq

structure ForgeryRejected where
  who : Principal
deriving DecidableEq

structure CircuitBreaker where
  state : BreakerState
  cooldownMillis : Nat
  lastTripReason : Option TripReason
deriving DecidableEq

namespace CircuitBreaker

def new (cooldownMillis : Nat) : CircuitBreaker := ⟨.closed, cooldownMillis, none⟩

def isOpen (b : CircuitBreaker) : Bool :=
  match b.state with
  | .opened _ => true
  | _ => false

def allowsTraffic (b : CircuitBreaker) : Bool := !b.isOpen

/-- `now` is what the clock shows if it is read, which it is unless the breaker is open
already. -/
def trip (b : CircuitBreaker) (who : WardenCredential) (reason : TripReason) (now : Nat) :
    Except ForgeryRejected CircuitBreaker :=
  if who.principal ≠ .warden then .error ⟨who.principal⟩
  else
    let b := { b with lastTripReason := some reason }
    .ok (if b.isOpen then b else { b with state := .opened now })

/-- Let the cooldown elapse.  `now` is read only if the breaker is open. -/
def tick (b : CircuitBreaker) (now : Nat) : CircuitBreaker :=
  match b.state with
  | .opened openedAtMillis =>
      if now - openedAtMillis ≥ b.cooldownMillis then { b with state := .halfOpen } else b
  | _ => b

def recordProbeSuccess (b : CircuitBreaker) (who : WardenCredential) :
    Except ForgeryRejected CircuitBreaker :=
  if who.principal ≠ .warden then .error ⟨who.principal⟩
  else .ok (if b.state = .halfOpen then { b with state := .closed, lastTripReason := none } else b)

def recordProbeFailure (b : CircuitBreaker) (who : WardenCredential) (now : Nat) :
    Except ForgeryRejected CircuitBreaker :=
  if who.principal ≠ .warden then .error ⟨who.principal⟩
  else .ok (if b.state = .halfOpen then { b with state := .opened now } else b)

theorem isOpen_iff (b : CircuitBreaker) :
    b.isOpen = true ↔ ∃ openedAt, b.state = .opened openedAt := by
  unfold isOpen
  cases b.state <;> simp

theorem isOpen_of_state {b : CircuitBreaker} {openedAt : Nat} (h : b.state = .opened openedAt) :
    b.isOpen = true :=
  b.isOpen_iff.mpr ⟨openedAt, h⟩

theorem tick_of_not_open {b : CircuitBreaker} (h : b.isOpen = false) (now : Nat) :
    b.tick now = b := by
  unfold isOpen at h
  unfold tick
  cases hstate : b.state with
  | opened openedAt => simp [hstate] at h
  | closed => rfl
  | halfOpen => rfl

theorem tick_within {b : CircuitBreaker} {openedAt now : Nat} (h : b.state = .opened openedAt)
    (hnow : now - openedAt < b.cooldownMillis) : b.tick now = b := by
  unfold tick
  rw [h]
  exact if_neg (Nat.not_le_of_lt hnow)

theorem tick_past {b : CircuitBreaker} {openedAt now : Nat} (h : b.state = .opened openedAt)
    (hnow : b.cooldownMillis ≤ now - openedAt) : b.tick now = { b with state := .halfOpen } := by
  unfold tick
  rw [h]
  exact if_pos hnow

/-- The cooldown check only ever changes the state, and only to half-open. -/
theorem tick_cases (b : CircuitBreaker) (now : Nat) :
    b.tick now = b ∨ ((∃ openedAt, b.state = .opened openedAt ∧
      b.cooldownMillis ≤ now - openedAt) ∧ b.tick now = { b with state := .halfOpen }) := by
  by_cases hopen : b.isOpen = true
  · obtain ⟨openedAt, hstate⟩ := b.isOpen_iff.mp hopen
    by_cases hnow : b.cooldownMillis ≤ now - openedAt
    · exact .inr ⟨⟨openedAt, hstate, hnow⟩, tick_past hstate hnow⟩
    · exact .inl (tick_within hstate (Nat.lt_of_not_le hnow))
  · exact .inl (tick_of_not_open (Bool.eq_false_iff.mpr hopen) now)

theorem tick_cooldownMillis (b : CircuitBreaker) (now : Nat) :
    (b.tick now).cooldownMillis = b.cooldownMillis := by
  rcases b.tick_cases now with h | ⟨-, h⟩ <;> rw [h]

theorem trip_isOk (b : CircuitBreaker) (who : WardenCredential) (reason : TripReason) (now : Nat) :
    (b.trip who reason now).isOk = true := rfl

end CircuitBreaker

/-! ## The loop -/

class ActivitySource (σ : Type) where
  observe : σ → Observation × σ

class Killer (κ : Type) where
  terminate : Int → κ → κ

/-- What a tick reports. -/
structure TickOutcome where
  terminatedPids : List Int
  sparedNonAgentPids : List Int
  slotAlarms : List (String × Nat)
  breakerOpen : Bool
deriving DecidableEq

structure WardenLoop (σ κ : Type) where
  source : σ
  killer : κ
  thresholds : WardenThresholds
  breaker : CircuitBreaker
  credential : WardenCredential

/-- What the clock shows in one tick: where the cooldown is checked, and where the breaker
is tripped. -/
structure Reads where
  enter : Nat
  decide : Nat
deriving DecidableEq

/-- `Result::expect`, on a result that is known to be `Ok`. -/
def expect {ε α : Type} : (r : Except ε α) → r.isOk = true → α
  | .ok a, _ => a

/-- The authenticated trip of a tick, if the assessment has a reason for one. -/
def tripFor (b : CircuitBreaker) (who : WardenCredential) (now : Nat) :
    Option TripReason → CircuitBreaker
  | some reason => expect (b.trip who reason now) (b.trip_isOk who reason now)
  | none => b

namespace WardenLoop

variable {σ κ : Type}

def new (source : σ) (killer : κ) (thresholds : WardenThresholds) : WardenLoop σ κ :=
  ⟨source, killer, thresholds, .new thresholds.breakerCooldownMillis, .mint⟩

def tick [ActivitySource σ] [Killer κ] (lp : WardenLoop σ κ) (clock : Reads) :
    TickOutcome × WardenLoop σ κ :=
  let cooled := lp.breaker.tick clock.enter
  let seen := ActivitySource.observe lp.source
  let a := assess seen.1 lp.thresholds
  let killer := a.toTerminate.foldl (fun k pid => Killer.terminate pid k) lp.killer
  let breaker := tripFor cooled lp.credential clock.decide a.trip
  ({ terminatedPids := a.toTerminate
     sparedNonAgentPids := a.sparedNonAgent
     slotAlarms := a.slotAlarms
     breakerOpen := !breaker.allowsTraffic },
    { lp with source := seen.2, killer := killer, breaker := breaker })

end WardenLoop

/-! ## Runs of the loop -/

/-- A killer that writes down the pids it was asked to terminate. -/
structure RecordingKiller where
  killed : List Int
deriving DecidableEq

instance : Killer RecordingKiller where
  terminate pid k := ⟨k.killed ++ [pid]⟩

/-- A source that plays a list of observations, and then sees nothing. -/
structure ScriptedSource where
  ticks : List Observation

instance : ActivitySource ScriptedSource where
  observe s := (s.ticks.headD .default, ⟨s.ticks.tail⟩)

/-- One tick of a run. -/
structure TickRecord where
  clock : Reads
  obs : Observation
  before : CircuitBreaker
  after : CircuitBreaker
  outcome : TickOutcome
  /-- The pids handed to the killer. -/
  killed : List Int

/-- The breaker after the cooldown check of the tick. -/
def TickRecord.cooled (r : TickRecord) : CircuitBreaker := r.before.tick r.clock.enter

/-- The breaker opens in this tick. -/
def TickRecord.Opens (r : TickRecord) : Prop := r.cooled.isOpen = false ∧ r.after.isOpen = true

instance (r : TickRecord) : Decidable r.Opens := inferInstanceAs (Decidable (_ ∧ _))

variable {σ : Type} [ActivitySource σ]

def tickStep (clock : Reads) (lp : WardenLoop σ RecordingKiller) :
    TickRecord × WardenLoop σ RecordingKiller :=
  let out := lp.tick clock
  ({ clock := clock
     obs := (ActivitySource.observe lp.source).1
     before := lp.breaker
     after := out.2.breaker
     outcome := out.1
     killed := out.2.killer.killed.drop lp.killer.killed.length }, out.2)

/-- The ticks of a fresh loop, one for each reading of the clock. -/
def ticks (source : σ) (t : WardenThresholds) (clock : List Reads) : List TickRecord :=
  (run tickStep clock (WardenLoop.new source ⟨[]⟩ t)).1

/-- The clock never goes back, within a tick and from one tick to the next. -/
def NonDecreasing (clock : List Reads) : Prop :=
  (clock.flatMap fun c => [c.enter, c.decide]).Pairwise (· ≤ ·)

instance (clock : List Reads) : Decidable (NonDecreasing clock) :=
  inferInstanceAs (Decidable (List.Pairwise _ _))

/-! ## One tick -/

/-- What a tick does to the breaker. -/
inductive TickRecord.Moves (t : WardenThresholds) (r : TickRecord) : Prop where
  | trips (met : TripCondition t r.obs) (reason : TripReason)
      (after : r.after =
        { r.cooled with
          state := if r.cooled.isOpen then r.cooled.state else .opened r.clock.decide
          lastTripReason := some reason })
  | rests (unmet : ¬ TripCondition t r.obs) (after : r.after = r.cooled)

theorem tripFor_some (b : CircuitBreaker) (who : WardenCredential) (now : Nat)
    (reason : TripReason) :
    tripFor b who now (some reason) =
      { b with
        state := if b.isOpen then b.state else .opened now
        lastTripReason := some reason } := by
  show (if b.isOpen then { b with lastTripReason := some reason } else
    { b with lastTripReason := some reason, state := .opened now } : CircuitBreaker) = _
  cases b.isOpen <;> rfl

theorem tickStep_moves (clock : Reads) (lp : WardenLoop σ RecordingKiller) :
    (tickStep clock lp).1.Moves lp.thresholds := by
  have hafter : (tickStep clock lp).1.after = tripFor (tickStep clock lp).1.cooled lp.credential
      clock.decide (assess (tickStep clock lp).1.obs lp.thresholds).trip := rfl
  cases htrip : (assess (tickStep clock lp).1.obs lp.thresholds).trip with
  | none =>
      rw [htrip] at hafter
      exact .rests ((assess_trip_eq_none_iff _ _).mp htrip) hafter
  | some reason =>
      rw [htrip, tripFor_some] at hafter
      exact .trips ((assess_trip_isSome_iff _ _).mp (by rw [htrip]; rfl)) reason hafter

theorem foldl_terminate (pids : List Int) (k : RecordingKiller) :
    (pids.foldl (fun k pid => Killer.terminate pid k) k).killed = k.killed ++ pids := by
  induction pids generalizing k with
  | nil => simp
  | cons pid pids ih =>
      rw [List.foldl_cons, ih]
      show (k.killed ++ [pid]) ++ pids = k.killed ++ pid :: pids
      simp

theorem tickStep_killed (clock : Reads) (lp : WardenLoop σ RecordingKiller) :
    (tickStep clock lp).1.killed =
      (runawayAgents lp.thresholds (tickStep clock lp).1.obs).map Backend.pid := by
  show List.drop _ (List.foldl (fun k pid => Killer.terminate pid k) lp.killer
    (assess (tickStep clock lp).1.obs lp.thresholds).toTerminate).killed = _
  rw [foldl_terminate, List.drop_left, assess_toTerminate]

namespace TickRecord

variable {t : WardenThresholds} {r : TickRecord}

/-- A breaker that is open after the cooldown check keeps the instant it opened at,
whether the tick trips it again or not. -/
theorem Moves.state_of_open (h : r.Moves t) (hopen : r.cooled.isOpen = true) :
    r.after.state = r.cooled.state := by
  cases h with
  | trips _ reason after => rw [after]; exact if_pos hopen
  | rests _ after => rw [after]

/-- A breaker that is not open after the cooldown check opens exactly if a threshold is
passed. -/
theorem Moves.state_of_not_open (h : r.Moves t) (hopen : r.cooled.isOpen = false) :
    r.after.state =
      if TripCondition t r.obs then .opened r.clock.decide else r.cooled.state := by
  cases h with
  | trips met reason after =>
      rw [after, if_pos met]
      exact if_neg (by rw [hopen]; decide)
  | rests unmet after => rw [after, if_neg unmet]

theorem Moves.isOpen_of_met (h : r.Moves t) (hmet : TripCondition t r.obs) :
    r.after.isOpen = true := by
  cases hcooled : r.cooled.isOpen with
  | true =>
      obtain ⟨openedAt, hstate⟩ := r.cooled.isOpen_iff.mp hcooled
      exact CircuitBreaker.isOpen_of_state ((h.state_of_open hcooled).trans hstate)
  | false =>
      exact CircuitBreaker.isOpen_of_state ((h.state_of_not_open hcooled).trans (if_pos hmet))

theorem Moves.state_of_opens (h : r.Moves t) (hopens : r.Opens) :
    r.after.state = .opened r.clock.decide := by
  rw [h.state_of_not_open hopens.1]
  refine if_pos ?_
  by_contra hunmet
  have hstays := h.state_of_not_open hopens.1
  rw [if_neg hunmet] at hstays
  obtain ⟨openedAt, hstate⟩ := r.after.isOpen_iff.mp hopens.2
  have hcooled := CircuitBreaker.isOpen_of_state (hstays.symm.trans hstate)
  rw [hopens.1] at hcooled
  cases hcooled

theorem Moves.cooldownMillis (h : r.Moves t) :
    r.after.cooldownMillis = r.before.cooldownMillis := by
  have hcooled : r.cooled.cooldownMillis = r.before.cooldownMillis :=
    r.before.tick_cooldownMillis r.clock.enter
  cases h with
  | trips _ reason after => rw [after]; exact hcooled
  | rests _ after => rw [after]; exact hcooled

end TickRecord

/-! ## Whole runs -/

theorem run_clock (clock : List Reads) (lp : WardenLoop σ RecordingKiller) :
    (run tickStep clock lp).1.map TickRecord.clock = clock := by
  induction clock generalizing lp with
  | nil => rfl
  | cons c clock ih => exact congrArg (c :: ·) (ih (tickStep c lp).2)

theorem NonDecreasing.pairwise {clock : List Reads} (h : NonDecreasing clock) :
    clock.Pairwise fun c c' => c.enter ≤ c'.enter ∧ c.decide ≤ c'.enter := by
  induction clock with
  | nil => exact List.Pairwise.nil
  | cons c clock ih =>
      have hsplit : (([c.enter, c.decide] : List Nat) ++
          clock.flatMap fun c => [c.enter, c.decide]).Pairwise (· ≤ ·) := h
      obtain ⟨-, hrest, hcross⟩ := List.pairwise_append.mp hsplit
      refine List.Pairwise.cons ?_ (ih hrest)
      intro c' hc'
      have hmem : c'.enter ∈ clock.flatMap fun c => [c.enter, c.decide] :=
        List.mem_flatMap.mpr ⟨c', hc', by simp⟩
      exact ⟨hcross c.enter (by simp) c'.enter hmem, hcross c.decide (by simp) c'.enter hmem⟩

/-- Every tick is after the earlier ones. -/
def Later (before : List TickRecord) (r : TickRecord) : Prop :=
  ∀ r' ∈ before, r'.clock.enter ≤ r.clock.enter ∧ r'.clock.decide ≤ r.clock.enter

theorem everyStep_later (source : σ) (t : WardenThresholds) {clock : List Reads}
    (h : NonDecreasing clock) : EveryStep Later (ticks source t clock) := by
  refine everyStep_iff_pairwise.mpr ?_
  have hmap : ((ticks source t clock).map TickRecord.clock).Pairwise
      fun c c' => c.enter ≤ c'.enter ∧ c.decide ≤ c'.enter := by
    rw [ticks, run_clock]
    exact h.pairwise
  exact List.pairwise_map.mp hmap

/-- The last opening of a history, with the ticks since then all inside its window. -/
def OpenedBy (t : WardenThresholds) (history : List TickRecord) (o : TickRecord) : Prop :=
  ∃ earlier since, history = earlier ++ o :: since ∧ o.Opens ∧
    ∀ r ∈ since, r.clock.enter < o.clock.decide + t.breakerCooldownMillis

/-- The loop runs with its thresholds, and inside the window of an opening the breaker is
open at that instant. -/
structure Kept (t : WardenThresholds) (history : List TickRecord)
    (lp : WardenLoop σ RecordingKiller) : Prop where
  thresholds : lp.thresholds = t
  cooldown : lp.breaker.cooldownMillis = t.breakerCooldownMillis
  window : ∀ o, OpenedBy t history o → lp.breaker.state = .opened o.clock.decide

omit [ActivitySource σ] in
theorem kept_new (source : σ) (t : WardenThresholds) :
    Kept t [] (WardenLoop.new source ⟨[]⟩ t) where
  thresholds := rfl
  cooldown := rfl
  window := by
    rintro o ⟨earlier, since, hnil, -⟩
    simp at hnil

theorem tickStep_kept {t : WardenThresholds} {history : List TickRecord} {clock : Reads}
    {lp : WardenLoop σ RecordingKiller}
    (hlater : Later history (tickStep clock lp).1) (h : Kept t history lp) :
    Kept t (history ++ [(tickStep clock lp).1]) (tickStep clock lp).2 := by
  have hmoves := tickStep_moves clock lp
  refine ⟨h.thresholds, hmoves.cooldownMillis.trans h.cooldown, ?_⟩
  rintro o ⟨earlier, since, hsplit, hopens, hsince⟩
  rcases List.eq_nil_or_concat since with rfl | ⟨between, last, rfl⟩
  · -- The breaker opened in this very tick.
    obtain ⟨-, hlast⟩ := List.append_inj' hsplit rfl
    cases hlast
    exact hmoves.state_of_opens hopens
  · -- It opened earlier, and this tick is still inside the window.
    have hsplit' : history ++ [(tickStep clock lp).1] = (earlier ++ o :: between) ++ [last] := by
      simpa using hsplit
    obtain ⟨hhistory, hlast⟩ := List.append_inj' hsplit' rfl
    cases hlast
    have hstate : lp.breaker.state = .opened o.clock.decide :=
      h.window o ⟨earlier, between, hhistory, hopens, fun r hr => hsince r (by simp [hr])⟩
    have hinside : clock.enter < o.clock.decide + t.breakerCooldownMillis :=
      hsince (tickStep clock lp).1 (by simp)
    have hafter : o.clock.decide ≤ clock.enter := (hlater o (by rw [hhistory]; simp)).2
    have hcooled : (tickStep clock lp).1.cooled = lp.breaker :=
      CircuitBreaker.tick_within hstate
        (show clock.enter - o.clock.decide < lp.breaker.cooldownMillis by rw [h.cooldown]; omega)
    have hstays := hmoves.state_of_open (by
      rw [hcooled]
      exact CircuitBreaker.isOpen_of_state hstate)
    rw [hcooled, hstate] at hstays
    exact hstays

/-- What a tick owes to the ticks before it. -/
structure TickRecord.Safe (t : WardenThresholds) (before : List TickRecord) (r : TickRecord) :
    Prop where
  /-- A passed threshold leaves the breaker open. -/
  trips : TripCondition t r.obs → r.after.isOpen = true
  /-- Less than a cooldown after an opening there is no traffic, and the breaker is still
  open since that instant. -/
  window : ∀ o ∈ before, o.Opens →
    r.clock.enter < o.clock.decide + t.breakerCooldownMillis →
    r.before.allowsTraffic = false ∧ r.after.allowsTraffic = false ∧
      r.outcome.breakerOpen = true ∧ r.after.state = .opened o.clock.decide
  /-- The first tick past the window finds it over, however often the breaker was tripped
  again. -/
  elapses : ∀ o, OpenedBy t before o → o.clock.decide + t.breakerCooldownMillis ≤ r.clock.enter →
    r.cooled.state = .halfOpen ∧
      r.after.state = if TripCondition t r.obs then .opened r.clock.decide else .halfOpen
  /-- The killer is called for the runaway agents of the observation and for nobody else. -/
  kills : r.killed = (runawayAgents t r.obs).map Backend.pid

theorem tickStep_safe {t : WardenThresholds} {history : List TickRecord} {clock : Reads}
    {lp : WardenLoop σ RecordingKiller} (hlater : Later history (tickStep clock lp).1)
    (h : Kept t history lp) : (tickStep clock lp).1.Safe t history := by
  have hkept := tickStep_kept hlater h
  have hmoves := tickStep_moves clock lp
  have hkills := tickStep_killed clock lp
  rw [h.thresholds] at hmoves hkills
  have hreported : (tickStep clock lp).1.outcome.breakerOpen = (tickStep clock lp).1.after.isOpen :=
    Bool.not_not _
  refine ⟨hmoves.isOpen_of_met, ?_, ?_, hkills⟩
  · intro o ho hopens hinside
    obtain ⟨earlier, since, rfl⟩ := List.append_of_mem ho
    -- The clock does not go back, so the ticks in between are inside the window too.
    have hsince : ∀ r ∈ since, r.clock.enter < o.clock.decide + t.breakerCooldownMillis := by
      intro r hr
      have hle := (hlater r (by simp [hr])).1
      omega
    have hbefore : (tickStep clock lp).1.before.state = .opened o.clock.decide :=
      h.window o ⟨earlier, since, rfl, hopens, hsince⟩
    have hafter : (tickStep clock lp).1.after.state = .opened o.clock.decide := by
      refine hkept.window o ⟨earlier, since ++ [(tickStep clock lp).1], by simp, hopens, ?_⟩
      intro r hr
      rcases List.mem_append.mp hr with hr | hr
      · exact hsince r hr
      · rw [List.mem_singleton.mp hr]
        exact hinside
    have hisOpen := CircuitBreaker.isOpen_of_state hafter
    refine ⟨?_, ?_, hreported.trans hisOpen, hafter⟩
    · rw [CircuitBreaker.allowsTraffic, CircuitBreaker.isOpen_of_state hbefore]
      rfl
    · rw [CircuitBreaker.allowsTraffic, hisOpen]
      rfl
  · intro o hopened helapsed
    have hcooled : (tickStep clock lp).1.cooled = { lp.breaker with state := .halfOpen } := by
      refine CircuitBreaker.tick_past (h.window o hopened) ?_
      show lp.breaker.cooldownMillis ≤ (tickStep clock lp).1.clock.enter - o.clock.decide
      rw [h.cooldown]
      omega
    have hstate : (tickStep clock lp).1.cooled.state = .halfOpen := by rw [hcooled]
    refine ⟨hstate, ?_⟩
    rw [hmoves.state_of_not_open (by rw [hcooled]; rfl), hstate]

/-- Over whole runs of a fresh loop, for every source of observations and every clock that
does not go back.  An observation has fewer than `2 ^ 32` backends (`Observation.rows_lt`),
so the count of runaway agents does not wrap. -/
theorem breaker_keeps_its_window (source : σ) (t : WardenThresholds) (clock : List Reads)
    (hclock : NonDecreasing clock) :
    EveryStep (fun before r => r.Safe t before) (ticks source t clock) :=
  (run_rule_where tickStep (Kept t) (fun _ => True) Later (fun before r => r.Safe t before)
    (fun _ _ _ _ hlater hkept => ⟨tickStep_safe hlater hkept, tickStep_kept hlater hkept⟩)
    (kept_new source t) (fun _ _ => trivial) (everyStep_later source t hclock)).2

/-- A replica that lags behind by one byte more than the default threshold. -/
def lagging : Observation := { Observation.default with replicationLagBytes := 134217729 }

/-- Three ticks inside one cooldown and one after it. -/
def fourTicks : List Reads := [⟨0, 1⟩, ⟨2000, 2001⟩, ⟨4000, 4001⟩, ⟨31000, 31000⟩]

/-- Tripped at 1 and again at 2001, the breaker is half-open at 31000. -/
theorem breaker_keeps_its_window_fourTicks :
    NonDecreasing fourTicks ∧
      (ticks (ScriptedSource.mk [lagging, lagging]) .default fourTicks).map (·.after.state) =
        [.opened 1, .opened 1, .opened 1, .halfOpen] ∧
      EveryStep (fun before r => r.Safe .default before)
        (ticks (ScriptedSource.mk [lagging, lagging]) .default fourTicks) :=
  ⟨by decide, by decide,
    breaker_keeps_its_window (ScriptedSource.mk [lagging, lagging]) .default fourTicks (by decide)⟩

/-! ## Recovery -/

/-- The stored reason is there exactly while the breaker is open or half-open. -/
def CircuitBreaker.ReasonKept (b : CircuitBreaker) : Prop :=
  b.lastTripReason.isSome = true ↔ b.isOpen = true ∨ b.state = .halfOpen

instance (b : CircuitBreaker) : Decidable b.ReasonKept := inferInstanceAs (Decidable (_ ↔ _))

/-- The tick finds the breaker half-open and sees nothing to trip it. -/
def TickRecord.HealthyProbe (t : WardenThresholds) (r : TickRecord) : Prop :=
  r.before.state = .halfOpen ∧ ¬ TripCondition t r.obs

instance (t : WardenThresholds) (r : TickRecord) : Decidable (r.HealthyProbe t) :=
  inferInstanceAs (Decidable (_ ∧ _))

/-- A healthy probe closes the breaker, the reason goes with the state, and half-open does
not last. -/
def TickRecord.Recovers (t : WardenThresholds) (r : TickRecord) : Prop :=
  (r.HealthyProbe t → r.after.state = .closed ∧ r.after.lastTripReason = none) ∧
    (r.before.ReasonKept ∧ r.after.ReasonKept) ∧
    ¬ (r.HealthyProbe t ∧ r.after.state = .halfOpen)

instance (t : WardenThresholds) (r : TickRecord) : Decidable (r.Recovers t) :=
  inferInstanceAs (Decidable ((_ → _) ∧ (_ ∧ _) ∧ ¬ _))

theorem CircuitBreaker.reasonKept_new (cooldownMillis : Nat) :
    (CircuitBreaker.new cooldownMillis).ReasonKept := by
  constructor
  · intro h
    cases h
  · rintro (h | h)
    · cases h
    · cases h

theorem CircuitBreaker.tick_reasonKept {b : CircuitBreaker} (h : b.ReasonKept) (now : Nat) :
    (b.tick now).ReasonKept := by
  rcases b.tick_cases now with htick | ⟨⟨openedAt, hstate, -⟩, htick⟩
  · rw [htick]
    exact h
  · have hreason : b.lastTripReason.isSome = true := h.mpr (.inl (isOpen_of_state hstate))
    rw [htick]
    exact ⟨fun _ => .inr rfl, fun _ => hreason⟩

namespace TickRecord

variable {t : WardenThresholds} {r : TickRecord}

theorem Moves.reasonKept (h : r.Moves t) (hbefore : r.before.ReasonKept) : r.after.ReasonKept := by
  cases h with
  | trips met reason after =>
      have hopen := Moves.isOpen_of_met (.trips met reason after) met
      refine ⟨fun _ => .inl hopen, fun _ => ?_⟩
      rw [after]
      rfl
  | rests unmet after =>
      rw [after]
      exact CircuitBreaker.tick_reasonKept hbefore r.clock.enter

/-- The loop has no call of `record_probe_success`: a healthy tick leaves a half-open
breaker as it is. -/
theorem Moves.after_of_healthyProbe (h : r.Moves t) (hprobe : r.HealthyProbe t) :
    r.after = r.before := by
  cases h with
  | trips met _ _ => exact absurd met hprobe.2
  | rests _ after =>
      rw [after]
      refine CircuitBreaker.tick_of_not_open ?_ r.clock.enter
      rw [CircuitBreaker.isOpen, hprobe.1]

/-- With that call after it, the tick would have left a fresh breaker. -/
theorem Moves.recordProbeSuccess_of_healthyProbe (h : r.Moves t) (hprobe : r.HealthyProbe t)
    (who : WardenCredential) :
    r.after.recordProbeSuccess who = .ok (.new r.before.cooldownMillis) := by
  rw [h.after_of_healthyProbe hprobe]
  unfold CircuitBreaker.recordProbeSuccess
  rw [if_neg (by rintro hwho; exact hwho rfl), if_pos hprobe.1]
  rfl

/-- A probe that fails does reach the breaker: the tick trips it, which is to its state
what `record_probe_failure` is. -/
theorem Moves.recordProbeFailure_of_met (h : r.Moves t) (hhalf : r.before.state = .halfOpen)
    (hmet : TripCondition t r.obs) (who : WardenCredential) :
    (r.before.recordProbeFailure who r.clock.decide).map CircuitBreaker.state =
      .ok r.after.state := by
  have hopen : r.before.isOpen = false := by
    rw [CircuitBreaker.isOpen, hhalf]
  have hcooled : r.cooled = r.before := CircuitBreaker.tick_of_not_open hopen r.clock.enter
  rw [h.state_of_not_open (by rw [hcooled]; exact hopen), if_pos hmet]
  unfold CircuitBreaker.recordProbeFailure
  rw [if_neg (by rintro hwho; exact hwho rfl), if_pos hhalf]
  rfl

theorem Moves.recovers_iff (h : r.Moves t) (hbefore : r.before.ReasonKept) :
    r.Recovers t ↔ ¬ r.HealthyProbe t := by
  constructor
  · rintro ⟨-, -, hlasts⟩ hprobe
    exact hlasts ⟨hprobe, by rw [h.after_of_healthyProbe hprobe]; exact hprobe.1⟩
  · intro hprobe
    exact ⟨fun hp => absurd hp hprobe, ⟨hbefore, h.reasonKept hbefore⟩, fun hp => hprobe hp.1⟩

end TickRecord

/-- A run recovers exactly if none of its ticks probes a half-open breaker and finds the
cluster healthy. -/
theorem breaker_recovers_iff (source : σ) (t : WardenThresholds) (clock : List Reads) :
    (∀ r ∈ ticks source t clock, r.Recovers t) ↔
      ∀ r ∈ ticks source t clock, ¬ r.HealthyProbe t := by
  have hsteps : EveryStep (fun _ r => r.Recovers t ↔ ¬ r.HealthyProbe t)
      (ticks source t clock) := by
    refine (run_rule tickStep (fun _ lp => lp.thresholds = t ∧ lp.breaker.ReasonKept)
      (fun _ => True) _ ?_
      ⟨rfl, CircuitBreaker.reasonKept_new _⟩ fun _ _ => trivial).2
    rintro history lp c - ⟨hthresholds, hreason⟩
    have hmoves := tickStep_moves c lp
    rw [hthresholds] at hmoves
    exact ⟨hmoves.recovers_iff hreason, hthresholds, hmoves.reasonKept hreason⟩
  have hall := everyStep_iff_forall.mp hsteps
  exact ⟨fun h r hr => (hall r hr).mp (h r hr), fun h r hr => (hall r hr).mpr (h r hr)⟩

/-- Tripped once, cooled down at 30000, and half-open at every healthy tick from then on. -/
theorem half_open_persists :
    (ticks (ScriptedSource.mk [lagging]) .default
        [⟨0, 0⟩, ⟨30000, 30000⟩, ⟨32000, 32000⟩, ⟨34000, 34000⟩]).map (·.after.state) =
      [.opened 0, .halfOpen, .halfOpen, .halfOpen] ∧
    ¬ ∀ r ∈ ticks (ScriptedSource.mk [lagging]) .default
        [⟨0, 0⟩, ⟨30000, 30000⟩, ⟨32000, 32000⟩, ⟨34000, 34000⟩], r.Recovers .default := by
  constructor
  · decide
  · decide

end PgBrakes.Ports.Warden
