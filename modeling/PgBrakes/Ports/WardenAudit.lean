import PgBrakes.Ports.Warden
import PgBrakes.Ports.AuditChain
import PgBrakes.Ports.Approval

/-!
# The records of the warden

A port of the audited tick of `crates/warden/src/run.rs`.  After a tick its outcome is
turned into audit entries, which are appended one after the other until the sink refuses
one.  The outcome says whether the breaker is open, not whether it has just opened.

## Main results

* `tickAndAudit_spec` — what one audited tick appends and returns.
* `audit_exact_iff` — over whole runs, the trips on record are the trips of the breaker
  exactly when no tick finds it open inside its cooldown.
-/

namespace PgBrakes.Ports.Warden

open PgBrakes.Verified.History
open PgBrakes.Verified.Effect
open PgBrakes.Verified.Effect.Eff
open PgBrakes.Ports.Approval (SinkError)
open PgBrakes.Ports.Audit (NewEntry IntentTiers)

/-! ## The entries of an outcome -/

def wardenAuditRole : String := "pgb_agent"

def reasonWardenTerminate : String := "WARDEN_TERMINATE"

def reasonBreakerTrip : String := "BREAKER_TRIP"

def reasonSlotAlarm : String := "SLOT_ALARM"

def wardenEntry (sessionId statementText reasonCode : String) (reason : Option String) :
    NewEntry where
  statementText := statementText
  decision := .block
  reasonCode := reasonCode
  reason := reason
  principal :=
    { role := wardenAuditRole
      sessionId := some sessionId
      principal := some "pgb_warden" }
  intent := .default
  writeSafety := ⟨none, none⟩

def terminateEntry (sessionId : String) (pid : Int) : NewEntry :=
  wardenEntry sessionId s!"pg_terminate_backend({pid})" reasonWardenTerminate
    (some s!"warden terminated agent-tagged runaway backend pid={pid}")

def slotEntry (sessionId : String) (alarm : String × Nat) : NewEntry :=
  let slotName := alarm.1
  let retained := alarm.2
  wardenEntry sessionId s!"replication slot `{slotName}` retained_wal_bytes={retained}"
    reasonSlotAlarm
    (some s!"warden slot/WAL alarm: slot `{slotName}` retaining {retained} bytes over ceiling")

def breakerEntry (sessionId : String) : NewEntry :=
  wardenEntry sessionId "circuit breaker OPEN" reasonBreakerTrip
    (some "warden authenticated circuit breaker tripped/open")

def auditEntriesFor (outcome : TickOutcome) (sessionId : String) : List NewEntry :=
  outcome.terminatedPids.map (terminateEntry sessionId) ++
    outcome.slotAlarms.map (slotEntry sessionId) ++
    if outcome.breakerOpen then [breakerEntry sessionId] else []

/-- The entries with a reason code. -/
def coded (code : String) (entries : List NewEntry) : List NewEntry :=
  entries.filter fun e => e.reasonCode == code

@[simp] theorem coded_append (code : String) (xs ys : List NewEntry) :
    coded code (xs ++ ys) = coded code xs ++ coded code ys := List.filter_append xs ys

/-- Entries that all carry one code. -/
theorem coded_map {α : Type} {f : α → NewEntry} {own : String}
    (h : ∀ a, (f a).reasonCode = own) (code : String) (as : List α) :
    coded code (as.map f) = if own = code then as.map f else [] := by
  induction as with
  | nil => simp [coded]
  | cons a as ih =>
      rw [List.map_cons, coded, List.filter_cons, ← coded, ih]
      by_cases hcode : own = code
      · simp [h, hcode]
      · simp [h, hcode]

theorem terminateEntry_code (sessionId : String) (pid : Int) :
    (terminateEntry sessionId pid).reasonCode = reasonWardenTerminate := rfl

theorem slotEntry_code (sessionId : String) (alarm : String × Nat) :
    (slotEntry sessionId alarm).reasonCode = reasonSlotAlarm := rfl

theorem coded_auditEntriesFor (outcome : TickOutcome) (sessionId code : String) :
    coded code (auditEntriesFor outcome sessionId) =
      (if reasonWardenTerminate = code then
        outcome.terminatedPids.map (terminateEntry sessionId) else []) ++
      (if reasonSlotAlarm = code then outcome.slotAlarms.map (slotEntry sessionId) else []) ++
      (if reasonBreakerTrip = code ∧ outcome.breakerOpen = true then
        [breakerEntry sessionId] else []) := by
  rw [auditEntriesFor, coded_append, coded_append, coded_map (terminateEntry_code sessionId),
    coded_map (slotEntry_code sessionId)]
  congr 1
  cases outcome.breakerOpen with
  | false => simp [coded]
  | true =>
      by_cases hcode : reasonBreakerTrip = code
      · simp [coded, breakerEntry, wardenEntry, hcode]
      · simp [coded, breakerEntry, wardenEntry, hcode]

/-! ## The audited tick -/

/-- The audit sink, over whatever it writes to. -/
structure AuditSink (ω : Type) where
  append : NewEntry → Nat → Eff ω SinkError Unit

/-- An append and its answer. -/
structure Append where
  entry : NewEntry
  timestampMs : Nat
  answer : Except SinkError Unit

variable {ω : Type}

/-- Append the entries until one is refused. -/
def appendEach (sink : AuditSink ω) (timestampMs : Nat) :
    List NewEntry → Eff (Logged ω Append) String Unit
  | [] => pure ()
  | entry :: entries => do
      mapError SinkError.message
        (perform (sink.append entry timestampMs) fun answer => ⟨entry, timestampMs, answer⟩)
      appendEach sink timestampMs entries

/-- What the clock shows in one audited tick. -/
structure AuditedReads where
  reads : Reads
  nowUnixMillis : Nat

section

variable {σ : Type} [ActivitySource σ]

/-- The loop, and the sink with the appends made to it. -/
structure Audited (σ ω : Type) where
  loop : WardenLoop σ RecordingKiller
  sink : Logged ω Append

/-- A tick with its record, its appends and its result. -/
structure AuditedTick where
  tick : TickRecord
  appends : List Append
  result : Except String TickOutcome

def tickAndAudit (sink : AuditSink ω) (sessionId : String) (clock : AuditedReads)
    (s : Audited σ ω) : AuditedTick × Audited σ ω :=
  let ticked := tickStep clock.reads s.loop
  let out := appendEach sink clock.nowUnixMillis (auditEntriesFor ticked.1.outcome sessionId) s.sink
  ({ tick := ticked.1
     appends := out.2.log.drop s.sink.log.length
     result := out.1.map fun _ => ticked.1.outcome },
    ⟨ticked.2, out.2⟩)

end

/-- The entries the sink took. -/
def AuditedTick.recorded (r : AuditedTick) : List NewEntry :=
  (r.appends.filter fun a => a.answer.isOk).map Append.entry

theorem appendEach_of_ok (sink : AuditSink ω) (timestampMs : Nat) (entries : List NewEntry)
    {s s' : Logged ω Append} (h : appendEach sink timestampMs entries s = (.ok (), s')) :
    s'.log = s.log ++ entries.map fun entry => ⟨entry, timestampMs, .ok ()⟩ := by
  induction entries generalizing s with
  | nil =>
      cases h
      simp
  | cons entry entries ih =>
      obtain ⟨u, s₁, happend, hrest⟩ := bind_ok_iff.mp h
      rw [mapError_apply] at happend
      unfold perform at happend
      rcases hanswer : sink.append entry timestampMs s.world with ⟨answer, w⟩
      rw [hanswer] at happend
      cases answer with
      | error e => cases happend
      | ok u =>
          cases happend
          rw [ih hrest]
          simp

theorem appendEach_ok (sink : AuditSink ω)
    (hsink : ∀ entry timestampMs w, (sink.append entry timestampMs w).1 = .ok ())
    (timestampMs : Nat) (entries : List NewEntry) (s : Logged ω Append) :
    (appendEach sink timestampMs entries s).1 = .ok () := by
  induction entries generalizing s with
  | nil => rfl
  | cons entry entries ih =>
      let act : Eff (Logged ω Append) String Unit := mapError SinkError.message
        (perform (sink.append entry timestampMs) fun answer => ⟨entry, timestampMs, answer⟩)
      have hact : act s = (.ok (), (act s).2) := by
        refine Prod.ext ?_ rfl
        show Except.mapError SinkError.message (sink.append entry timestampMs s.world).1 = .ok ()
        rw [hsink]
        rfl
      show ((act >>= fun _ => appendEach sink timestampMs entries) s).1 = .ok ()
      rw [bind_of_ok hact]
      exact ih (act s).2

/-! ## One audited tick -/

section

variable {σ : Type} [ActivitySource σ]

/-- The reported outcome, in the words of the specification. -/
theorem tickStep_outcome (clock : Reads) (lp : WardenLoop σ RecordingKiller) :
    (tickStep clock lp).1.outcome.terminatedPids = (tickStep clock lp).1.killed ∧
      (tickStep clock lp).1.outcome.slotAlarms =
        (slotsOverCeiling lp.thresholds (tickStep clock lp).1.obs).map
          (fun s => (s.slotName, s.retainedWalBytes)) ∧
      (tickStep clock lp).1.outcome.breakerOpen = (tickStep clock lp).1.after.isOpen := by
  refine ⟨?_, rfl, Bool.not_not _⟩
  rw [tickStep_killed]
  exact assess_toTerminate _ _

/-- A tick that returns its outcome has recorded all of it. -/
theorem tickAndAudit_recorded (sink : AuditSink ω) (sessionId : String) (clock : AuditedReads)
    (s : Audited σ ω) (hok : (tickAndAudit sink sessionId clock s).1.result.isOk = true) :
    (tickAndAudit sink sessionId clock s).1.recorded =
      auditEntriesFor (tickAndAudit sink sessionId clock s).1.tick.outcome sessionId := by
  let entries := auditEntriesFor (tickStep clock.reads s.loop).1.outcome sessionId
  rcases hout : appendEach sink clock.nowUnixMillis entries s.sink with ⟨result, s'⟩
  have hresult : (tickAndAudit sink sessionId clock s).1.result =
      result.map fun _ => (tickStep clock.reads s.loop).1.outcome :=
    congrArg (fun out => out.1.map fun _ => (tickStep clock.reads s.loop).1.outcome) hout
  have happends : (tickAndAudit sink sessionId clock s).1.appends =
      s'.log.drop s.sink.log.length :=
    congrArg (fun out => out.2.log.drop s.sink.log.length) hout
  cases result with
  | error e =>
      rw [hresult] at hok
      cases hok
  | ok u =>
      unfold AuditedTick.recorded
      rw [happends, appendEach_of_ok sink clock.nowUnixMillis entries hout, List.drop_left]
      have hall : (entries.map fun entry =>
          (⟨entry, clock.nowUnixMillis, .ok ()⟩ : Append)).filter (fun a => a.answer.isOk) =
          entries.map fun entry => ⟨entry, clock.nowUnixMillis, .ok ()⟩ := by
        refine List.filter_eq_self.mpr ?_
        intro a ha
        obtain ⟨entry, -, rfl⟩ := List.mem_map.mp ha
        rfl
      rw [hall, List.map_map]
      exact List.map_id _

end

/-! ## Whole runs -/

/-- The breaker is open when the tick starts, and its cooldown is not over. -/
def TickRecord.Cooling (r : TickRecord) : Prop :=
  ∃ openedAt, r.before.state = .opened openedAt ∧
    r.clock.enter - openedAt < r.before.cooldownMillis

theorem TickRecord.cooling_iff (r : TickRecord) : r.Cooling ↔ r.cooled.isOpen = true := by
  constructor
  · rintro ⟨openedAt, hstate, hinside⟩
    rw [TickRecord.cooled, CircuitBreaker.tick_within hstate hinside]
    exact CircuitBreaker.isOpen_of_state hstate
  · intro hopen
    rcases r.before.tick_cases r.clock.enter with htick | ⟨-, htick⟩
    · rw [TickRecord.cooled, htick] at hopen
      obtain ⟨openedAt, hstate⟩ := r.before.isOpen_iff.mp hopen
      refine ⟨openedAt, hstate, Nat.lt_of_not_le fun helapsed => ?_⟩
      -- Past the cooldown the check would have left it half-open.
      have hhalf := CircuitBreaker.tick_past hstate helapsed
      rw [htick] at hhalf
      rw [hhalf] at hstate
      cases hstate
    · rw [TickRecord.cooled, htick] at hopen
      cases hopen

namespace AuditedTick

/-- There is one record for each termination and one for each slot over its ceiling. -/
def ActionsExact (t : WardenThresholds) (sessionId : String) (r : AuditedTick) : Prop :=
  coded reasonWardenTerminate r.recorded = r.tick.killed.map (terminateEntry sessionId) ∧
    coded reasonSlotAlarm r.recorded = (slotsOverCeiling t r.tick.obs).map
      fun s => slotEntry sessionId (s.slotName, s.retainedWalBytes)

/-- Every termination of the tick is on record, or the tick reports an error. -/
def Answered (sessionId : String) (r : AuditedTick) : Prop :=
  (∃ e, r.result = .error e) ∨
    coded reasonWardenTerminate r.recorded = r.tick.killed.map (terminateEntry sessionId)

end AuditedTick

/-- The trips on record are as many as the openings of the breaker. -/
def TripsExact (history : List AuditedTick) : Prop :=
  (coded reasonBreakerTrip (history.flatMap AuditedTick.recorded)).length =
    history.countP fun r => decide r.tick.Opens

instance (history : List AuditedTick) : Decidable (TripsExact history) :=
  inferInstanceAs (Decidable (_ = _))

section

variable {σ : Type} [ActivitySource σ]

/-- The audited ticks of a fresh loop. -/
def auditedTicks (sink : AuditSink ω) (sessionId : String) (source : σ) (t : WardenThresholds)
    (clock : List AuditedReads) (w : ω) : List AuditedTick :=
  (run (tickAndAudit sink sessionId) clock ⟨WardenLoop.new source ⟨[]⟩ t, ⟨w, []⟩⟩).1

theorem tickAndAudit_actions (sink : AuditSink ω) (sessionId : String) (clock : AuditedReads)
    (s : Audited σ ω) (hok : (tickAndAudit sink sessionId clock s).1.result.isOk = true) :
    (tickAndAudit sink sessionId clock s).1.ActionsExact s.loop.thresholds sessionId := by
  obtain ⟨hkilled, halarms, -⟩ := tickStep_outcome clock.reads s.loop
  constructor
  · rw [tickAndAudit_recorded sink sessionId clock s hok, coded_auditEntriesFor, if_pos rfl,
      if_neg (by decide), if_neg (by rintro ⟨hcode, -⟩; exact absurd hcode (by decide)),
      List.append_nil, List.append_nil]
    exact congrArg _ hkilled
  · rw [tickAndAudit_recorded sink sessionId clock s hok, coded_auditEntriesFor,
      if_neg (by decide), if_pos rfl,
      if_neg (by rintro ⟨hcode, -⟩; exact absurd hcode (by decide)),
      List.nil_append, List.append_nil]
    refine (congrArg _ halarms).trans ?_
    exact List.map_map

theorem tickAndAudit_trips (sink : AuditSink ω) (sessionId : String) (clock : AuditedReads)
    (s : Audited σ ω) (hok : (tickAndAudit sink sessionId clock s).1.result.isOk = true) :
    (coded reasonBreakerTrip (tickAndAudit sink sessionId clock s).1.recorded).length =
      if (tickAndAudit sink sessionId clock s).1.tick.after.isOpen then 1 else 0 := by
  obtain ⟨-, -, hopen⟩ := tickStep_outcome clock.reads s.loop
  have hreported : (tickAndAudit sink sessionId clock s).1.tick.outcome.breakerOpen =
      (tickAndAudit sink sessionId clock s).1.tick.after.isOpen := hopen
  rw [tickAndAudit_recorded sink sessionId clock s hok, coded_auditEntriesFor,
    if_neg (by decide), if_neg (by decide), hreported]
  cases (tickAndAudit sink sessionId clock s).1.tick.after.isOpen <;> rfl

theorem tickAndAudit_answered (sink : AuditSink ω) (sessionId : String) (clock : AuditedReads)
    (s : Audited σ ω) : (tickAndAudit sink sessionId clock s).1.Answered sessionId := by
  cases hresult : (tickAndAudit sink sessionId clock s).1.result with
  | error e => exact .inl ⟨e, hresult⟩
  | ok outcome =>
      exact .inr (tickAndAudit_actions sink sessionId clock s (by rw [hresult]; rfl)).1

end

/-- What a run with a sink that never fails has on record for one tick. -/
structure AuditedTick.OnRecord (t : WardenThresholds) (sessionId : String) (r : AuditedTick) :
    Prop where
  moves : r.tick.Moves t
  actions : r.ActionsExact t sessionId
  trips : (coded reasonBreakerTrip r.recorded).length = if r.tick.after.isOpen then 1 else 0

/-- An opening has its record; a tick inside the cooldown has one without an opening. -/
theorem AuditedTick.OnRecord.trips_eq {t : WardenThresholds} {sessionId : String} {r : AuditedTick}
    (h : r.OnRecord t sessionId) :
    (r.tick.Cooling ∧ ¬ r.tick.Opens ∧ (coded reasonBreakerTrip r.recorded).length = 1) ∨
      (¬ r.tick.Cooling ∧ (coded reasonBreakerTrip r.recorded).length =
        if r.tick.Opens then 1 else 0) := by
  rw [TickRecord.cooling_iff, h.trips]
  cases hcooled : r.tick.cooled.isOpen with
  | true =>
      obtain ⟨openedAt, hstate⟩ := r.tick.cooled.isOpen_iff.mp hcooled
      have hafter : r.tick.after.isOpen = true :=
        CircuitBreaker.isOpen_of_state ((h.moves.state_of_open hcooled).trans hstate)
      refine .inl ⟨rfl, fun hopens => ?_, by rw [hafter]; rfl⟩
      rw [hopens.1] at hcooled
      cases hcooled
  | false =>
      refine .inr ⟨Bool.false_ne_true, ?_⟩
      by_cases hafter : r.tick.after.isOpen = true
      · rw [if_pos hafter, if_pos ⟨hcooled, hafter⟩]
      · rw [if_neg hafter, if_neg fun hopens => hafter hopens.2]

theorem tripsExact_iff {t : WardenThresholds} {sessionId : String} {history : List AuditedTick}
    (h : ∀ r ∈ history, r.OnRecord t sessionId) :
    TripsExact history ↔ ∀ r ∈ history, ¬ r.tick.Cooling := by
  -- Every opening is on record, so a surplus in one tick is never made up for in another.
  suffices hcount : (history.countP fun r => decide r.tick.Opens) ≤
      (coded reasonBreakerTrip (history.flatMap AuditedTick.recorded)).length ∧
      (TripsExact history ↔ ∀ r ∈ history, ¬ r.tick.Cooling) from hcount.2
  unfold TripsExact
  induction history with
  | nil => simp [coded]
  | cons r history ih =>
      obtain ⟨hle, hiff⟩ := ih fun r' hr' => h r' (by simp [hr'])
      rw [List.flatMap_cons, coded_append, List.length_append, List.countP_cons,
        List.forall_mem_cons, ← hiff]
      rcases (h r (by simp)).trips_eq with ⟨hcooling, hopens, hone⟩ | ⟨hcooling, hrecorded⟩
      · rw [hone, if_neg (by simpa using hopens)]
        exact ⟨by omega, by omega, fun hboth => absurd hcooling hboth.1⟩
      · rw [hrecorded]
        simp only [decide_eq_true_eq]
        exact ⟨by omega, fun heq => ⟨hcooling, by omega⟩, fun hboth => by omega⟩

section

variable {σ : Type} [ActivitySource σ]

/-- With a sink that never fails the records are exact exactly if no tick finds the breaker
open inside its cooldown; with any sink, no termination goes unanswered. -/
theorem audit_exact_iff (sink : AuditSink ω) (sessionId : String) (source : σ)
    (t : WardenThresholds) (clock : List AuditedReads) (w : ω) :
    ((∀ entry timestampMs w, (sink.append entry timestampMs w).1 = .ok ()) →
      ((TripsExact (auditedTicks sink sessionId source t clock w) ∧
          ∀ r ∈ auditedTicks sink sessionId source t clock w, r.ActionsExact t sessionId) ↔
        ∀ r ∈ auditedTicks sink sessionId source t clock w, ¬ r.tick.Cooling)) ∧
      ∀ r ∈ auditedTicks sink sessionId source t clock w, r.Answered sessionId := by
  constructor
  · intro hsink
    have hsteps : EveryStep (fun _ r => r.OnRecord t sessionId)
        (auditedTicks sink sessionId source t clock w) := by
      refine (run_rule (tickAndAudit sink sessionId) (fun _ s => s.loop.thresholds = t)
        (fun _ => True) _ ?_ rfl fun _ _ => trivial).2
      rintro history s c - hthresholds
      have hok : (tickAndAudit sink sessionId c s).1.result.isOk = true := by
        show ((appendEach sink c.nowUnixMillis _ s.sink).1.map _).isOk = true
        rw [appendEach_ok sink hsink]
        rfl
      have hmoves := tickStep_moves c.reads s.loop
      have hactions := tickAndAudit_actions sink sessionId c s hok
      rw [hthresholds] at hmoves hactions
      exact ⟨⟨hmoves, hactions, tickAndAudit_trips sink sessionId c s hok⟩, hthresholds⟩
    have hall := everyStep_iff_forall.mp hsteps
    rw [tripsExact_iff hall]
    exact ⟨fun h => h.1, fun h => ⟨h, fun r hr => (hall r hr).actions⟩⟩
  · have hsteps : EveryStep (fun _ r => r.Answered sessionId)
        (auditedTicks sink sessionId source t clock w) :=
      (run_rule (tickAndAudit sink sessionId) (fun _ _ => True) (fun _ => True) _
        (fun _ s c _ _ => ⟨tickAndAudit_answered sink sessionId c s, trivial⟩) trivial
        fun _ _ => trivial).2
    exact everyStep_iff_forall.mp hsteps

end

/-- A sink that takes everything. -/
def openSink : AuditSink Unit := ⟨fun _ _ => pure ()⟩

/-- Three ticks inside one cooldown, the first of which trips the breaker. -/
def threeTicks : List AuditedTick :=
  auditedTicks openSink "warden-1" (ScriptedSource.mk [lagging]) .default
    [⟨⟨0, 0⟩, 0⟩, ⟨⟨2000, 2000⟩, 2000⟩, ⟨⟨4000, 4000⟩, 4000⟩] ()

/-- The one trip is on record three times. -/
theorem trip_recorded_at_every_tick :
    (threeTicks.countP fun r => decide r.tick.Opens) = 1 ∧
      (coded reasonBreakerTrip (threeTicks.flatMap AuditedTick.recorded)).length = 3 ∧
      ¬ TripsExact threeTicks := by
  decide

/-- An agent's query that has run for a minute and a half, and a slot that holds back one byte
more than the default ceiling. -/
def burdened : Observation where
  backends := [⟨4211, agentRole, "psql", "active", 90000, "SELECT count(*) FROM ledger"⟩]
  slots := [⟨"replica_1", "physical", false, 67108865⟩]
  replicationLagBytes := 0
  rows_lt := by decide

/-- Two ticks a cooldown apart, each of which trips the breaker. -/
def apart : List AuditedReads := [⟨⟨0, 0⟩, 0⟩, ⟨⟨30000, 30000⟩, 30000⟩]

theorem audit_exact_iff_apart :
    (∀ entry timestampMs w, (openSink.append entry timestampMs w).1 = .ok ()) ∧
      ((auditedTicks openSink "warden-1" (ScriptedSource.mk [burdened, lagging]) .default apart
          ()).map fun r => (r.tick.killed, r.recorded.map (·.reasonCode))) =
        [([4211], [reasonWardenTerminate, reasonSlotAlarm, reasonBreakerTrip]),
          ([], [reasonBreakerTrip])] ∧
      TripsExact (auditedTicks openSink "warden-1" (ScriptedSource.mk [burdened, lagging])
        .default apart ()) ∧
      ∀ r ∈ auditedTicks openSink "warden-1" (ScriptedSource.mk [burdened, lagging]) .default
        apart (), r.ActionsExact .default "warden-1" := by
  have hsink : ∀ entry timestampMs w, (openSink.append entry timestampMs w).1 = .ok () :=
    fun _ _ _ => rfl
  have hexact := (audit_exact_iff openSink "warden-1" (ScriptedSource.mk [burdened, lagging])
    .default apart ()).1 hsink
  refine ⟨hsink, by decide, hexact.mpr ?_⟩
  intro r hr
  rw [TickRecord.cooling_iff]
  revert r
  decide

end PgBrakes.Ports.Warden
