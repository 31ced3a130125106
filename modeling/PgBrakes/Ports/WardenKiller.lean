import PgBrakes.Ports.Warden
import Mathlib.Data.List.Nodup

/-!
# The warden against a live server

A port of `PgActivitySource::observe` and `PgKiller::terminate` of
`crates/warden/src/run.rs`, over a server on which backends start, exit and run queries
while the warden works.  An observation is one statement of the server and so a snapshot.
The terminations it leads to are statements of another connection, one for each pid, and
the server may take any number of steps before each of them.

## Main results

* `round_kills` — on a server that stands still, one round of the system hands the killer
  the pids that `WardenLoop::tick` hands it.
* `step_targets` — what a step of the system leaves true of the pids still to terminate.
* `kills_only_runaways` — as long as the server leaves those backends alone, every backend
  that is killed is a runaway agent at that moment.
* `shared_session_killed` — otherwise a pid may belong to somebody else by then.
-/

namespace PgBrakes.Ports.Warden

open PgBrakes.Verified.History

/-! ## The server -/

def wardenAdminAppName : String := "pgb_warden_admin"

/-- A backend of the server, as `pg_stat_activity` shows it.  `none` is a null. -/
structure Session where
  pid : Int
  usename : Option String
  applicationName : Option String
  clientBackend : Bool
  state : Option String
  /-- The server's clock, in microseconds, when the query started. -/
  queryStart : Option Nat
  query : Option String
deriving DecidableEq

/-- The server.  A pid is one backend's at a time, and there are fewer backends than pids. -/
structure Server where
  sessions : List Session
  slots : List ReplicationSlot
  clock : Nat
  distinct : (sessions.map Session.pid).Nodup
  few : sessions.length < UInt32.size

/-- What happens on the server by itself. -/
inductive Event where
  | start (session : Session)
  | exit (pid : Int)
  | query (pid : Int) (text : String)
  | finish (pid : Int) (state : String)
  | setApplicationName (pid : Int) (name : String)
  | setSlots (slots : List ReplicationSlot)
  | advance (micros : Nat)

namespace Server

/-- Change the backend with a pid. -/
def update (s : Server) (pid : Int) (f : Session → Session) (hf : ∀ b, (f b).pid = b.pid) :
    Server where
  sessions := s.sessions.map fun b => if b.pid = pid then f b else b
  slots := s.slots
  clock := s.clock
  distinct := by
    have hpids : (s.sessions.map fun b => if b.pid = pid then f b else b).map Session.pid =
        s.sessions.map Session.pid := by
      rw [List.map_map]
      refine List.map_congr_left fun b _ => ?_
      show (if b.pid = pid then f b else b).pid = b.pid
      split
      · exact hf b
      · rfl
    rw [hpids]
    exact s.distinct
  few := by
    rw [List.length_map]
    exact s.few

/-- Remove the backend with a pid. -/
def remove (s : Server) (pid : Int) : Server where
  sessions := s.sessions.filter fun b => decide (b.pid ≠ pid)
  slots := s.slots
  clock := s.clock
  distinct := s.distinct.sublist (List.filter_sublist.map Session.pid)
  few := Nat.lt_of_le_of_lt List.filter_sublist.length_le s.few

def next (s : Server) : Event → Server
  | .start session =>
      if h : session.pid ∉ s.sessions.map Session.pid ∧ s.sessions.length + 1 < UInt32.size then
        { s with
          sessions := session :: s.sessions
          distinct := List.nodup_cons.mpr ⟨h.1, s.distinct⟩
          few := h.2 }
      else s
  | .exit pid => s.remove pid
  | .query pid text =>
      s.update pid
        (fun b => { b with state := some "active", queryStart := some s.clock, query := some text })
        fun _ => rfl
  | .finish pid state => s.update pid (fun b => { b with state := some state }) fun _ => rfl
  | .setApplicationName pid name =>
      s.update pid (fun b => { b with applicationName := some name }) fun _ => rfl
  | .setSlots slots => { s with slots := slots }
  | .advance micros => { s with clock := s.clock + micros }

end Server

/-! ## The two statements of the warden -/

/-- The rows of `pg_stat_activity` that the warden asks for. -/
def Session.visible (observerPid : Int) (b : Session) : Bool :=
  decide (b.pid ≠ observerPid ∧ b.clientBackend = true) &&
    match b.applicationName with
    | some name => decide (name ≠ wardenAdminAppName)
    | none => false

/-- `(extract(epoch FROM (now() - query_start)) * 1000)::bigint`, which rounds, and 0 for
a null or a negative difference. -/
def Server.runtimeMillis (s : Server) (b : Session) : Nat :=
  match b.queryStart with
  | some start => (s.clock - start + 500) / 1000
  | none => 0

def Server.row (s : Server) (b : Session) : Backend where
  pid := b.pid
  usename := b.usename.getD ""
  applicationName := b.applicationName.getD ""
  state := b.state.getD ""
  queryRuntimeMillis := s.runtimeMillis b
  query := b.query.getD ""

/-- `PgActivitySource::observe`, on a connection whose queries are answered. -/
def Server.observe (s : Server) (observerPid : Int) : Observation where
  backends := (s.sessions.filter (Session.visible observerPid)).map s.row
  slots := s.slots
  replicationLagBytes := 0
  rows_lt := by
    rw [List.length_map]
    exact Nat.lt_of_le_of_lt List.filter_sublist.length_le s.few

/-- The backends that `pg_terminate_backend` reaches. -/
def Server.reached (s : Server) (pid : Int) : List Session :=
  s.sessions.filter fun b => decide (b.pid = pid)

/-! ## The warden among the backends -/

/-- The server and the warden in the middle of a tick: the pids it has decided to terminate
and not terminated yet. -/
structure System where
  server : Server
  pending : List Int

/-- One step of the system.  A query of the warden may fail, which it takes for an empty
answer. -/
inductive Action where
  | event (e : Event)
  | observe (answered : Bool)
  | terminate (answered : Bool)

structure StepRecord where
  action : Action
  before : System
  /-- The pid given to `PgKiller::terminate`. -/
  called : Option Int
  /-- The backends that were killed. -/
  killed : List Session

/-- `WardenLoop::tick` up to its terminations, with everything else the server does. -/
def systemStep (t : WardenThresholds) (observerPid : Int) (action : Action) (s : System) :
    StepRecord × System :=
  match action with
  | .event e => (⟨action, s, none, []⟩, { s with server := s.server.next e })
  | .observe answered =>
      match s.pending with
      | [] =>
          let obs := if answered then s.server.observe observerPid else .default
          (⟨action, s, none, []⟩, { s with pending := (assess obs t).toTerminate })
      -- The loop over the pids of the last observation is not done.
      | _ :: _ => (⟨action, s, none, []⟩, s)
  | .terminate answered =>
      match s.pending with
      | [] => (⟨action, s, none, []⟩, s)
      | pid :: rest =>
          if answered then
            (⟨action, s, some pid, s.server.reached pid⟩, ⟨s.server.remove pid, rest⟩)
          else (⟨action, s, some pid, []⟩, { s with pending := rest })

/-- The backend is an agent's and has been in a query for longer than the ceiling. -/
def Server.Overruns (s : Server) (t : WardenThresholds) (b : Session) : Prop :=
  (b.usename = some agentRole ∨ b.applicationName = some proxyAppName) ∧
    b.state = some "active" ∧
    ∃ start ∈ b.queryStart, t.maxQueryRuntimeMillis * 1000 < s.clock - start

instance (s : Server) (t : WardenThresholds) (b : Session) : Decidable (s.Overruns t b) :=
  inferInstanceAs (Decidable (_ ∧ _ ∧ ∃ start ∈ b.queryStart, _))

/-! ## One step -/

/-- A row that the assessment takes for a runaway is one: the ceiling is in whole
milliseconds, and the rounding of the runtime cannot lift it over. -/
theorem overruns_of_row {s : Server} {t : WardenThresholds} {b : Session}
    (h : RunawayAgent t (s.row b)) : s.Overruns t b := by
  obtain ⟨hactive, hruntime, htag⟩ := h
  have hsome : ∀ {o : Option String} {v : String}, v ≠ "" → o.getD "" = v → o = some v := by
    rintro (_ | u) v hv h
    · exact absurd h.symm hv
    · exact congrArg some h
  refine ⟨htag.imp (hsome (by decide)) (hsome (by decide)), hsome (by decide) hactive, ?_⟩
  have hmillis : t.maxQueryRuntimeMillis < s.runtimeMillis b := hruntime
  unfold Server.runtimeMillis at hmillis
  cases hstart : b.queryStart with
  | none =>
      rw [hstart] at hmillis
      exact absurd hmillis (Nat.not_lt_zero _)
  | some start =>
      rw [hstart] at hmillis
      have hrounded : t.maxQueryRuntimeMillis < (s.clock - start + 500) / 1000 := hmillis
      exact ⟨start, rfl, by omega⟩

/-- The backends the warden is about to terminate are runaway agents, if they are there. -/
def System.Targets (t : WardenThresholds) (s : System) : Prop :=
  ∀ b ∈ s.server.sessions, b.pid ∈ s.pending → s.server.Overruns t b

theorem observe_targets (t : WardenThresholds) (observerPid : Int) (server : Server) :
    System.Targets t ⟨server, (assess (server.observe observerPid) t).toTerminate⟩ := by
  intro b hb hpending
  have hpids : b.pid ∈ (assess (server.observe observerPid) t).toTerminate := hpending
  rw [assess_toTerminate] at hpids
  obtain ⟨row, hrow, hpid⟩ := List.mem_map.mp hpids
  obtain ⟨hmem, hrunaway⟩ := List.mem_filter.mp hrow
  obtain ⟨b', hb', rfl⟩ := List.mem_map.mp hmem
  -- A pid is one backend's at a time.
  have hsame : b' = b :=
    List.inj_on_of_nodup_map server.distinct (List.mem_filter.mp hb').1 hb hpid
  subst hsame
  exact overruns_of_row (of_decide_eq_true hrunaway)

/-- The event leaves the backends alone that the warden is about to terminate: none of
their pids is given to a new backend, and none of them ends its query, starts another or
drops its tag. -/
def Event.Spares (s : System) : Event → Prop
  | .start session => session.pid ∉ s.pending
  | .query pid _ => pid ∉ s.pending
  | .finish pid _ => pid ∉ s.pending
  | .setApplicationName pid name =>
      pid ∈ s.pending → name = proxyAppName ∨
        ∀ b ∈ s.server.sessions, b.pid = pid → b.usename = some agentRole
  | .exit _ => True
  | .setSlots _ => True
  | .advance _ => True

instance (s : System) : (e : Event) → Decidable (e.Spares s)
  | .start _ => inferInstanceAs (Decidable (_ ∉ _))
  | .query _ _ => inferInstanceAs (Decidable (_ ∉ _))
  | .finish _ _ => inferInstanceAs (Decidable (_ ∉ _))
  | .setApplicationName _ _ =>
      inferInstanceAs (Decidable (_ ∈ _ → _ ∨ ∀ b ∈ s.server.sessions, _ → _))
  | .exit _ => isTrue trivial
  | .setSlots _ => isTrue trivial
  | .advance _ => isTrue trivial

/-- A change of one backend keeps the targets if it keeps that backend one. -/
theorem update_targets {t : WardenThresholds} {s : System} (h : s.Targets t) {pid : Int}
    {f : Session → Session} (hf : ∀ b, (f b).pid = b.pid)
    (hkept : pid ∈ s.pending → ∀ b ∈ s.server.sessions, b.pid = pid →
      s.server.Overruns t b → s.server.Overruns t (f b)) :
    System.Targets t { s with server := s.server.update pid f hf } := by
  intro b hb hpending
  obtain ⟨b', hb', rfl⟩ := List.mem_map.mp hb
  by_cases hpid : b'.pid = pid
  · rw [if_pos hpid] at hpending ⊢
    have hmem : pid ∈ s.pending := by
      rw [← hpid, ← hf b']
      exact hpending
    exact hkept hmem b' hb' hpid (h b' hb' (by rw [hpid]; exact hmem))
  · rw [if_neg hpid] at hpending ⊢
    exact h b' hb' hpending

theorem remove_targets {t : WardenThresholds} {s : System} (h : s.Targets t) (pid : Int)
    {pending : List Int} (hsub : ∀ p ∈ pending, p ∈ s.pending) :
    System.Targets t ⟨s.server.remove pid, pending⟩ :=
  fun b hb hpending => h b (List.mem_filter.mp hb).1 (hsub b.pid hpending)

theorem next_targets {t : WardenThresholds} {s : System} (h : s.Targets t) {e : Event}
    (hspares : e.Spares s) : System.Targets t { s with server := s.server.next e } := by
  cases e with
  | start session =>
      intro b hb hpending
      by_cases hfits : session.pid ∉ s.server.sessions.map Session.pid ∧
          s.server.sessions.length + 1 < UInt32.size
      · rw [Server.next, dif_pos hfits] at hb ⊢
        rcases List.mem_cons.mp hb with rfl | hb
        · exact absurd hpending hspares
        · exact h b hb hpending
      · rw [Server.next, dif_neg hfits] at hb ⊢
        exact h b hb hpending
  | exit pid => exact remove_targets h pid fun _ hp => hp
  | query pid text =>
      rw [Server.next]
      exact update_targets h _ fun hmem => absurd hmem hspares
  | finish pid state =>
      rw [Server.next]
      exact update_targets h _ fun hmem => absurd hmem hspares
  | setApplicationName pid name =>
      rw [Server.next]
      refine update_targets h _ fun hmem b hb hpid hover => ⟨?_, hover.2⟩
      rcases hspares hmem with hname | hrole
      · exact .inr (congrArg some hname)
      · exact .inl (hrole b hb hpid)
  | setSlots slots => exact h
  | advance micros =>
      intro b hb hpending
      obtain ⟨htag, hactive, start, hstart, hover⟩ := h b hb hpending
      refine ⟨htag, hactive, start, hstart, ?_⟩
      show t.maxQueryRuntimeMillis * 1000 < s.server.clock + micros - start
      omega

/-- The condition on a step: an event of the server spares the targets. -/
def StepRecord.Spared (r : StepRecord) : Prop :=
  match r.action with
  | .event e => e.Spares r.before
  | _ => True

instance : (r : StepRecord) → Decidable r.Spared
  | ⟨.event e, before, _, _⟩ => inferInstanceAs (Decidable (e.Spares before))
  | ⟨.observe _, _, _, _⟩ => isTrue trivial
  | ⟨.terminate _, _, _, _⟩ => isTrue trivial

theorem systemStep_before (t : WardenThresholds) (observerPid : Int) (action : Action)
    (s : System) : (systemStep t observerPid action s).1.before = s := by
  obtain ⟨server, pending⟩ := s
  cases action with
  | event e => rfl
  | observe answered => cases pending <;> rfl
  | terminate answered =>
      cases pending with
      | nil => rfl
      | cons pid rest => cases answered <;> rfl

theorem step_targets {t : WardenThresholds} {observerPid : Int} {action : Action} {s : System}
    (h : s.Targets t) (hspared : (systemStep t observerPid action s).1.Spared) :
    (∀ b ∈ (systemStep t observerPid action s).1.killed, s.server.Overruns t b) ∧
      (systemStep t observerPid action s).2.Targets t := by
  obtain ⟨server, pending⟩ := s
  cases action with
  | event e => exact ⟨fun b hb => absurd hb List.not_mem_nil, next_targets h hspared⟩
  | observe answered =>
      cases pending with
      | cons pid rest => exact ⟨fun b hb => absurd hb List.not_mem_nil, h⟩
      | nil =>
          refine ⟨fun b hb => absurd hb List.not_mem_nil, ?_⟩
          cases answered with
          | true => exact observe_targets t observerPid server
          | false => exact fun b _ hb => absurd hb List.not_mem_nil
  | terminate answered =>
      cases pending with
      | nil => exact ⟨fun b hb => absurd hb List.not_mem_nil, h⟩
      | cons pid rest =>
          cases answered with
          | false =>
              exact ⟨fun b hb => absurd hb List.not_mem_nil,
                fun b hb hp => h b hb (List.mem_cons_of_mem pid hp)⟩
          | true =>
              refine ⟨?_, remove_targets h pid fun p hp => List.mem_cons_of_mem pid hp⟩
              intro b hb
              obtain ⟨hmem, hpid⟩ := List.mem_filter.mp hb
              exact h b hmem (List.mem_cons.mpr (.inl (of_decide_eq_true hpid)))

/-! ## Whole runs -/

def steps (t : WardenThresholds) (observerPid : Int) (server : Server) (actions : List Action) :
    List StepRecord :=
  (run (systemStep t observerPid) actions ⟨server, []⟩).1

/-- In every run in which the server spares the targets, every backend is killed as a
runaway agent. -/
theorem kills_only_runaways (t : WardenThresholds) (observerPid : Int) (server : Server)
    (actions : List Action)
    (hspared : ∀ r ∈ steps t observerPid server actions, r.Spared) :
    ∀ r ∈ steps t observerPid server actions,
      ∀ b ∈ r.killed, r.before.server.Overruns t b := by
  have hrun := run_rule_where (systemStep t observerPid) (fun _ s => s.Targets t)
    (fun _ => True) (fun _ r => r.Spared)
    (fun _ r => ∀ b ∈ r.killed, r.before.server.Overruns t b) (s := ⟨server, []⟩)
    (fun _ s action _ hmet htargets => by
      rw [systemStep_before]
      exact step_targets htargets hmet)
    (fun b _ hb => absurd hb List.not_mem_nil) (fun _ _ => trivial)
    (everyStep_iff_forall.mpr hspared)
  exact everyStep_iff_forall.mp hrun.2

/-- An agent in a query since 0, on a server whose clock shows 61 seconds. -/
def runawayServer : Server where
  sessions := [⟨7, some "pgb_agent", some "pgb_proxy", true, some "active", some 0,
    some "SELECT pg_sleep(9999)"⟩]
  slots := []
  clock := 61000000
  distinct := by decide
  few := by decide

/-- A backend of a shared role that is given the agent's pid. -/
def sharedBackend : Session :=
  ⟨7, some "app_shared", some "some_app", true, some "active", some 61000000, some "SELECT 1"⟩

/-- The warden looks, time passes, and the agent is killed. -/
def quietRound : List Action := [.observe true, .event (.advance 1000), .terminate true]

theorem kills_only_runaways_quietRound :
    (steps .default 1 runawayServer quietRound).map (fun r => r.killed.length) = [0, 0, 1] ∧
      ∀ r ∈ steps .default 1 runawayServer quietRound,
        ∀ b ∈ r.killed, r.before.server.Overruns .default b :=
  ⟨by decide, kills_only_runaways .default 1 runawayServer quietRound (by decide)⟩

/-- Between the observation and the termination the agent exits and its pid is given to a
shared role. -/
def reusedPid : List Action :=
  [.observe true, .event (.exit 7), .event (.start sharedBackend), .terminate true]

theorem shared_session_killed :
    (steps .default 1 runawayServer reusedPid).flatMap StepRecord.killed = [sharedBackend] ∧
      ¬ ∀ r ∈ steps .default 1 runawayServer reusedPid,
        ∀ b ∈ r.killed, r.before.server.Overruns .default b := by
  decide

/-! ## The rounds of the system and the ticks of the loop -/

/-- The terminations of a round, one after the other. -/
theorem run_terminate (t : WardenThresholds) (observerPid : Int) (server : Server)
    (pending : List Int) :
    (run (systemStep t observerPid) (List.replicate pending.length (.terminate true))
      ⟨server, pending⟩).1.filterMap StepRecord.called = pending := by
  induction pending generalizing server with
  | nil => rfl
  | cons pid rest ih => exact congrArg (pid :: ·) (ih (server.remove pid))

/-- On a server that stands still a round calls the killer as `WardenLoop::tick` does. -/
theorem round_kills {σ : Type} [ActivitySource σ] (lp : WardenLoop σ RecordingKiller)
    (clock : Reads) (observerPid : Int) (server : Server)
    (hsource : (ActivitySource.observe lp.source).1 = server.observe observerPid) :
    let pids := (assess (server.observe observerPid) lp.thresholds).toTerminate
    (steps lp.thresholds observerPid server
      (.observe true :: List.replicate pids.length (.terminate true))).filterMap
        StepRecord.called = (tickStep clock lp).1.killed := by
  intro pids
  have hcalled : (steps lp.thresholds observerPid server
      (.observe true :: List.replicate pids.length (.terminate true))).filterMap
        StepRecord.called = pids := run_terminate lp.thresholds observerPid server pids
  have hobs : (tickStep clock lp).1.obs = server.observe observerPid := hsource
  rw [hcalled, tickStep_killed, hobs]
  exact assess_toTerminate _ _

end PgBrakes.Ports.Warden
