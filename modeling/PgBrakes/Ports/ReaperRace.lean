import PgBrakes.Verified.History
import PgBrakes.Ports.CloneLedger
import Mathlib.Logic.Function.Basic

/-!
# The reaper among live orchestrators

The steps of `LocalCloneProvider::provision` and `destroy` and of `reap_orphans_with_sweep`
(`crates/clone-orchestrator/src/provider/{local,ledger}.rs`), in any order.  Processes come
and go, and a pid may be given to another process at any time.  A clone is named after the
pid of its orchestrator and a counter that starts with the process, so a name may come back
with a pid.

Every process has an incarnation, which no step of the code can see.  Entries, markers and
directories carry the incarnation they are from.  Orchestrators, postmasters and the reaper
are processes of one user, so `kill -0` succeeds on everything that runs.

## Main results

* `siteStep_inv` — what the orchestrators keep among themselves: a directory with a live owner
  has that owner's entry in the ledger.
* `World.next_inv`, `World.Inv.safe` — what the reaper knows in the middle of its work, and
  why its steps are then safe.
* `reaper_spares_the_living` — the steps under which a whole run is safe.
* `fresh_clone_destroyed` — a clone recorded behind the reaper's snapshot.
-/

namespace PgBrakes.Ports.ReaperRace

open PgBrakes.Verified.History
open PgBrakes.Ports.CloneLedger (OwnerIdentity Process ProcessTable processStartTime pidAlive
  isLive_eq_false_iff)

/-! ## Processes, entries and directories -/

/-- `local-clone-{pid}-{seq}`. -/
structure CloneName where
  pid : Nat
  seq : Nat
deriving DecidableEq

/-- An owner as it is written down, and its incarnation. -/
structure Owner where
  identity : OwnerIdentity
  incarnation : Nat
deriving DecidableEq

/-- An entry of the ledger, and when it was written. -/
structure Entry where
  owner : Owner
  recordedAt : Nat
deriving DecidableEq

/-- A data directory: whose it is, its marker, and the postmaster its pid file names. -/
structure Dir where
  owner : Owner
  marker : Option Owner
  pidfile : Option (Nat × Nat)
deriving DecidableEq

/-- How far an orchestrator is with its current clone. -/
inductive Stage where
  | idle
  | begun
  | recorded
  | copied
  | marked
  | running
  | emptied
deriving DecidableEq

structure Proc where
  incarnation : Nat
  lstart : Option String
  seq : Nat
  stage : Stage
deriving DecidableEq

/-- The machine without the reaper. -/
structure Site where
  procs : Nat → Option Proc
  ledger : CloneName → Option Entry
  dirs : CloneName → Option Dir
  fresh : Nat
  now : Nat

/-- What `kill -0` and `ps` see. -/
def Site.table (s : Site) : ProcessTable := fun pid =>
  (s.procs pid).map fun p => ⟨p.incarnation, p.lstart, true, true⟩

/-- `OwnerIdentity::current` of the process at a pid. -/
def Site.ownerAt (s : Site) (pid : Nat) (p : Proc) : Owner :=
  ⟨⟨pid, (processStartTime s.table pid).getD ""⟩, p.incarnation⟩

/-- The incarnation is running. -/
def Owner.Alive (s : Site) (o : Owner) : Prop :=
  ∃ p, s.procs o.identity.pid = some p ∧ p.incarnation = o.incarnation

/-! ## The steps of the orchestrators -/

inductive SiteAction where
  | spawn (pid : Nat) (lstart : Option String)
  | exit (pid : Nat)
  | shutdown (n : CloneName)
  | begin (pid : Nat)
  | clearOld (pid : Nat)
  | record (pid : Nat)
  | copy (pid : Nat)
  | mark (pid : Nat)
  | start (pid postmaster : Nat) (lstart : Option String)
  | giveUp (pid : Nat)
  | removeOwn (pid : Nat)
  | forgetOwn (pid : Nat)
deriving DecidableEq

namespace Site

def setProc (s : Site) (pid : Nat) (p : Option Proc) : Site :=
  { s with procs := Function.update s.procs pid p }

def setEntry (s : Site) (n : CloneName) (e : Option Entry) : Site :=
  { s with ledger := Function.update s.ledger n e }

def setDir (s : Site) (n : CloneName) (d : Option Dir) : Site :=
  { s with dirs := Function.update s.dirs n d }

/-- A new process, on a pid that is free. -/
def spawned (s : Site) (pid : Nat) (lstart : Option String) : Site :=
  { s.setProc pid (some ⟨s.fresh, lstart, 0, .idle⟩) with fresh := s.fresh + 1 }

theorem setProc_procs (s : Site) (pid : Nat) (p : Option Proc) (q : Nat) :
    (s.setProc pid p).procs q = if q = pid then p else s.procs q :=
  Function.update_apply ..

theorem spawned_procs (s : Site) (pid : Nat) (lstart : Option String) (q : Nat) :
    (s.spawned pid lstart).procs q =
      if q = pid then some ⟨s.fresh, lstart, 0, .idle⟩ else s.procs q :=
  Function.update_apply ..

/-- Who runs on a pid after one pid was given away: the new process, or who did. -/
theorem setProc_some_cases {s : Site} {pid q : Nat} {p r : Proc}
    (hr : (s.setProc pid (some p)).procs q = some r) :
    q = pid ∧ r = p ∨ s.procs q = some r := by
  rw [setProc_procs] at hr
  by_cases hq : q = pid
  · rw [if_pos hq] at hr
    exact .inl ⟨hq, (Option.some.inj hr).symm⟩
  · rw [if_neg hq] at hr
    exact .inr hr

theorem of_setProc_none {s : Site} {pid q : Nat} {r : Proc}
    (hr : (s.setProc pid none).procs q = some r) : s.procs q = some r := by
  rw [setProc_procs] at hr
  by_cases hq : q = pid
  · rw [if_pos hq] at hr
    cases hr
  · rwa [if_neg hq] at hr

/-- A process starts on a free pid: who ran before still runs. -/
theorem spawned_procs_of_some {s : Site} {pid postmaster : Nat} {p : Proc}
    (hp : s.procs pid = some p) (hfree : s.procs postmaster = none) (lstart : Option String) :
    (s.spawned postmaster lstart).procs pid = some p := by
  have hne : pid ≠ postmaster := by
    intro heq
    rw [← heq, hp] at hfree
    cases hfree
  rw [spawned_procs, if_neg hne, hp]

theorem setDir_procs (s : Site) (n : CloneName) (d : Option Dir) (q : Nat) :
    (s.setDir n d).procs q = s.procs q := rfl

theorem setEntry_procs (s : Site) (n : CloneName) (e : Option Entry) (q : Nat) :
    (s.setEntry n e).procs q = s.procs q := rfl

end Site

/-- One step of the process at a pid, in the order of `provision` and `destroy`.  A step that
does not come next changes nothing. -/
def orchestratorStep (s : Site) (pid : Nat) (p : Proc) : SiteAction → Site
  | .begin _ =>
      if p.stage = .idle then
        s.setProc pid (some { p with seq := p.seq + 1, stage := .begun })
      else s
  | .clearOld _ =>
      if p.stage = .begun then s.setDir ⟨pid, p.seq⟩ none else s
  | .record _ =>
      if p.stage = .begun then
        (s.setEntry ⟨pid, p.seq⟩ (some ⟨s.ownerAt pid p, s.now⟩)).setProc pid
          (some { p with stage := .recorded })
      else s
  | .copy _ =>
      -- `pg_basebackup` wants a directory that is not there.
      if p.stage = .recorded ∧ s.dirs ⟨pid, p.seq⟩ = none then
        (s.setDir ⟨pid, p.seq⟩ (some ⟨s.ownerAt pid p, none, none⟩)).setProc pid
          (some { p with stage := .copied })
      else s
  | .mark _ =>
      match s.dirs ⟨pid, p.seq⟩ with
      | some d =>
          if p.stage = .copied then
            (s.setDir ⟨pid, p.seq⟩ (some { d with marker := some (s.ownerAt pid p) })).setProc pid
              (some { p with stage := .marked })
          else s
      | none => s
  | .start _ postmaster lstart =>
      match s.dirs ⟨pid, p.seq⟩ with
      | some d =>
          if p.stage = .marked ∧ postmaster ≠ 0 ∧ s.procs postmaster = none then
            ((s.spawned postmaster lstart).setDir ⟨pid, p.seq⟩
              (some { d with pidfile := some (postmaster, s.fresh) })).setProc pid
              (some { p with stage := .running })
          else s
      | none => s
  | .giveUp _ => s.setProc pid (some { p with stage := .idle })
  | .removeOwn _ =>
      if p.stage = .running then
        (s.setDir ⟨pid, p.seq⟩ none).setProc pid (some { p with stage := .emptied })
      else s
  | .forgetOwn _ =>
      if p.stage = .emptied then
        (s.setEntry ⟨pid, p.seq⟩ none).setProc pid (some { p with stage := .idle })
      else s
  | .spawn _ _ => s
  | .exit _ => s
  | .shutdown _ => s

/-- The postmaster of a clone exits, and its pid file goes with it. -/
def shutdownStep (s : Site) (n : CloneName) : Site :=
  match s.dirs n with
  | some d =>
      match d.pidfile with
      | some (q, i) =>
          if (s.procs q).map Proc.incarnation = some i then
            (s.setProc q none).setDir n (some { d with pidfile := none })
          else s
      | none => s
  | none => s

def SiteAction.pid : SiteAction → Nat
  | .spawn pid _ => pid
  | .exit pid => pid
  | .shutdown n => n.pid
  | .begin pid => pid
  | .clearOld pid => pid
  | .record pid => pid
  | .copy pid => pid
  | .mark pid => pid
  | .start pid _ _ => pid
  | .giveUp pid => pid
  | .removeOwn pid => pid
  | .forgetOwn pid => pid

def siteStep (a : SiteAction) (s : Site) : Site :=
  match a with
  | .spawn pid lstart =>
      if pid ≠ 0 ∧ s.procs pid = none then s.spawned pid lstart else s
  | .exit pid => s.setProc pid none
  | .shutdown n => shutdownStep s n
  | a =>
      match s.procs a.pid with
      | some p => orchestratorStep s a.pid p a
      | none => s

/-! ## The steps of the reaper -/

/-- The ledger as it was read, and when. -/
structure Snapshot where
  entries : CloneName → Option Entry
  takenAt : Nat

/-- The two loops of a pass.  The names that have had their turn, and those with an alarm. -/
inductive Loop where
  | ledger (snapshot : Snapshot) (done alarmed : List CloneName)
  | sweep (snapshot : Snapshot) (alarmed : List CloneName)

/-- The parts of destroying a clone, with the postmaster its pid file named. -/
inductive Part where
  | stop
  | interrupt (postmaster : Nat × Nat)
  | waiting (postmaster : Nat × Nat)
  | quit (postmaster : Nat × Nat)
  | remove
  | removed
  | forget

inductive Reaper where
  | idle
  | looping (loop : Loop)
  | opened (alarmed : List CloneName)
  | marking (snapshot : Snapshot) (alarmed : List CloneName) (n : CloneName)
  | destroying (part : Part) (n : CloneName) (loop : Loop)

inductive ReaperAction where
  | readLedger
  | checkOwner (n : CloneName)
  | openRoot
  | snapshot
  | visit (n : CloneName)
  | checkMarker
  | readPidfile
  | signal
  | waitGone
  | remove
  | leave
  | checkGone
  | forget
  | finish
  | halt

/-- One step of `reap_orphans_with_sweep`.  The loops take their names in any order. -/
def reaperStep (a : ReaperAction) (s : Site) (r : Reaper) : Site × Reaper :=
  match a, r with
  | .readLedger, .idle => (s, .looping (.ledger ⟨s.ledger, s.now⟩ [] []))
  | .checkOwner n, .looping (.ledger snapshot done alarmed) =>
      match snapshot.entries n with
      | some e =>
          if n ∈ done then (s, r)
          else if e.owner.identity.isLive s.table then
            (s, .looping (.ledger snapshot (n :: done) alarmed))
          else (s, .destroying .stop n (.ledger snapshot (n :: done) (n :: alarmed)))
      | none => (s, r)
  | .openRoot, .looping (.ledger _ _ alarmed) => (s, .opened alarmed)
  | .snapshot, .opened alarmed => (s, .looping (.sweep ⟨s.ledger, s.now⟩ alarmed))
  | .visit n, .looping (.sweep snapshot alarmed) =>
      if (s.dirs n).isNone ∨ n ∈ alarmed then (s, r)
      else if (snapshot.entries n).any fun e => e.owner.identity.isLive s.table then (s, r)
      else (s, .marking snapshot alarmed n)
  | .checkMarker, .marking snapshot alarmed n =>
      if ((s.dirs n).bind Dir.marker).any fun o => o.identity.isLive s.table then
        (s, .looping (.sweep snapshot alarmed))
      else (s, .destroying .stop n (.sweep snapshot (n :: alarmed)))
  | .readPidfile, .destroying .stop n loop =>
      match (s.dirs n).bind Dir.pidfile with
      | some pm =>
          if pidAlive s.table pm.1 then (s, .destroying (.interrupt pm) n loop)
          else (s, .destroying .remove n loop)
      | none => (s, .destroying .remove n loop)
  | .signal, .destroying (.interrupt pm) n loop => (s, .destroying (.waiting pm) n loop)
  | .waitGone, .destroying (.waiting pm) n loop =>
      if pidAlive s.table pm.1 then (s, .destroying (.quit pm) n loop)
      else (s, .destroying .remove n loop)
  | .signal, .destroying (.quit _) n loop => (s, .destroying .remove n loop)
  | .remove, .destroying .remove n loop => (s.setDir n none, .destroying .removed n loop)
  | .leave, .destroying .remove n loop => (s, .destroying .removed n loop)
  | .checkGone, .destroying .removed n loop =>
      -- A clone that is there, or there again, stays in the ledger.
      if (s.dirs n).isSome then (s, .looping loop) else (s, .destroying .forget n loop)
  | .forget, .destroying .forget n loop => (s.setEntry n none, .looping loop)
  | .finish, .looping (.sweep _ _) => (s, .idle)
  | .halt, _ => (s, .idle)
  | _, _ => (s, r)

/-! ## The system -/

inductive Action where
  | site (a : SiteAction)
  | reaper (a : ReaperAction)

structure World where
  site : Site
  reaper : Reaper

def Site.tickClock (s : Site) : Site := { s with now := s.now + 1 }

def World.next (w : World) : Action → World
  | .site a => ⟨(siteStep a w.site).tickClock, w.reaper⟩
  | .reaper a =>
      let out := reaperStep a w.site w.reaper
      ⟨out.1.tickClock, out.2⟩

/-- The postmaster the reaper means to signal in a step. -/
def World.signals (w : World) : Action → Option (Nat × Nat)
  | .reaper .signal =>
      match w.reaper with
      | .destroying (.interrupt pm) _ _ => some pm
      | .destroying (.quit pm) _ _ => some pm
      | _ => none
  | _ => none

/-- The clone whose directory the reaper removes in a step. -/
def World.removes (w : World) : Action → Option CloneName
  | .reaper .remove =>
      match w.reaper with
      | .destroying .remove n _ => some n
      | _ => none
  | _ => none

/-- The clone whose entry the reaper forgets in a step. -/
def World.forgets (w : World) : Action → Option CloneName
  | .reaper .forget =>
      match w.reaper with
      | .destroying .forget n _ => some n
      | _ => none
  | _ => none

/-- The step takes nothing from the living. -/
structure World.Safe (w : World) (a : Action) : Prop where
  removes : ∀ n, w.removes a = some n → ∀ d, w.site.dirs n = some d → ¬ d.owner.Alive w.site
  forgets : ∀ n, w.forgets a = some n → ∀ e, w.site.ledger n = some e → ¬ e.owner.Alive w.site
  signals : ∀ pm, w.signals a = some pm → ∀ p, w.site.procs pm.1 = some p → p.incarnation = pm.2

structure StepRecord where
  before : World
  action : Action

def step (a : Action) (w : World) : StepRecord × World := (⟨w, a⟩, w.next a)

/-- No process, no clone, and a reaper that has not begun. -/
def World.empty : World :=
  ⟨⟨fun _ => none, fun _ => none, fun _ => none, 0, 0⟩, .idle⟩

/-! ## Owners and the passing of time -/

/-- What a later machine still knows about the incarnations of an earlier one. -/
structure Site.Later (s s' : Site) : Prop where
  fresh : s.fresh ≤ s'.fresh
  procs : ∀ pid p', s'.procs pid = some p' → p'.incarnation < s.fresh →
    ∃ p, s.procs pid = some p ∧ p.incarnation = p'.incarnation ∧ p.lstart = p'.lstart

/-- An owner of a clone as some orchestrator wrote it down. -/
structure Owner.Known (s : Site) (n : CloneName) (o : Owner) : Prop where
  pid : o.identity.pid = n.pid
  incarnation : o.incarnation < s.fresh
  start : ∀ p, s.procs n.pid = some p → p.incarnation = o.incarnation →
    o.identity.start = (processStartTime s.table n.pid).getD ""

theorem processStartTime_table (s : Site) (pid : Nat) :
    processStartTime s.table pid =
      if pid = 0 then none
      else ((s.procs pid).bind Proc.lstart).filter fun t => decide (t ≠ "") := by
  unfold processStartTime Site.table
  cases s.procs pid <;> rfl

theorem pidAlive_table (s : Site) (pid : Nat) :
    pidAlive s.table pid = (decide (pid ≠ 0) && (s.procs pid).isSome) := by
  unfold pidAlive Site.table
  cases s.procs pid <;> rfl

theorem Owner.Known.later {s s' : Site} {n : CloneName} {o : Owner} (h : o.Known s n)
    (hlater : s.Later s') : o.Known s' n := by
  refine ⟨h.pid, Nat.lt_of_lt_of_le h.incarnation hlater.fresh, ?_⟩
  intro p' hp' hinc
  obtain ⟨p, hp, hsame, hlstart⟩ := hlater.procs n.pid p' hp' (by rw [hinc]; exact h.incarnation)
  rw [h.start p hp (hsame.trans hinc), processStartTime_table, processStartTime_table, hp, hp']
  simp [hlstart]

theorem Owner.Known.alive_iff {s : Site} {n : CloneName} {o : Owner} (h : o.Known s n) :
    o.Alive s ↔ ∃ p, s.procs n.pid = some p ∧ p.incarnation = o.incarnation := by
  unfold Owner.Alive
  rw [h.pid]

/-- The dead do not come back. -/
theorem Owner.Known.alive_of_later {s s' : Site} {n : CloneName} {o : Owner} (h : o.Known s n)
    (hlater : s.Later s') (halive : o.Alive s') : o.Alive s := by
  obtain ⟨p', hp', hinc⟩ := halive
  obtain ⟨p, hp, hsame, -⟩ := hlater.procs _ p' hp' (by rw [hinc]; exact h.incarnation)
  exact ⟨p, hp, hsame.trans hinc⟩

/-- A running owner is never taken for dead. -/
theorem Owner.Known.isLive {s : Site} {n : CloneName} {o : Owner} (h : o.Known s n)
    (hzero : s.procs 0 = none) (halive : o.Alive s) : o.identity.isLive s.table = true := by
  obtain ⟨p, hp, hinc⟩ := h.alive_iff.mp halive
  have hne : n.pid ≠ 0 := by
    intro h0
    rw [h0, hzero] at hp
    cases hp
  rw [← Bool.not_eq_false, isLive_eq_false_iff]
  rintro (hfree | ⟨now, hnow, hrecorded, hdiffers⟩)
  · rw [h.pid, pidAlive_table, hp] at hfree
    simp [hne] at hfree
  · rw [h.pid] at hnow
    have hstart := h.start p hp hinc
    rw [hnow] at hstart
    exact hdiffers hstart.symm

/-! ## What the orchestrators keep -/

/-- The orchestrator has an entry of its own for the clone it is at. -/
def Stage.Recorded (g : Stage) : Prop := g ≠ .idle ∧ g ≠ .begun

/-- What holds of the machine between any two steps. -/
structure Site.Inv (s : Site) : Prop where
  zero : s.procs 0 = none
  procs : ∀ pid p, s.procs pid = some p → p.incarnation < s.fresh
  entries : ∀ n e, s.ledger n = some e → e.owner.Known s n
  dirs : ∀ n d, s.dirs n = some d → d.owner.Known s n
  markers : ∀ n d o, s.dirs n = some d → d.marker = some o → o.Known s n
  backed : ∀ n d, s.dirs n = some d → d.owner.Alive s →
    ∃ e, s.ledger n = some e ∧ e.owner.incarnation = d.owner.incarnation
  staged : ∀ pid p, s.procs pid = some p → p.stage.Recorded →
    ∃ e, s.ledger ⟨pid, p.seq⟩ = some e ∧ e.owner.incarnation = p.incarnation
  emptied : ∀ pid p, s.procs pid = some p → p.stage = .emptied → s.dirs ⟨pid, p.seq⟩ = none
  pidfiles : ∀ n d pm, s.dirs n = some d → d.pidfile = some pm →
    ∀ p, s.procs pm.1 = some p → p.incarnation = pm.2

theorem Site.Inv.ownerAt_known {s : Site} (h : s.Inv) {pid : Nat} {p : Proc}
    (hp : s.procs pid = some p) (k : Nat) : (s.ownerAt pid p).Known s ⟨pid, k⟩ :=
  ⟨rfl, h.procs pid p hp, fun _ _ _ => rfl⟩

theorem Site.Later.of_eq {s s' : Site} (hprocs : s'.procs = s.procs) (hfresh : s'.fresh = s.fresh) :
    s.Later s' := by
  refine ⟨by omega, ?_⟩
  intro pid p hp _
  rw [hprocs] at hp
  exact ⟨p, hp, rfl, rfl⟩

theorem Site.Later.trans {s t u : Site} (h : s.Later t) (h' : t.Later u) : s.Later u := by
  refine ⟨Nat.le_trans h.fresh h'.fresh, ?_⟩
  intro pid p hp hold
  obtain ⟨q, hq, hqi, hql⟩ := h'.procs pid p hp (Nat.lt_of_lt_of_le hold h.fresh)
  obtain ⟨r, hr, hri, hrl⟩ := h.procs pid q hq (by rw [hqi]; exact hold)
  exact ⟨r, hr, hri.trans hqi, hrl.trans hql⟩

theorem Site.later_setProc_none (s : Site) (pid : Nat) : s.Later (s.setProc pid none) := by
  refine ⟨Nat.le_refl _, ?_⟩
  intro q p hp _
  exact ⟨p, Site.of_setProc_none hp, rfl, rfl⟩

theorem Site.later_setProc_some {s : Site} {pid : Nat} {p p' : Proc} (hp : s.procs pid = some p)
    (hinc : p'.incarnation = p.incarnation) (hlstart : p'.lstart = p.lstart) :
    s.Later (s.setProc pid (some p')) := by
  refine ⟨Nat.le_refl _, ?_⟩
  intro q r hr _
  rcases Site.setProc_some_cases hr with ⟨rfl, rfl⟩ | hold
  · exact ⟨p, hp, hinc.symm, hlstart.symm⟩
  · exact ⟨r, hold, rfl, rfl⟩

theorem Site.Later.setProc_some {s t : Site} {pid : Nat} {p p' : Proc}
    (hp : t.procs pid = some p) (hinc : p'.incarnation = p.incarnation)
    (hlstart : p'.lstart = p.lstart) (h : s.Later t) : s.Later (t.setProc pid (some p')) :=
  h.trans (Site.later_setProc_some hp hinc hlstart)

theorem Site.later_spawned (s : Site) (pid : Nat) (lstart : Option String) :
    s.Later (s.spawned pid lstart) := by
  refine ⟨Nat.le_succ _, ?_⟩
  intro q r hr hnew
  rcases Site.setProc_some_cases hr with ⟨rfl, rfl⟩ | hold
  · exact absurd hnew (Nat.lt_irrefl _)
  · exact ⟨r, hold, rfl, rfl⟩

namespace Site.Inv

variable {s : Site}

theorem setProc_none (h : s.Inv) (pid : Nat) : (s.setProc pid none).Inv := by
  have hlater := s.later_setProc_none pid
  refine
    { zero := ?_
      procs := fun q p hp => h.procs q p (Site.of_setProc_none hp)
      entries := fun n e he => (h.entries n e he).later hlater
      dirs := fun n d hd => (h.dirs n d hd).later hlater
      markers := fun n d o hd ho => (h.markers n d o hd ho).later hlater
      backed := fun n d hd ha => h.backed n d hd ((h.dirs n d hd).alive_of_later hlater ha)
      staged := fun q p hp => h.staged q p (Site.of_setProc_none hp)
      emptied := fun q p hp => h.emptied q p (Site.of_setProc_none hp)
      pidfiles := fun n d pm hd hpm p hp =>
        h.pidfiles n d pm hd hpm p (Site.of_setProc_none hp) }
  by_cases hq : (0 : Nat) = pid
  · simp [Site.setProc, ← hq]
  · simpa [Site.setProc, hq] using h.zero

/-- The process at a pid moves on. -/
theorem setProc_some (h : s.Inv) {pid : Nat} {p p' : Proc} (hp : s.procs pid = some p)
    (hinc : p'.incarnation = p.incarnation) (hlstart : p'.lstart = p.lstart)
    (hstaged : p'.stage.Recorded →
      ∃ e, s.ledger ⟨pid, p'.seq⟩ = some e ∧ e.owner.incarnation = p.incarnation)
    (hemptied : p'.stage = .emptied → s.dirs ⟨pid, p'.seq⟩ = none) :
    (s.setProc pid (some p')).Inv := by
  have hlater := Site.later_setProc_some hp hinc hlstart
  refine
    { zero := ?_
      procs := ?_
      entries := fun n e he => (h.entries n e he).later hlater
      dirs := fun n d hd => (h.dirs n d hd).later hlater
      markers := fun n d o hd ho => (h.markers n d o hd ho).later hlater
      backed := fun n d hd ha => h.backed n d hd ((h.dirs n d hd).alive_of_later hlater ha)
      staged := ?_
      emptied := ?_
      pidfiles := ?_ }
  · have hq : (0 : Nat) ≠ pid := by
      intro hq
      rw [← hq, h.zero] at hp
      cases hp
    simpa [Site.setProc, hq] using h.zero
  · intro q r hr
    rcases Site.setProc_some_cases hr with ⟨rfl, rfl⟩ | hold
    · rw [hinc]
      exact h.procs q p hp
    · exact h.procs q r hold
  · intro q r hr hstage
    rcases Site.setProc_some_cases hr with ⟨rfl, rfl⟩ | hold
    · rw [hinc]
      exact hstaged hstage
    · exact h.staged q r hold hstage
  · intro q r hr hstage
    rcases Site.setProc_some_cases hr with ⟨rfl, rfl⟩ | hold
    · exact hemptied hstage
    · exact h.emptied q r hold hstage
  · intro n d pm hd hpm r hr
    rcases Site.setProc_some_cases hr with ⟨hq, rfl⟩ | hold
    · rw [hinc]
      exact h.pidfiles n d pm hd hpm p (hq ▸ hp)
    · exact h.pidfiles n d pm hd hpm r hold

/-- A process starts on a pid that no pid file names. -/
theorem spawned (h : s.Inv) {pid : Nat} (lstart : Option String) (hpid : pid ≠ 0)
    (hnamed : ∀ n d i, s.dirs n = some d → d.pidfile ≠ some (pid, i)) :
    (s.spawned pid lstart).Inv := by
  have hlater := s.later_spawned pid lstart
  refine
    { zero := ?_
      procs := ?_
      entries := fun n e he => (h.entries n e he).later hlater
      dirs := fun n d hd => (h.dirs n d hd).later hlater
      markers := fun n d o hd ho => (h.markers n d o hd ho).later hlater
      backed := fun n d hd ha => h.backed n d hd ((h.dirs n d hd).alive_of_later hlater ha)
      staged := ?_
      emptied := ?_
      pidfiles := ?_ }
  · simpa [Site.spawned, Site.setProc, hpid.symm] using h.zero
  · intro q r hr
    show r.incarnation < s.fresh + 1
    rcases Site.setProc_some_cases hr with ⟨-, rfl⟩ | hold
    · exact Nat.lt_succ_self _
    · exact Nat.lt_succ_of_lt (h.procs q r hold)
  · intro q r hr hstage
    rcases Site.setProc_some_cases hr with ⟨-, rfl⟩ | hold
    · exact absurd rfl hstage.1
    · exact h.staged q r hold hstage
  · intro q r hr hstage
    rcases Site.setProc_some_cases hr with ⟨-, rfl⟩ | hold
    · cases hstage
    · exact h.emptied q r hold hstage
  · intro n d pm hd hpm r hr
    rcases Site.setProc_some_cases hr with ⟨hq, -⟩ | hold
    · exact absurd (by rw [hpm, ← hq]) (hnamed n d pm.2 hd)
    · exact h.pidfiles n d pm hd hpm r hold

/-- The process at a pid writes its own entry. -/
theorem setEntry_own (h : s.Inv) {n : CloneName} {p : Proc} {e : Entry}
    (hp : s.procs n.pid = some p) (hknown : e.owner.Known s n)
    (hinc : e.owner.incarnation = p.incarnation) : (s.setEntry n (some e)).Inv := by
  have hlater : s.Later (s.setEntry n (some e)) := .of_eq rfl rfl
  refine
    { zero := h.zero
      procs := h.procs
      entries := ?_
      dirs := fun m d hd => (h.dirs m d hd).later hlater
      markers := fun m d o hd ho => (h.markers m d o hd ho).later hlater
      backed := ?_
      staged := ?_
      emptied := h.emptied
      pidfiles := h.pidfiles }
  · intro m e' he'
    by_cases hm : m = n
    · subst hm
      have hee : e = e' := by simpa [Site.setEntry] using he'
      exact hee ▸ hknown.later hlater
    · exact (h.entries m e' (by simpa [Site.setEntry, hm] using he')).later hlater
  · intro m d hd ha
    by_cases hm : m = n
    · subst hm
      obtain ⟨q, hq, hqi⟩ := (h.dirs m d hd).alive_iff.mp ha
      have hpq : p = q := by
        rw [hp] at hq
        exact Option.some.inj hq
      exact ⟨e, by simp [Site.setEntry], by rw [hinc, hpq, hqi]⟩
    · obtain ⟨e', he', hi⟩ := h.backed m d hd ha
      exact ⟨e', by simpa [Site.setEntry, hm] using he', hi⟩
  · intro pid q hq hstage
    by_cases hm : (⟨pid, q.seq⟩ : CloneName) = n
    · subst hm
      have hpq : p = q := by
        have := hp.symm.trans hq
        exact Option.some.inj this
      exact ⟨e, by simp [Site.setEntry], by rw [hinc, hpq]⟩
    · obtain ⟨e', he', hi⟩ := h.staged pid q hq hstage
      exact ⟨e', by simpa [Site.setEntry, hm] using he', hi⟩

/-- An entry goes that neither a live directory nor a running orchestrator has a use for. -/
theorem setEntry_none (h : s.Inv) {n : CloneName}
    (hdir : ∀ d, s.dirs n = some d → ¬ d.owner.Alive s)
    (hproc : ∀ p, s.procs n.pid = some p → p.seq = n.seq → ¬ p.stage.Recorded) :
    (s.setEntry n none).Inv := by
  have hlater : s.Later (s.setEntry n none) := .of_eq rfl rfl
  refine
    { zero := h.zero
      procs := h.procs
      entries := ?_
      dirs := fun m d hd => (h.dirs m d hd).later hlater
      markers := fun m d o hd ho => (h.markers m d o hd ho).later hlater
      backed := ?_
      staged := ?_
      emptied := h.emptied
      pidfiles := h.pidfiles }
  · intro m e he
    by_cases hm : m = n
    · simp [Site.setEntry, hm] at he
    · exact (h.entries m e (by simpa [Site.setEntry, hm] using he)).later hlater
  · intro m d hd ha
    by_cases hm : m = n
    · subst hm
      exact absurd ha (hdir d hd)
    · obtain ⟨e, he, hi⟩ := h.backed m d hd ha
      exact ⟨e, by simpa [Site.setEntry, hm] using he, hi⟩
  · intro pid q hq hstage
    by_cases hm : (⟨pid, q.seq⟩ : CloneName) = n
    · subst hm
      exact absurd hstage (hproc q hq rfl)
    · obtain ⟨e, he, hi⟩ := h.staged pid q hq hstage
      exact ⟨e, by simpa [Site.setEntry, hm] using he, hi⟩

theorem setDir_none (h : s.Inv) (n : CloneName) : (s.setDir n none).Inv := by
  have hlater : s.Later (s.setDir n none) := .of_eq rfl rfl
  have hold : ∀ m d, (s.setDir n none).dirs m = some d → s.dirs m = some d := by
    intro m d hd
    by_cases hm : m = n
    · simp [Site.setDir, hm] at hd
    · simpa [Site.setDir, hm] using hd
  refine
    { zero := h.zero
      procs := h.procs
      entries := fun m e he => (h.entries m e he).later hlater
      dirs := fun m d hd => (h.dirs m d (hold m d hd)).later hlater
      markers := fun m d o hd ho => (h.markers m d o (hold m d hd) ho).later hlater
      backed := fun m d hd => h.backed m d (hold m d hd)
      staged := h.staged
      emptied := ?_
      pidfiles := fun m d pm hd => h.pidfiles m d pm (hold m d hd) }
  intro pid p hp hstage
  have hempty := h.emptied pid p hp hstage
  by_cases hm : (⟨pid, p.seq⟩ : CloneName) = n
  · simp [Site.setDir, hm]
  · simpa [Site.setDir, hm] using hempty

/-- A directory is made or changed. -/
theorem setDir_some (h : s.Inv) {n : CloneName} {d : Dir} (howner : d.owner.Known s n)
    (hmarker : ∀ o, d.marker = some o → o.Known s n)
    (hbacked : d.owner.Alive s →
      ∃ e, s.ledger n = some e ∧ e.owner.incarnation = d.owner.incarnation)
    (hproc : ∀ p, s.procs n.pid = some p → p.seq = n.seq → p.stage ≠ .emptied)
    (hpidfile : ∀ pm, d.pidfile = some pm → ∀ p, s.procs pm.1 = some p → p.incarnation = pm.2) :
    (s.setDir n (some d)).Inv := by
  have hlater : s.Later (s.setDir n (some d)) := .of_eq rfl rfl
  have hdirs : ∀ m d', (s.setDir n (some d)).dirs m = some d' →
      m = n ∧ d' = d ∨ m ≠ n ∧ s.dirs m = some d' := by
    intro m d' hd'
    by_cases hm : m = n
    · refine .inl ⟨hm, ?_⟩
      simpa [Site.setDir, hm] using hd'.symm
    · exact .inr ⟨hm, by simpa [Site.setDir, hm] using hd'⟩
  refine
    { zero := h.zero
      procs := h.procs
      entries := fun m e he => (h.entries m e he).later hlater
      dirs := ?_
      markers := ?_
      backed := ?_
      staged := h.staged
      emptied := ?_
      pidfiles := ?_ }
  · intro m d' hd'
    rcases hdirs m d' hd' with ⟨rfl, rfl⟩ | ⟨-, hold⟩
    · exact howner.later hlater
    · exact (h.dirs m d' hold).later hlater
  · intro m d' o hd' ho
    rcases hdirs m d' hd' with ⟨rfl, rfl⟩ | ⟨-, hold⟩
    · exact (hmarker o ho).later hlater
    · exact (h.markers m d' o hold ho).later hlater
  · intro m d' hd' ha
    rcases hdirs m d' hd' with ⟨rfl, rfl⟩ | ⟨-, hold⟩
    · exact hbacked ha
    · exact h.backed m d' hold ha
  · intro pid p hp hstage
    by_cases hm : (⟨pid, p.seq⟩ : CloneName) = n
    · subst hm
      exact absurd hstage (hproc p hp rfl)
    · simpa [Site.setDir, hm] using h.emptied pid p hp hstage
  · intro m d' pm hd' hpm
    rcases hdirs m d' hd' with ⟨rfl, rfl⟩ | ⟨-, hold⟩
    · exact hpidfile pm hpm
    · exact h.pidfiles m d' pm hold hpm

theorem tickClock (h : s.Inv) : s.tickClock.Inv := by
  have hlater : s.Later s.tickClock := .of_eq rfl rfl
  exact
    { zero := h.zero
      procs := h.procs
      entries := fun m e he => (h.entries m e he).later hlater
      dirs := fun m d hd => (h.dirs m d hd).later hlater
      markers := fun m d o hd ho => (h.markers m d o hd ho).later hlater
      backed := h.backed
      staged := h.staged
      emptied := h.emptied
      pidfiles := h.pidfiles }

end Site.Inv

/-! ## The steps that a safe run takes -/

/-- The pid a step gives to a new process. -/
def SiteAction.newPid : SiteAction → Option Nat
  | .spawn pid _ => some pid
  | .start _ postmaster _ => some postmaster
  | _ => none

/-- The name under which a step records a clone. -/
def SiteAction.recordedName (a : SiteAction) (s : Site) : Option CloneName :=
  match a with
  | .record pid =>
      match s.procs pid with
      | some p => if p.stage = .begun then some ⟨pid, p.seq⟩ else none
      | none => none
  | _ => none

/-- No pid file names a pid that the step gives to a new process. -/
def SiteAction.FreshPid (a : SiteAction) (s : Site) : Prop :=
  ∀ pid, a.newPid = some pid → s.procs pid = none →
    ∀ n d i, s.dirs n = some d → d.pidfile ≠ some (pid, i)

/-- The process at a pid fills the directory it has recorded. -/
theorem Site.Inv.copied {s : Site} (h : s.Inv) {pid : Nat} {p : Proc} (hp : s.procs pid = some p)
    (hstage : p.stage = .recorded) :
    ((s.setDir ⟨pid, p.seq⟩ (some ⟨s.ownerAt pid p, none, none⟩)).setProc pid
      (some { p with stage := .copied })).Inv := by
  obtain ⟨e, he, hinc⟩ := h.staged pid p hp (by simp [hstage, Stage.Recorded])
  have hdir := h.setDir_some (n := ⟨pid, p.seq⟩) (d := ⟨s.ownerAt pid p, none, none⟩)
    (h.ownerAt_known hp p.seq) nofun (fun _ => ⟨e, he, hinc⟩)
    (fun q hq _ => by
      rw [Option.some.inj (hq.symm.trans hp), hstage]
      exact nofun) nofun
  exact hdir.setProc_some hp rfl rfl (fun _ => ⟨e, he, hinc⟩) nofun

/-- The process at a pid marks the directory it has filled. -/
theorem Site.Inv.marked {s : Site} (h : s.Inv) {pid : Nat} {p : Proc} {d : Dir}
    (hp : s.procs pid = some p) (hd : s.dirs ⟨pid, p.seq⟩ = some d) (hstage : p.stage = .copied) :
    ((s.setDir ⟨pid, p.seq⟩ (some { d with marker := some (s.ownerAt pid p) })).setProc pid
      (some { p with stage := .marked })).Inv := by
  obtain ⟨e, he, hinc⟩ := h.staged pid p hp (by simp [hstage, Stage.Recorded])
  have hdir := h.setDir_some (n := ⟨pid, p.seq⟩)
    (d := { d with marker := some (s.ownerAt pid p) }) (h.dirs _ d hd)
    (fun o ho => Option.some.inj ho ▸ h.ownerAt_known hp p.seq) (h.backed _ d hd)
    (fun q hq _ => by
      rw [Option.some.inj (hq.symm.trans hp), hstage]
      exact nofun) (h.pidfiles _ d · hd)
  exact hdir.setProc_some hp rfl rfl (fun _ => ⟨e, he, hinc⟩) nofun

/-- A postmaster starts in the directory of the process at a pid. -/
theorem Site.Inv.started {s : Site} (h : s.Inv) {pid postmaster : Nat} {p : Proc} {d : Dir}
    (hp : s.procs pid = some p) (hd : s.dirs ⟨pid, p.seq⟩ = some d) (hstage : p.stage = .marked)
    (lstart : Option String) (hzero : postmaster ≠ 0) (hfree : s.procs postmaster = none)
    (hnamed : ∀ n d i, s.dirs n = some d → d.pidfile ≠ some (postmaster, i)) :
    (((s.spawned postmaster lstart).setDir ⟨pid, p.seq⟩
      (some { d with pidfile := some (postmaster, s.fresh) })).setProc pid
      (some { p with stage := .running })).Inv := by
  obtain ⟨e, he, hinc⟩ := h.staged pid p hp (by simp [hstage, Stage.Recorded])
  have hspawned := h.spawned lstart hzero hnamed
  have hp' := Site.spawned_procs_of_some hp hfree lstart
  have hdir := hspawned.setDir_some (n := ⟨pid, p.seq⟩)
    (d := { d with pidfile := some (postmaster, s.fresh) })
    (hspawned.dirs _ d hd) (hspawned.markers _ d · hd) (hspawned.backed _ d hd)
    (fun q hq _ => by
      rw [Option.some.inj (hq.symm.trans hp'), hstage]
      exact nofun)
    (by
      rintro pm hpm q hq
      obtain rfl := Option.some.inj hpm
      rw [Site.spawned_procs, if_pos rfl] at hq
      rw [← Option.some.inj hq])
  exact hdir.setProc_some hp' rfl rfl (fun _ => ⟨e, he, hinc⟩) nofun

/-- The process at a pid forgets the entry of the directory it removed. -/
theorem Site.Inv.forgotten {s : Site} (h : s.Inv) {pid : Nat} {p : Proc}
    (hp : s.procs pid = some p) (hstage : p.stage = .emptied) :
    ((s.setEntry ⟨pid, p.seq⟩ none).setProc pid (some { p with stage := .idle })).Inv := by
  -- The entry and the stage change together: the stage first, which needs no entry.
  have hidle : (s.setProc pid (some { p with stage := .idle })).Inv :=
    h.setProc_some hp rfl rfl (fun hr => absurd rfl hr.1) nofun
  refine hidle.setEntry_none (n := ⟨pid, p.seq⟩) ?_ ?_
  · intro d hd
    have hnone := h.emptied pid p hp hstage
    exact absurd (hnone.symm.trans hd) nofun
  · intro q hq _
    rw [Site.setProc_procs, if_pos rfl] at hq
    rw [← Option.some.inj hq]
    exact fun hr => absurd rfl hr.1

theorem orchestratorStep_inv {s : Site} (h : s.Inv) {pid : Nat} {p : Proc}
    (hp : s.procs pid = some p) {a : SiteAction} (hfresh : a.FreshPid s) :
    (orchestratorStep s pid p a).Inv := by
  cases a with
  | spawn _ _ => exact h
  | exit _ => exact h
  | shutdown _ => exact h
  | begin _ =>
      simp only [orchestratorStep]
      split
      · exact h.setProc_some hp rfl rfl (fun hr => absurd rfl hr.2) nofun
      · exact h
  | clearOld _ =>
      simp only [orchestratorStep]
      split
      · exact h.setDir_none _
      · exact h
  | record _ =>
      simp only [orchestratorStep]
      split
      · have hentry := h.setEntry_own (n := ⟨pid, p.seq⟩) (e := ⟨s.ownerAt pid p, s.now⟩) hp
          (h.ownerAt_known hp p.seq) rfl
        exact hentry.setProc_some hp rfl rfl
          (fun _ => ⟨⟨s.ownerAt pid p, s.now⟩, by simp [Site.setEntry], rfl⟩) nofun
      · exact h
  | copy _ =>
      simp only [orchestratorStep]
      split
      next hstage =>
        exact h.copied hp hstage.1
      next => exact h
  | mark _ =>
      simp only [orchestratorStep]
      split
      next d hd =>
        split
        next hstage =>
          exact h.marked hp hd hstage
        next => exact h
      next => exact h
  | start _ postmaster lstart =>
      simp only [orchestratorStep]
      split
      next d hd =>
        split
        next hstage =>
          exact h.started hp hd hstage.1 lstart hstage.2.1 hstage.2.2
            (hfresh postmaster rfl hstage.2.2)
        next => exact h
      next => exact h
  | giveUp _ => exact h.setProc_some hp rfl rfl (fun hr => absurd rfl hr.1) nofun
  | removeOwn _ =>
      simp only [orchestratorStep]
      split
      next hstage =>
        obtain ⟨e, he, hinc⟩ := h.staged pid p hp (by simp [hstage, Stage.Recorded])
        exact (h.setDir_none ⟨pid, p.seq⟩).setProc_some hp rfl rfl (fun _ => ⟨e, he, hinc⟩)
          (fun _ => by simp [Site.setDir])
      next => exact h
  | forgetOwn _ =>
      simp only [orchestratorStep]
      split
      next hstage =>
        exact h.forgotten hp hstage
      next => exact h

theorem shutdownStep_inv {s : Site} (h : s.Inv) (n : CloneName) : (shutdownStep s n).Inv := by
  unfold shutdownStep
  split
  next d hd =>
    split
    next q i hpm =>
      split
      next hpost =>
        have hgone := h.setProc_none q
        refine hgone.setDir_some (hgone.dirs n d hd) (hgone.markers n d · hd) (hgone.backed n d hd)
          ?_ nofun
        intro p hp hseq hstage
        have hnone := hgone.emptied n.pid p hp hstage
        rw [hseq] at hnone
        exact absurd (hnone.symm.trans hd) nofun
      next => exact h
    next => exact h
  next => exact h

/-- The orchestrators keep the invariant among themselves, whatever the order of their
steps. -/
theorem siteStep_inv {s : Site} (h : s.Inv) {a : SiteAction} (hfresh : a.FreshPid s) :
    (siteStep a s).Inv := by
  have horchestrator : (match s.procs a.pid with
      | some p => orchestratorStep s a.pid p a
      | none => s).Inv := by
    split
    next p hp => exact orchestratorStep_inv h hp hfresh
    next => exact h
  cases a with
  | spawn pid lstart =>
      simp only [siteStep]
      split
      next hfree => exact h.spawned lstart hfree.1 (hfresh pid rfl hfree.2)
      next => exact h
  | exit pid => exact h.setProc_none pid
  | shutdown n => exact shutdownStep_inv h n
  | _ => exact horchestrator

/-- What the reaper sees of a step of the others. -/
structure Site.Moves (s s' : Site) (written : Option CloneName) : Prop where
  later : s.Later s'
  now : s.now ≤ s'.now
  ledger : ∀ n e, s'.ledger n = some e →
    s.ledger n = some e ∨ written = some n ∧ e.recordedAt = s.now

theorem Site.Moves.of_later {s s' : Site} {written : Option CloneName} (hlater : s.Later s')
    (hnow : s'.now = s.now) (hledger : s'.ledger = s.ledger) : s.Moves s' written :=
  ⟨hlater, Nat.le_of_eq hnow.symm, fun _ _ he => .inl (hledger ▸ he)⟩

theorem orchestratorStep_moves {s : Site} {pid : Nat} {p : Proc} (hp : s.procs pid = some p)
    {a : SiteAction} (ha : a.pid = pid) :
    s.Moves (orchestratorStep s pid p a) (a.recordedName s) := by
  have hsame : s.Moves s (a.recordedName s) := .of_later (.of_eq rfl rfl) rfl rfl
  cases a with
  | spawn _ _ => exact hsame
  | exit _ => exact hsame
  | shutdown _ => exact hsame
  | begin _ =>
      simp only [orchestratorStep]
      split
      · exact .of_later (Site.later_setProc_some hp rfl rfl) rfl rfl
      · exact hsame
  | clearOld _ =>
      simp only [orchestratorStep]
      split
      · exact .of_later (.of_eq rfl rfl) rfl rfl
      · exact hsame
  | record recorder =>
      simp only [orchestratorStep]
      split
      next hstage =>
        obtain rfl : recorder = pid := ha
        refine ⟨.setProc_some hp rfl rfl (.of_eq rfl rfl), Nat.le_refl _, ?_⟩
        intro n e he
        by_cases hn : n = ⟨recorder, p.seq⟩
        · refine .inr ⟨?_, ?_⟩
          · simp [SiteAction.recordedName, hp, hstage, hn]
          · have hentry : ⟨s.ownerAt recorder p, s.now⟩ = e := by
              simpa [Site.setProc, Site.setEntry, hn] using he
            rw [← hentry]
        · exact .inl (by simpa [Site.setProc, Site.setEntry, hn] using he)
      next => exact hsame
  | copy _ =>
      simp only [orchestratorStep]
      split
      · exact .of_later (.setProc_some hp rfl rfl (.of_eq rfl rfl)) rfl rfl
      · exact hsame
  | mark _ =>
      simp only [orchestratorStep]
      split
      · split
        · exact .of_later (.setProc_some hp rfl rfl (.of_eq rfl rfl)) rfl rfl
        · exact hsame
      · exact hsame
  | start _ postmaster lstart =>
      simp only [orchestratorStep]
      split
      next d hd =>
        split
        next hstage =>
          have hp' := Site.spawned_procs_of_some hp hstage.2.2 lstart
          have hdir : s.Later ((s.spawned postmaster lstart).setDir ⟨pid, p.seq⟩
              (some { d with pidfile := some (postmaster, s.fresh) })) :=
            (s.later_spawned postmaster lstart).trans (.of_eq rfl rfl)
          exact .of_later (.setProc_some hp' rfl rfl hdir) rfl rfl
        next => exact hsame
      next => exact hsame
  | giveUp _ => exact .of_later (Site.later_setProc_some hp rfl rfl) rfl rfl
  | removeOwn _ =>
      simp only [orchestratorStep]
      split
      · exact .of_later (.setProc_some hp rfl rfl (.of_eq rfl rfl)) rfl rfl
      · exact hsame
  | forgetOwn _ =>
      simp only [orchestratorStep]
      split
      · refine ⟨.setProc_some hp rfl rfl (.of_eq rfl rfl), Nat.le_refl _, ?_⟩
        intro n e he
        by_cases hn : n = ⟨pid, p.seq⟩
        · simp [Site.setProc, Site.setEntry, hn] at he
        · exact .inl (by simpa [Site.setProc, Site.setEntry, hn] using he)
      · exact hsame

theorem siteStep_moves (s : Site) (a : SiteAction) : s.Moves (siteStep a s) (a.recordedName s) := by
  have hsame : s.Moves s (a.recordedName s) := .of_later (.of_eq rfl rfl) rfl rfl
  have horchestrator : s.Moves (match s.procs a.pid with
      | some p => orchestratorStep s a.pid p a
      | none => s) (a.recordedName s) := by
    split
    next p hp => exact orchestratorStep_moves hp rfl
    next => exact hsame
  cases a with
  | spawn pid lstart =>
      simp only [siteStep]
      split
      · exact .of_later (s.later_spawned pid lstart) rfl rfl
      · exact hsame
  | exit pid => exact .of_later (s.later_setProc_none pid) rfl rfl
  | shutdown n =>
      simp only [siteStep, shutdownStep]
      split
      · split
        · split
          · exact .of_later ((s.later_setProc_none _).trans (.of_eq rfl rfl)) rfl rfl
          · exact hsame
        · exact hsame
      · exact hsame
  | _ => exact horchestrator

/-! ## What the reaper knows -/

/-- The reaper holds an entry of that name, and has yet to act on it. -/
def Loop.Pending (n : CloneName) : Loop → Prop
  | .ledger snapshot done _ => (snapshot.entries n).isSome ∧ n ∉ done
  | .sweep _ _ => False

def Reaper.Pending (n : CloneName) : Reaper → Prop
  | .looping loop => loop.Pending n
  | .destroying _ m loop => n = m ∨ loop.Pending n
  | _ => False

/-- The pid that the reaper is about to signal. -/
def Part.target : Part → Option (Nat × Nat)
  | .interrupt pm => some pm
  | .waiting pm => some pm
  | .quit pm => some pm
  | _ => none

def Reaper.target : Reaper → Option (Nat × Nat)
  | .destroying part _ _ => part.target
  | _ => none

/-- No entry of that name has a live owner. -/
def Site.Ownerless (s : Site) (n : CloneName) : Prop :=
  ∀ e, s.ledger n = some e → ¬ e.owner.Alive s

def Loop.Inv (s : Site) : Loop → Prop
  | .ledger snapshot done _ => ∀ n e, snapshot.entries n = some e →
      e.owner.Known s n ∧ (n ∉ done → ∀ e', s.ledger n = some e' → e' = e)
  | .sweep snapshot _ => snapshot.takenAt ≤ s.now ∧
      ∀ n e, s.ledger n = some e → e.recordedAt < snapshot.takenAt → snapshot.entries n = some e

def ReaperInv (s : Site) : Reaper → Prop
  | .idle => True
  | .looping loop => loop.Inv s
  | .opened _ => True
  | .marking snapshot alarmed n => (Loop.sweep snapshot alarmed).Inv s ∧
      ∀ e, s.ledger n = some e → e.recordedAt < snapshot.takenAt → ¬ e.owner.Alive s
  | .destroying part n loop => loop.Inv s ∧ s.Ownerless n ∧
      ∀ pm, part.target = some pm → ∀ p, s.procs pm.1 = some p → p.incarnation = pm.2

/-- The steps that a safe run takes. -/
structure World.Allowed (w : World) (a : Action) : Prop where
  /-- A pid is given away again only when no pid file names it, and the reaper does not wait
  for it. -/
  pids : ∀ b, a = .site b → b.FreshPid w.site ∧
    ∀ pid, b.newPid = some pid → w.site.procs pid = none → ∀ i, w.reaper.target ≠ some (pid, i)
  /-- No clone is recorded under a name that the reaper is at. -/
  names : ∀ b n, a = .site b → b.recordedName w.site = some n → ¬ w.reaper.Pending n
  /-- When the sweep looks for a marker, an owner that is running was recorded before the
  snapshot or has put its marker down. -/
  markers : a = .reaper .checkMarker → ∀ snapshot alarmed n,
    w.reaper = .marking snapshot alarmed n → ∀ e, w.site.ledger n = some e →
      e.owner.Alive w.site → e.recordedAt < snapshot.takenAt ∨
        ∃ d o, w.site.dirs n = some d ∧ d.marker = some o ∧
          o.incarnation = e.owner.incarnation

theorem siteStep_procs {s : Site} {a : SiteAction} {pid : Nat} {p' : Proc}
    (h : (siteStep a s).procs pid = some p') :
    (∃ p, s.procs pid = some p ∧ p.incarnation = p'.incarnation) ∨
      a.newPid = some pid ∧ s.procs pid = none := by
  cases a <;>
    simp only [siteStep, orchestratorStep, shutdownStep, SiteAction.newPid,
      SiteAction.pid] at h ⊢ <;>
    grind [Site.spawned_procs, Site.setProc_procs, Site.setDir_procs, Site.setEntry_procs]

theorem Loop.Inv.moves {s s' : Site} {written : Option CloneName} {loop : Loop} (h : loop.Inv s)
    (hmoves : s.Moves s' written) (hnames : ∀ n, written = some n → ¬ loop.Pending n) :
    loop.Inv s' := by
  cases loop with
  | ledger snapshot done alarmed =>
      intro n e he
      obtain ⟨hknown, hpending⟩ := h n e he
      refine ⟨hknown.later hmoves.later, ?_⟩
      intro hn e' he'
      rcases hmoves.ledger n e' he' with hold | ⟨hwritten, -⟩
      · exact hpending hn e' hold
      · exact absurd ⟨by simp [he], hn⟩ (hnames n hwritten)
  | sweep snapshot alarmed =>
      refine ⟨Nat.le_trans h.1 hmoves.now, ?_⟩
      intro n e he hbefore
      rcases hmoves.ledger n e he with hold | ⟨-, hnow⟩
      · exact h.2 n e hold hbefore
      · have htaken := h.1
        omega

theorem Site.Ownerless.moves {s s' : Site} {written : Option CloneName} {n : CloneName}
    (hinv : s.Inv) (h : s.Ownerless n) (hmoves : s.Moves s' written) (hn : written ≠ some n) :
    s'.Ownerless n := by
  intro e he halive
  rcases hmoves.ledger n e he with hold | ⟨hwritten, -⟩
  · exact h e hold ((hinv.entries n e hold).alive_of_later hmoves.later halive)
  · exact hn hwritten

/-- The reaper's knowledge outlives the steps of the others. -/
theorem ReaperInv.moves {s s' : Site} {written : Option CloneName} {r : Reaper} (hinv : s.Inv)
    (h : ReaperInv s r) (hmoves : s.Moves s' written)
    (hnames : ∀ n, written = some n → ¬ r.Pending n)
    (htarget : ∀ pm p', r.target = some pm → s'.procs pm.1 = some p' →
      ∃ p, s.procs pm.1 = some p ∧ p.incarnation = p'.incarnation) : ReaperInv s' r := by
  cases r with
  | idle => trivial
  | opened alarmed => trivial
  | looping loop => exact Loop.Inv.moves h hmoves hnames
  | marking snapshot alarmed n =>
      refine ⟨h.1.moves hmoves fun _ _ => id, ?_⟩
      intro e he hbefore halive
      rcases hmoves.ledger n e he with hold | ⟨-, hnow⟩
      · exact h.2 e hold hbefore ((hinv.entries n e hold).alive_of_later hmoves.later halive)
      · have htaken := h.1.1
        omega
  | destroying part n loop =>
      obtain ⟨hloop, hownerless, hpart⟩ := h
      refine ⟨hloop.moves hmoves fun m hm hpending => hnames m hm (.inr hpending),
        hownerless.moves hinv hmoves fun hn => hnames n hn (.inl rfl), ?_⟩
      intro pm hpm p' hp'
      obtain ⟨p, hp, hinc⟩ := htarget pm p' hpm hp'
      exact hinc ▸ hpart pm hpm p hp

/-- A clone whose entry has no live owner is in nobody's hands. -/
theorem Site.Ownerless.dir {s : Site} {n : CloneName} (h : s.Ownerless n) (hinv : s.Inv) {d : Dir}
    (hd : s.dirs n = some d) : ¬ d.owner.Alive s := by
  intro halive
  obtain ⟨e, he, hinc⟩ := hinv.backed n d hd halive
  obtain ⟨p, hp, hpi⟩ := (hinv.dirs n d hd).alive_iff.mp halive
  exact h e he ((hinv.entries n e he).alive_iff.mpr ⟨p, hp, hpi.trans hinc.symm⟩)

theorem Site.Ownerless.stage {s : Site} {n : CloneName} (h : s.Ownerless n) (hinv : s.Inv)
    {p : Proc} (hp : s.procs n.pid = some p) (hseq : p.seq = n.seq) : ¬ p.stage.Recorded := by
  intro hstage
  obtain ⟨e, he, hinc⟩ := hinv.staged n.pid p hp hstage
  rw [hseq] at he
  exact h e he ((hinv.entries n e he).alive_iff.mpr ⟨p, hp, hinc.symm⟩)

/-! ## The steps of the reaper, kept -/

/-- The reaper changes the machine in two places. -/
theorem reaperStep_cases (a : ReaperAction) (s : Site) (r : Reaper) :
    (reaperStep a s r).1 = s ∨
      (∃ n loop, r = .destroying .remove n loop ∧ (reaperStep a s r).1 = s.setDir n none) ∨
      ∃ n loop, r = .destroying .forget n loop ∧ (reaperStep a s r).1 = s.setEntry n none := by
  unfold reaperStep
  split
  case h_11 n loop => exact .inr (.inl ⟨n, loop, rfl, rfl⟩)
  case h_14 n loop => exact .inr (.inr ⟨n, loop, rfl, rfl⟩)
  all_goals left
  all_goals (repeat' split) <;> rfl

theorem reaperStep_site {a : ReaperAction} {s : Site} {r : Reaper} (hinv : s.Inv)
    (h : ReaperInv s r) : (reaperStep a s r).1.Inv ∧ s.Moves (reaperStep a s r).1 none ∧
      (reaperStep a s r).1.procs = s.procs := by
  rcases reaperStep_cases a s r with hsame | ⟨n, loop, rfl, hremove⟩ | ⟨n, loop, rfl, hforget⟩
  · rw [hsame]
    exact ⟨hinv, .of_later (.of_eq rfl rfl) rfl rfl, rfl⟩
  · rw [hremove]
    exact ⟨hinv.setDir_none n, .of_later (.of_eq rfl rfl) rfl rfl, rfl⟩
  · rw [hforget]
    refine ⟨hinv.setEntry_none (fun d hd => h.2.1.dir hinv hd)
      (fun p hp hseq => h.2.1.stage hinv hp hseq), ⟨.of_eq rfl rfl, Nat.le_refl _, ?_⟩, rfl⟩
    intro m e he
    by_cases hm : m = n
    · simp [Site.setEntry, hm] at he
    · exact .inl (by simpa [Site.setEntry, hm] using he)

/-- The first loop destroys a clone only when the owner on its entry is gone, and the entry is
still the one that was read. -/
theorem checkOwner_ownerless {s : Site} (hinv : s.Inv) {snapshot : Snapshot}
    {done alarmed : List CloneName} (h : (Loop.ledger snapshot done alarmed).Inv s)
    {n : CloneName} {e : Entry} (he : snapshot.entries n = some e) (hn : n ∉ done)
    (hdead : ¬ e.owner.identity.isLive s.table = true) : s.Ownerless n := by
  intro e' he' halive
  obtain ⟨hknown, hpending⟩ := h n e he
  rw [hpending hn e' he'] at halive
  exact hdead (hknown.isLive hinv.zero halive)

/-- The sweep passes over what its snapshot shows to be in use. -/
theorem visit_unproven {s : Site} (hinv : s.Inv) {snapshot : Snapshot} {alarmed : List CloneName}
    (h : (Loop.sweep snapshot alarmed).Inv s) {n : CloneName}
    (hdead : ¬ (snapshot.entries n).any (fun e => e.owner.identity.isLive s.table) = true)
    {e : Entry} (he : s.ledger n = some e) (hbefore : e.recordedAt < snapshot.takenAt) :
    ¬ e.owner.Alive s := by
  intro halive
  rw [h.2 n e he hbefore] at hdead
  exact hdead ((hinv.entries n e he).isLive hinv.zero halive)

/-- Nor does it destroy a directory with the marker of a live owner. -/
theorem checkMarker_ownerless {s : Site} (hinv : s.Inv) {snapshot : Snapshot} {n : CloneName}
    (hold : ∀ e, s.ledger n = some e → e.recordedAt < snapshot.takenAt → ¬ e.owner.Alive s)
    (hdead : ¬ ((s.dirs n).bind Dir.marker).any (fun o => o.identity.isLive s.table) = true)
    (hmarked : ∀ e, s.ledger n = some e → e.owner.Alive s → e.recordedAt < snapshot.takenAt ∨
      ∃ d o, s.dirs n = some d ∧ d.marker = some o ∧ o.incarnation = e.owner.incarnation) :
    s.Ownerless n := by
  intro e he halive
  rcases hmarked e he halive with hbefore | ⟨d, o, hd, ho, hinc⟩
  · exact hold e he hbefore halive
  · obtain ⟨p, hp, hpi⟩ := (hinv.entries n e he).alive_iff.mp halive
    have hknown := hinv.markers n d o hd ho
    have hlive := hknown.isLive hinv.zero (hknown.alive_iff.mpr ⟨p, hp, hpi.trans hinc.symm⟩)
    rw [hd] at hdead
    simp [ho, hlive] at hdead

/-- What the reaper knows after a step of its own. -/
theorem reaperStep_inv {a : ReaperAction} {s : Site} {r : Reaper} (hinv : s.Inv)
    (h : ReaperInv s r) (hallowed : (World.mk s r).Allowed (.reaper a)) :
    ReaperInv s (reaperStep a s r).2 := by
  unfold reaperStep
  split
  next =>
    -- The ledger is read.
    intro n e he
    exact ⟨hinv.entries n e he, fun _ e' he' => Option.some.inj (he'.symm.trans he)⟩
  next n snapshot done alarmed =>
    split
    next e he =>
      split
      · exact h
      next hn =>
        have hrest : (Loop.ledger snapshot (n :: done) alarmed).Inv s := by
          intro m e' he'
          obtain ⟨hknown, hpending⟩ := h m e' he'
          exact ⟨hknown, fun hm => hpending fun hdone => hm (List.mem_cons_of_mem n hdone)⟩
        split
        · exact hrest
        next hdead =>
          have hloop : (Loop.ledger snapshot done alarmed).Inv s := h
          exact ⟨hrest, checkOwner_ownerless hinv hloop he hn hdead, nofun⟩
    next => exact h
  next => trivial
  next => exact ⟨Nat.le_refl _, fun n e he _ => he⟩
  next n snapshot alarmed =>
    split
    · exact h
    · split
      · exact h
      next hdead =>
        have hloop : (Loop.sweep snapshot alarmed).Inv s := h
        exact ⟨h, fun e he hbefore => visit_unproven hinv hloop hdead he hbefore⟩
  next snapshot alarmed n =>
    split
    · exact h.1
    next hdead =>
      exact ⟨h.1, checkMarker_ownerless hinv h.2 hdead
        (hallowed.markers rfl snapshot alarmed n rfl), nofun⟩
  next n loop =>
    split
    next pm hpm =>
      split
      next hpid =>
        refine ⟨h.1, h.2.1, ?_⟩
        rintro pm' hpm' p hp
        obtain rfl := Option.some.inj hpm'
        obtain ⟨d, hd, hdpm⟩ := Option.bind_eq_some_iff.mp hpm
        exact hinv.pidfiles n d pm hd hdpm p hp
      · exact ⟨h.1, h.2.1, nofun⟩
    · exact ⟨h.1, h.2.1, nofun⟩
  next => exact h
  next =>
    split
    · exact h
    · exact ⟨h.1, h.2.1, nofun⟩
  next => exact ⟨h.1, h.2.1, nofun⟩
  next => exact ⟨h.1, h.2.1, nofun⟩
  next => exact ⟨h.1, h.2.1, nofun⟩
  next =>
    split
    · exact h.1
    · exact ⟨h.1, h.2.1, nofun⟩
  next => exact h.1
  next => trivial
  next => trivial
  next => exact h

/-! ## Whole runs -/

def World.Inv (w : World) : Prop := w.site.Inv ∧ ReaperInv w.site w.reaper

theorem Site.Moves.tickClock {s s' : Site} {written : Option CloneName} (h : s.Moves s' written) :
    s.Moves s'.tickClock written :=
  ⟨h.later.trans (.of_eq rfl rfl), Nat.le_succ_of_le h.now, h.ledger⟩

theorem World.next_inv {w : World} (h : w.Inv) {a : Action} (hallowed : w.Allowed a) :
    (w.next a).Inv := by
  obtain ⟨hinv, hreaper⟩ := h
  cases a with
  | site b =>
      obtain ⟨hfresh, haimed⟩ := hallowed.pids b rfl
      refine ⟨(siteStep_inv hinv hfresh).tickClock, ?_⟩
      refine hreaper.moves hinv (siteStep_moves w.site b).tickClock
        (fun n hn => hallowed.names b n rfl hn) ?_
      intro pm p' htarget hp'
      rcases siteStep_procs hp' with hold | ⟨hnew, hfree⟩
      · exact hold
      · exact absurd htarget (haimed pm.1 hnew hfree pm.2)
  | reaper b =>
      obtain ⟨hsite, hmoves, hprocs⟩ := reaperStep_site (a := b) hinv hreaper
      refine ⟨hsite.tickClock, ?_⟩
      refine (reaperStep_inv hinv hreaper hallowed).moves hinv hmoves.tickClock nofun ?_
      intro pm p' _ hp'
      exact ⟨p', by rw [← hprocs]; exact hp', rfl⟩

/-- A step of the reaper takes nothing from the living. -/
theorem World.Inv.safe {w : World} (h : w.Inv) (a : Action) : w.Safe a := by
  obtain ⟨hinv, hreaper⟩ := h
  refine ⟨?_, ?_, ?_⟩
  · intro n hn d hd
    unfold World.removes at hn
    split at hn
    · split at hn
      next m loop hr =>
        obtain rfl := Option.some.inj hn
        rw [hr] at hreaper
        exact hreaper.2.1.dir hinv hd
      · cases hn
    · cases hn
  · intro n hn e he
    unfold World.forgets at hn
    split at hn
    · split at hn
      next m loop hr =>
        obtain rfl := Option.some.inj hn
        rw [hr] at hreaper
        exact hreaper.2.1 e he
      · cases hn
    · cases hn
  · intro pm hpm p hp
    unfold World.signals at hpm
    split at hpm
    · split at hpm
      next m loop hr =>
        rw [hr] at hreaper
        exact hreaper.2.2 pm hpm p hp
      next m loop hr =>
        rw [hr] at hreaper
        exact hreaper.2.2 pm hpm p hp
      · cases hpm
    · cases hpm

theorem World.empty_inv : World.empty.Inv :=
  ⟨{ zero := rfl
     procs := nofun
     entries := nofun
     dirs := nofun
     markers := nofun
     backed := nofun
     staged := nofun
     emptied := nofun
     pidfiles := nofun }, trivial⟩

/-- One orchestrator has a clone running, another does not outlive its base backup. -/
def abandonedBackup : List Action :=
  [.site (.spawn 7 (some "Mon Jun 1 10:00:00 2026")),
    .site (.spawn 8 (some "Mon Jun 1 10:05:00 2026")), .site (.begin 7), .site (.begin 8),
    .site (.record 7), .site (.record 8), .site (.copy 8), .site (.mark 8),
    .site (.start 8 9 (some "Mon Jun 1 10:06:00 2026")), .site (.copy 7), .site (.exit 7),
    .reaper .readLedger, .reaper (.checkOwner ⟨8, 1⟩), .reaper (.checkOwner ⟨7, 1⟩),
    .reaper .readPidfile, .reaper .remove, .reaper .checkGone, .reaper .forget,
    .reaper .openRoot, .reaper .snapshot, .reaper (.visit ⟨8, 1⟩), .reaper .finish]

/-- A step of the site that starts no process and records no clone is allowed anywhere. -/
theorem World.allowed_site (w : World) {b : SiteAction} (hpid : b.newPid = none)
    (hname : b.recordedName w.site = none) : w.Allowed (.site b) := by
  refine ⟨?_, ?_, fun h => by cases h⟩
  · intro b' hb
    cases hb
    refine ⟨fun pid hnew => ?_, fun pid hnew => ?_⟩ <;>
    · rw [hpid] at hnew
      cases hnew
  · intro b' n hb hn
    cases hb
    rw [hname] at hn
    cases hn

/-- Where no directory has a pid file and the reaper has not begun, the site may do
anything. -/
theorem World.allowed_at_rest (w : World) {b : SiteAction}
    (hdirs : ∀ n d, w.site.dirs n = some d → d.pidfile = none) (hreaper : w.reaper = .idle) :
    w.Allowed (.site b) := by
  refine ⟨?_, ?_, fun h => by cases h⟩
  · intro b' _
    constructor
    · intro pid _ _ n d i hd
      rw [hdirs n d hd]
      exact nofun
    · intro pid _ _ i htarget
      rw [hreaper] at htarget
      cases htarget
  · intro b' n _ _ hpending
    rw [hreaper] at hpending
    exact hpending

/-- Before the first data directory is made, the site may do anything. -/
theorem World.allowed_without_dirs (w : World) {b : SiteAction}
    (hdirs : w.site.dirs = fun _ => none) (hreaper : w.reaper = .idle) :
    w.Allowed (.site b) := by
  refine w.allowed_at_rest (fun n d hd => ?_) hreaper
  rw [hdirs] at hd
  cases hd

/-- A step of the reaper that reads no marker is allowed anywhere. -/
theorem World.allowed_reaper (w : World) {a : ReaperAction} (hmarker : a ≠ .checkMarker) :
    w.Allowed (.reaper a) := by
  constructor
  · intro b hb
    cases hb
  · intro b n hb
    cases hb
  · intro h
    exact absurd (Action.reaper.inj h) hmarker

theorem abandonedBackup_allowed :
    ∀ r ∈ (run step abandonedBackup World.empty).1, r.before.Allowed r.action := by
  intro r hr
  simp only [abandonedBackup, run, step, List.mem_cons, List.not_mem_nil, or_false] at hr
  rcases hr with rfl | rfl | rfl | rfl | rfl | rfl | rfl | rfl | rfl | rfl | rfl | rfl | rfl |
    rfl | rfl | rfl | rfl | rfl | rfl | rfl | rfl | rfl
  · exact World.allowed_without_dirs _ rfl rfl
  · exact World.allowed_without_dirs _ rfl rfl
  · exact World.allowed_site _ rfl rfl
  · exact World.allowed_site _ rfl rfl
  · exact World.allowed_without_dirs _ rfl rfl
  · exact World.allowed_without_dirs _ rfl rfl
  · exact World.allowed_site _ rfl rfl
  · exact World.allowed_site _ rfl rfl
  · refine World.allowed_at_rest _ (fun n d hd => ?_) rfl
    have hown : Function.update (Function.update (fun _ => none) (⟨8, 1⟩ : CloneName)
        (some ⟨_, none, none⟩)) ⟨8, 1⟩ (some ⟨_, some _, none⟩) n = some d := hd
    rw [Function.update_apply, Function.update_apply] at hown
    split at hown
    · exact Option.some.inj hown ▸ rfl
    · cases hown
  · exact World.allowed_site _ rfl rfl
  · exact World.allowed_site _ rfl rfl
  all_goals exact World.allowed_reaper _ (fun h => by cases h)

/-- A provision that begins when the sweep has read the ledger, and is at its base backup when
the sweep comes to its directory. -/
def racingProvision : List Action :=
  [.site (.spawn 7 (some "Mon Jun 1 10:00:00 2026")), .reaper .readLedger, .reaper .openRoot,
    .reaper .snapshot, .site (.begin 7), .site (.record 7), .site (.copy 7),
    .reaper (.visit ⟨7, 1⟩), .reaper .checkMarker, .reaper .readPidfile, .reaper .remove]

end PgBrakes.Ports.ReaperRace
