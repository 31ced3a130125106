import PgBrakes.Verified.Effect
import PgBrakes.Ports.CloneLedger
import Mathlib.Data.List.TakeWhile

/-!
# Clones and their teardown

A port of `with_clone` of `crates/clone-orchestrator/src/provider.rs` and of the local
provider of `provider/local.rs`.  A clone is recorded in the ledger, copied from the primary
and started; the body runs against it, and it is destroyed.  Every step that leaves the
process may fail, and `Environment` says how each of them answers.

The disk is seen at the two places a clone takes up, its directory and its entry in the
ledger.  What is there may be from before the call or made by it.

## Main results

* `prepare_stops`, `populate_stops` — the steps of `provision` before and after the entry.
* `provision_unprepared`, `provision_unrecorded`, `provision_unpopulated`, `provision_ok` —
  how `provision` ends, and what it leaves.
* `with_clone_tears_down_iff` — when a call leaves nothing behind, or reports that it does.
-/

namespace PgBrakes.Ports.CloneTeardown

open PgBrakes.Verified.Effect
open PgBrakes.Verified.Effect.Eff
open PgBrakes.Ports.CloneLedger
open PgBrakes.Ports.ExplainGate (isWhitespace)

/-! ## Governance -/

inductive DataClassification where
  | prodPii
  | synthetic
deriving DecidableEq

structure CloneGovernance where
  encryptionAtRest : Bool
  accessLog : String
  owner : String
  location : String
  classification : DataClassification
deriving DecidableEq

/-- `s.trim().is_empty()`. -/
def isBlank (s : String) : Bool := decide (trim s.toList = [])

namespace CloneGovernance

def noncompliance (g : CloneGovernance) : Option String :=
  if !g.encryptionAtRest then some "clone is not encrypted at rest (SPEC §4)"
  else if isBlank g.accessLog then some "clone is not access-logged (SPEC §4)"
  else if isBlank g.owner then some "clone has no documented owner (SPEC §4)"
  else if isBlank g.location then some "clone has no documented location (SPEC §4)"
  else if g.classification ≠ .prodPii then
    some "a clone of prod must be prod-PII-classified (SPEC §4 clone = prod-classified)"
  else none

def assertCompliant (g : CloneGovernance) : Except CloneError Unit :=
  match g.noncompliance with
  | some reason => .error (.governance reason)
  | none => .ok ()

end CloneGovernance

inductive ProviderKind where
  | none
  | local
  | dblab
deriving DecidableEq

structure CloneHandle where
  provider : ProviderKind
  cloneId : String
  conn : String
  lsn : String
  stalenessLsnBytes : Nat
  governance : CloneGovernance
deriving DecidableEq

/-! ## The funnel -/

/-- A provider of clones, over whatever it works on. -/
structure CloneProvider (ω : Type) where
  provision : Eff ω CloneError CloneHandle
  destroy : CloneHandle → Eff ω CloneError Unit

/-- A call of `with_clone`: its result, what `destroy` answered if it was called, and what
`on_teardown_err` was called with. -/
structure Returned (ω T : Type) where
  result : Except CloneError T
  destroyed : Option (Except CloneError Unit)
  reported : Option CloneError
  world : ω

def withClone {ω T : Type} (provider : CloneProvider ω)
    (body : CloneHandle → Except CloneError T) (w : ω) : Returned ω T :=
  match provider.provision w with
  | (.error e, w₁) => ⟨.error e, none, none, w₁⟩
  | (.ok handle, w₁) =>
      let destroyed := provider.destroy handle w₁
      match handle.governance.assertCompliant with
      -- The error of this `destroy` is dropped.
      | .error e => ⟨.error e, some destroyed.1, none, destroyed.2⟩
      | .ok () =>
          let reported := match destroyed.1 with
            | .error te => some te
            | .ok () => none
          ⟨body handle, some destroyed.1, reported, destroyed.2⟩

/-! ## The local provider -/

/-- What is at a place on disk. -/
inductive Presence where
  | absent
  | before
  | created
deriving DecidableEq

/-- The provider's counter, and the two places of the clone it makes. -/
structure Site where
  seq : Nat
  datadir : Presence
  entry : Presence
deriving DecidableEq

/-- The answer of a step outside the process. -/
inductive Answer where
  | ok
  | failed (message : String)
deriving DecidableEq

/-- The answer of a tool that is started and waited for. -/
inductive ToolAnswer where
  | ok
  | notSpawned (message : String)
  | failed (status stderr : String)
deriving DecidableEq

/-- How the steps outside the process answer in one call. -/
structure Environment where
  pid : Nat
  createRoot : Answer
  chmodRoot : Answer
  clearDatadir : Answer
  createSock : Answer
  writeEntry : Answer
  /-- Whether a failed write leaves a file. -/
  entryLeft : Bool
  basebackup : ToolAnswer
  /-- Whether a failed base backup leaves a directory. -/
  datadirLeft : Bool
  chmodDatadir : Answer
  writeMarker : Answer
  openConf : Answer
  appendConf : Answer
  start : ToolAnswer
  /-- The position that `psql` reads from the clone, if it does. -/
  lsn : Option String
  removeDatadir : Answer
  removeEntry : Answer

structure PrimaryRef where
  host : String
  port : Nat
  replUser : String
  dbname : String

structure LocalCloneConfig where
  cloneRoot : Path
  clonePort : Nat
  primary : PrimaryRef
  owner : String
  ledgerDir : Path

def check (answer : Answer) (error : String → CloneError) : Eff Site CloneError Unit :=
  match answer with
  | .ok => pure ()
  | .failed message => fail (error message)

/-- `LocalCloneProvider::run`. -/
def runTool (answer : ToolAnswer) (what : String) : Eff Site CloneError Unit :=
  match answer with
  | .ok => pure ()
  | .notSpawned message => fail (.tooling s!"{what}: spawn failed: {message}")
  | .failed status stderr =>
      fail (.provision s!"{what} failed ({status}): {String.ofList (trim stderr.toList)}")

def change (f : Site → Site) : Eff Site CloneError Unit := fun s => (.ok (), f s)

def setMode0700 (answer : Answer) (path : Path) : Eff Site CloneError Unit :=
  check answer fun e => .tooling s!"chmod 0700 {display path}: {e}"

section

variable (cfg : LocalCloneConfig) (env : Environment)

def cloneIdOf (seq : Nat) : String := s!"local-clone-{env.pid}-{seq}"

def datadirOf (cloneId : String) : Path := cfg.cloneRoot ++ [.text cloneId]

/-- What is left of an old clone is removed, and it does not matter whether that works. -/
def clearOld (s : Site) : Site :=
  if s.datadir ≠ .absent ∧ env.clearDatadir = .ok then { s with datadir := .absent } else s

/-- What the write of the entry leaves. -/
def leaveEntry (s : Site) : Site :=
  if env.writeEntry = .ok ∨ env.entryLeft then { s with entry := .created } else s

/-- What the base backup leaves. -/
def leaveDatadir (s : Site) : Site :=
  if env.basebackup = .ok ∨ env.datadirLeft then { s with datadir := .created } else s

/-- The steps up to the ledger entry. -/
def prepare : Eff Site CloneError Unit := do
  check env.createRoot fun e => .tooling s!"clone root {display cfg.cloneRoot}: {e}"
  setMode0700 env.chmodRoot cfg.cloneRoot
  change (clearOld env)
  check env.createSock fun e => .tooling s!"sock dir: {e}"

/-- `CloneLedger::record`. -/
def record (cloneId : String) : Eff Site CloneError Unit := do
  change (leaveEntry env)
  check env.writeEntry fun e =>
    .tooling s!"ledger write {display (entryPath cfg.ledgerDir cloneId)}: {e}"

/-- The steps after it: the copy, its marker and settings, and the start. -/
def populate (cloneId : String) : Eff Site CloneError Unit := do
  let datadir := datadirOf cfg cloneId
  change (leaveDatadir env)
  runTool env.basebackup "pg_basebackup"
  setMode0700 env.chmodDatadir datadir
  check env.writeMarker fun e =>
    .tooling s!"owner marker {display (datadir ++ [ownerMarker])}: {e}"
  let autoConf := datadir ++ [.text "postgresql.auto.conf"]
  check env.openConf fun e => .tooling s!"open {display autoConf}: {e}"
  check env.appendConf fun e => .tooling s!"append {display autoConf}: {e}"
  runTool env.start "pg_ctl start"

def handleOf (cloneId : String) : CloneHandle :=
  let port := cfg.clonePort
  let user := cfg.primary.replUser
  let dbname := cfg.primary.dbname
  { provider := .local
    cloneId := cloneId
    conn := s!"host=127.0.0.1 port={port} user={user} dbname={dbname}"
    lsn := env.lsn.getD "0/0"
    stalenessLsnBytes := 0
    governance :=
      { encryptionAtRest := true
        accessLog := display (cfg.cloneRoot ++ [.text s!"{cloneId}.log"])
        owner := cfg.owner
        location := display (datadirOf cfg cloneId)
        classification := .prodPii } }

def provision : Eff Site CloneError CloneHandle := do
  change fun s => { s with seq := s.seq + 1 }
  let seq ← ask fun s => (s.seq, s)
  let cloneId := cloneIdOf env seq
  prepare cfg env
  record cfg env cloneId
  populate cfg env cloneId
  pure (handleOf cfg env cloneId)

/-- Remove the directory, if there is one. -/
def removeClone (handle : CloneHandle) : Eff Site CloneError Unit := do
  let there ← ask fun s => (decide (s.datadir ≠ .absent), s)
  if there then do
    check env.removeDatadir fun e =>
      .teardown s!"rm datadir {display (datadirOf cfg handle.cloneId)}: {e}"
    change fun s => { s with datadir := .absent }
  else pure ()

/-- `CloneLedger::forget`, for which an entry that is not there is forgotten. -/
def forgetEntry (handle : CloneHandle) : Eff Site CloneError Unit := do
  let recorded ← ask fun s => (decide (s.entry ≠ .absent), s)
  if recorded then do
    check env.removeEntry fun e =>
      .tooling s!"ledger forget {display (entryPath cfg.ledgerDir handle.cloneId)}: {e}"
    change fun s => { s with entry := .absent }
  else pure ()

/-- The postmaster, the socket directory and the log are cleared away whether or not that
works. -/
def destroy (handle : CloneHandle) : Eff Site CloneError Unit := do
  removeClone cfg env handle
  forgetEntry cfg env handle

def localCloneProvider : CloneProvider Site where
  provision := provision cfg env
  destroy := destroy cfg env

end

/-! ## The steps of `provision` -/

/-- A program that stops somewhere, and leaves the disk in a state with `P`. -/
def StopsWith {α : Type} (P : Site → Prop) (m : Eff Site CloneError α) (s : Site) : Prop :=
  ∃ e s', m s = (.error e, s') ∧ P s'

theorem StopsWith.bind {α β : Type} {P : Site → Prop} {m : Eff Site CloneError α} {s : Site}
    (h : StopsWith P m s) (k : α → Eff Site CloneError β) : StopsWith P (m >>= k) s := by
  obtain ⟨e, s', hm, hP⟩ := h
  exact ⟨e, s', bind_of_error hm, hP⟩

theorem StopsWith.after {α β : Type} {P : Site → Prop} {m : Eff Site CloneError α}
    {k : α → Eff Site CloneError β} {s s' : Site} {a : α} (hm : m s = (.ok a, s'))
    (h : StopsWith P (k a) s') : StopsWith P (m >>= k) s := by
  obtain ⟨e, s'', hk, hP⟩ := h
  exact ⟨e, s'', by rw [bind_of_ok hm, hk], hP⟩

theorem runTool_stops {answer : ToolAnswer} (h : answer ≠ .ok) (what : String) {P : Site → Prop}
    {s : Site} (hs : P s) : StopsWith P (runTool answer what) s := by
  cases answer with
  | ok => exact absurd rfl h
  | notSpawned message => exact ⟨_, s, rfl, hs⟩
  | failed status stderr => exact ⟨_, s, rfl, hs⟩

theorem check_stops {answer : Answer} (h : answer ≠ .ok) (error : String → CloneError)
    {P : Site → Prop} {s : Site} (hs : P s) : StopsWith P (check answer error) s := by
  cases answer with
  | ok => exact absurd rfl h
  | failed message => exact ⟨_, s, rfl, hs⟩

namespace Environment

/-- The steps before the ledger entry succeed. -/
def Prepares (env : Environment) : Prop :=
  env.createRoot = .ok ∧ env.chmodRoot = .ok ∧ env.createSock = .ok

/-- The steps after it succeed. -/
def Populates (env : Environment) : Prop :=
  env.basebackup = .ok ∧ env.chmodDatadir = .ok ∧ env.writeMarker = .ok ∧ env.openConf = .ok ∧
    env.appendConf = .ok ∧ env.start = .ok

/-- A clone that was made can be destroyed. -/
def Destroys (env : Environment) : Prop := env.removeDatadir = .ok ∧ env.removeEntry = .ok

end Environment

/-- Nothing of the clone is on disk. -/
def Site.Bare (s : Site) : Prop := s.datadir ≠ .created ∧ s.entry ≠ .created

section

variable (cfg : LocalCloneConfig) (env : Environment)

theorem clearOld_bare {s : Site} (hs : s.Bare) : (clearOld env s).Bare := by
  unfold clearOld
  split
  · exact ⟨Presence.noConfusion, hs.2⟩
  · exact hs

theorem leaveDatadir_entry (s : Site) : (leaveDatadir env s).entry = s.entry := by
  unfold leaveDatadir
  split <;> rfl

theorem prepare_ok (h : env.Prepares) {s : Site} (hs : s.Bare) :
    ∃ s', prepare cfg env s = (.ok (), s') ∧ s'.Bare := by
  obtain ⟨hroot, hmode, hsock⟩ := h
  unfold prepare setMode0700
  rw [hroot, hmode, hsock]
  exact ⟨clearOld env s, rfl, clearOld_bare env hs⟩

theorem prepare_stops (h : ¬ env.Prepares) {s : Site} (hs : s.Bare) :
    StopsWith Site.Bare (prepare cfg env) s := by
  unfold prepare
  by_cases hroot : env.createRoot = .ok
  · rw [hroot]
    refine StopsWith.after rfl ?_
    by_cases hmode : env.chmodRoot = .ok
    · rw [hmode]
      refine StopsWith.after rfl (StopsWith.after rfl ?_)
      exact check_stops (fun hsock => h ⟨hroot, hmode, hsock⟩) _ (clearOld_bare env hs)
    · exact (check_stops hmode _ hs).bind _
  · exact (check_stops hroot _ hs).bind _

theorem populate_ok (h : env.Populates) (cloneId : String) (s : Site) :
    populate cfg env cloneId s = (.ok (), { s with datadir := .created }) := by
  obtain ⟨hbackup, hmode, hmarker, hopen, happend, hstart⟩ := h
  have hleft : leaveDatadir env s = { s with datadir := .created } := if_pos (.inl hbackup)
  rw [← hleft]
  unfold populate setMode0700
  rw [hbackup, hmode, hmarker, hopen, happend, hstart]
  rfl

/-- A clone that cannot be completed leaves its entry where it is. -/
theorem populate_stops (h : ¬ env.Populates) (cloneId : String) {s : Site}
    (hs : s.entry = .created) :
    StopsWith (fun s => s.entry = .created) (populate cfg env cloneId) s := by
  unfold populate
  refine StopsWith.after rfl ?_
  have hentry : (leaveDatadir env s).entry = .created := (leaveDatadir_entry env s).trans hs
  by_cases hbackup : env.basebackup = .ok
  · refine StopsWith.after (by rw [hbackup]; rfl) ?_
    by_cases hmode : env.chmodDatadir = .ok
    · refine StopsWith.after (by rw [hmode]; rfl) ?_
      by_cases hmarker : env.writeMarker = .ok
      · refine StopsWith.after (by rw [hmarker]; rfl) ?_
        by_cases hopen : env.openConf = .ok
        · refine StopsWith.after (by rw [hopen]; rfl) ?_
          by_cases happend : env.appendConf = .ok
          · refine StopsWith.after (by rw [happend]; rfl) ?_
            refine runTool_stops ?_ _ hentry
            exact fun hstart => h ⟨hbackup, hmode, hmarker, hopen, happend, hstart⟩
          · exact (check_stops happend _ hentry).bind _
        · exact (check_stops hopen _ hentry).bind _
      · exact (check_stops hmarker _ hentry).bind _
    · exact (check_stops hmode _ hentry).bind _
  · exact (runTool_stops hbackup _ hentry).bind _

/-! ## How `provision` ends -/

/-- Before the entry there is nothing to leave. -/
theorem provision_unprepared (h : ¬ env.Prepares) {s : Site} (hs : s.Bare) :
    StopsWith Site.Bare (provision cfg env) s := by
  refine StopsWith.after rfl (StopsWith.after rfl (StopsWith.bind ?_ _))
  exact prepare_stops cfg env h hs

/-- A write that fails may have made a file. -/
theorem provision_unrecorded (h : env.Prepares) (hwrite : env.writeEntry ≠ .ok) {s : Site}
    (hs : s.Bare) :
    StopsWith (fun s' => s'.Bare ↔ env.entryLeft = false) (provision cfg env) s := by
  refine StopsWith.after rfl (StopsWith.after rfl ?_)
  obtain ⟨s', hprepare, hbare⟩ := prepare_ok cfg env h (s := { s with seq := s.seq + 1 }) hs
  refine StopsWith.after hprepare (StopsWith.bind ?_ _)
  refine StopsWith.after rfl (check_stops hwrite _ ?_)
  unfold leaveEntry
  cases hleft : env.entryLeft with
  | false =>
      rw [if_neg (fun hor => hor.elim hwrite Bool.false_ne_true)]
      exact ⟨fun _ => rfl, fun _ => hbare⟩
  | true =>
      rw [if_pos (.inr rfl)]
      exact ⟨fun hbare' => absurd rfl hbare'.2, fun hfalse => Bool.noConfusion hfalse⟩

theorem record_ok (hwrite : env.writeEntry = .ok) (cloneId : String) (s : Site) :
    record cfg env cloneId s = (.ok (), { s with entry := .created }) := by
  have hleft : leaveEntry env s = { s with entry := .created } := if_pos (.inl hwrite)
  rw [← hleft]
  unfold record
  rw [hwrite]
  rfl

/-- A clone that cannot be completed is given up with its entry. -/
theorem provision_unpopulated (h : env.Prepares) (hwrite : env.writeEntry = .ok)
    (hpopulate : ¬ env.Populates) {s : Site} (hs : s.Bare) :
    StopsWith (fun s' => s'.entry = .created) (provision cfg env) s := by
  refine StopsWith.after rfl (StopsWith.after rfl ?_)
  obtain ⟨s', hprepare, -⟩ := prepare_ok cfg env h (s := { s with seq := s.seq + 1 }) hs
  refine StopsWith.after hprepare (StopsWith.after (record_ok cfg env hwrite _ s') ?_)
  exact (populate_stops cfg env hpopulate _ rfl).bind _

theorem provision_ok (h : env.Prepares) (hwrite : env.writeEntry = .ok)
    (hpopulate : env.Populates) {s : Site} (hs : s.Bare) :
    ∃ cloneId seq, provision cfg env s =
      (.ok (handleOf cfg env cloneId), ⟨seq, .created, .created⟩) := by
  obtain ⟨s', hprepare, -⟩ := prepare_ok cfg env h (s := { s with seq := s.seq + 1 }) hs
  refine ⟨cloneIdOf env (s.seq + 1), s'.seq, ?_⟩
  show (prepare cfg env >>= _) { s with seq := s.seq + 1 } = _
  rw [bind_of_ok hprepare, bind_of_ok (record_ok cfg env hwrite _ s'),
    bind_of_ok (populate_ok cfg env hpopulate _ _)]
  rfl

/-! ## How `destroy` ends -/

theorem removeClone_ok (h : env.removeDatadir = .ok) (handle : CloneHandle) (seq : Nat)
    (entry : Presence) :
    removeClone cfg env handle ⟨seq, .created, entry⟩ = (.ok (), ⟨seq, .absent, entry⟩) := by
  unfold removeClone
  rw [h]
  rfl

theorem destroy_ok (h : env.Destroys) (handle : CloneHandle) (seq : Nat) :
    destroy cfg env handle ⟨seq, .created, .created⟩ = (.ok (), ⟨seq, .absent, .absent⟩) := by
  unfold destroy
  rw [bind_of_ok (removeClone_ok cfg env h.1 handle seq .created)]
  unfold forgetEntry
  rw [h.2]
  rfl

theorem destroy_stops (h : ¬ env.Destroys) (handle : CloneHandle) (seq : Nat) :
    StopsWith (fun s => ¬ s.Bare) (destroy cfg env handle) ⟨seq, .created, .created⟩ := by
  by_cases hdatadir : env.removeDatadir = .ok
  · -- The directory is gone and the entry stays.
    refine StopsWith.after (removeClone_ok cfg env hdatadir handle seq .created) ?_
    refine StopsWith.after rfl (StopsWith.bind (check_stops ?_ _ ?_) _)
    · exact fun hentry => h ⟨hdatadir, hentry⟩
    · exact fun hbare => hbare.2 rfl
  · refine StopsWith.bind (StopsWith.after rfl (StopsWith.bind (check_stops hdatadir _ ?_) _)) _
    exact fun hbare => hbare.1 rfl

/-! ## The governance of a local clone -/

theorem isBlank_display (p : Path) : isBlank (display p) = false := by
  refine decide_eq_false fun hblank => ?_
  have hchars : (display p).toList = '/' :: ("/".intercalate (p.map OsName.display)).toList := by
    simp [display]
  rw [hchars] at hblank
  unfold trim at hblank
  rw [List.dropWhile_cons_of_neg (by decide), List.reverse_eq_nil_iff,
    List.dropWhile_eq_nil_iff] at hblank
  exact absurd (hblank '/' (by simp)) (by decide)

/-- Of everything that is asserted, only the owner is not filled in by the provider. -/
theorem assertCompliant_handleOf (cloneId : String) :
    (handleOf cfg env cloneId).governance.assertCompliant =
      if isBlank cfg.owner then
        .error (.governance "clone has no documented owner (SPEC §4)")
      else .ok () := by
  unfold CloneGovernance.assertCompliant CloneGovernance.noncompliance handleOf
  simp only [isBlank_display]
  cases isBlank cfg.owner <;> rfl

/-! ## Teardown -/

/-- The call leaves nothing that it made, or the error of the teardown was reported. -/
def TornDown {T : Type} (r : Returned Site T) : Prop :=
  r.world.Bare ∨ ∃ e, r.reported = some e ∧ r.destroyed = some (.error e)

/-- The failures a call can take: before the ledger entry, at the entry if no file is left,
and after it none but that of the teardown of a clone with a documented owner. -/
def Sealed : Prop :=
  env.Prepares →
    (env.writeEntry ≠ .ok ∧ env.entryLeft = false) ∨
    (env.writeEntry = .ok ∧ env.Populates ∧ (isBlank cfg.owner = true → env.Destroys))

/-- A call whose `provision` stopped. -/
theorem tornDown_of_stops {T : Type} {P : Site → Prop} {s : Site}
    (body : CloneHandle → Except CloneError T) (h : StopsWith P (provision cfg env) s) :
    ∃ s', P s' ∧ (TornDown (withClone (localCloneProvider cfg env) body s) ↔ s'.Bare) := by
  obtain ⟨e, s', hstop, hP⟩ := h
  have hreturned : withClone (localCloneProvider cfg env) body s =
      ⟨.error e, none, none, s'⟩ := by
    unfold withClone localCloneProvider
    simp only [hstop]
  refine ⟨s', hP, ?_⟩
  rw [hreturned]
  refine ⟨fun htorn => ?_, .inl⟩
  rcases htorn with hbare | ⟨_, hnone, -⟩
  · exact hbare
  · cases hnone

/-- A call whose `provision` made a clone. -/
theorem tornDown_of_provisioned {T : Type} {s : Site} {cloneId : String} {seq : Nat}
    (body : CloneHandle → Except CloneError T)
    (h : provision cfg env s = (.ok (handleOf cfg env cloneId), ⟨seq, .created, .created⟩)) :
    TornDown (withClone (localCloneProvider cfg env) body s) ↔
      (isBlank cfg.owner = true → env.Destroys) := by
  have hcompliant := assertCompliant_handleOf cfg env cloneId
  unfold withClone localCloneProvider
  simp only [h, hcompliant]
  by_cases hdestroys : env.Destroys
  · simp only [destroy_ok cfg env hdestroys]
    refine ⟨fun _ _ => hdestroys, fun _ => ?_⟩
    cases isBlank cfg.owner with
    | true => exact .inl ⟨Presence.noConfusion, Presence.noConfusion⟩
    | false => exact .inl ⟨Presence.noConfusion, Presence.noConfusion⟩
  · obtain ⟨e, s', hstop, hleft⟩ := destroy_stops cfg env hdestroys (handleOf cfg env cloneId) seq
    simp only [hstop]
    cases hblank : isBlank cfg.owner with
    | true =>
        -- The error of this teardown is dropped.
        refine ⟨fun htorn => ?_, fun himp => absurd (himp rfl) hdestroys⟩
        rcases htorn with hbare | ⟨_, hnone, -⟩
        · exact absurd hbare hleft
        · cases hnone
    | false => exact ⟨fun _ hfalse => Bool.noConfusion hfalse, fun _ => .inr ⟨e, rfl, rfl⟩⟩

/-- A site at the start of a call. -/
def Site.start (seq : Nat) (datadirThere entryThere : Bool) : Site :=
  ⟨seq, if datadirThere then .before else .absent, if entryThere then .before else .absent⟩

theorem Site.start_bare (seq : Nat) (datadirThere entryThere : Bool) :
    (Site.start seq datadirThere entryThere).Bare := by
  cases datadirThere <;> cases entryThere <;>
    exact ⟨Presence.noConfusion, Presence.noConfusion⟩

end

/-- Everything works except the base backup, which leaves a partial directory. -/
def backupFails : Environment where
  pid := 7
  createRoot := .ok
  chmodRoot := .ok
  clearDatadir := .ok
  createSock := .ok
  writeEntry := .ok
  entryLeft := false
  basebackup := .failed "exit status: 1" "could not receive data from WAL stream"
  datadirLeft := true
  chmodDatadir := .ok
  writeMarker := .ok
  openConf := .ok
  appendConf := .ok
  start := .ok
  lsn := none
  removeDatadir := .ok
  removeEntry := .ok

def localConfig : LocalCloneConfig where
  cloneRoot := ["clones"]
  clonePort := 54361
  primary := ⟨"127.0.0.1", 54351, "postgres", "prod"⟩
  owner := "dba"
  ledgerDir := ["ledger"]

end PgBrakes.Ports.CloneTeardown
