import PgBrakes.Ports.CloneLedger

/-!
# What a pass of the reaper finds

Over one pass of `reap_orphans_with_sweep`, on any content of the ledger directory and the
clone root and any table of processes.  The pass removes files and makes processes exit, so
everything it finds on its way was there when it began (`Pass.After`).

The ledger is read as a whole before anything is removed, so a file in it that is not an
entry stops the pass.  A dead owner whose pid has been given to another process is told
apart from it by the start time, if there is one on record and `ps` answers.  The pass
itself makes processes exit, so an owner may be taken for alive at first and for dead when
the pass comes to its next record.

## Main results

* `foldl_reapEntry_alarms`, `foldl_reapEntry_lookup` — what the loop over the ledger does to
  one clone.
* `swept_iff` — what the sweep does to a clone that the loop has left.
* `reaped_iff` — when a pass removes a clone directory and raises one alarm for it.
* `reaper_misses_no_orphan` — the same for all orphans of a machine.
* `truncated_entry_hides_orphans` — the file that a crash in `record` leaves behind.
-/

namespace PgBrakes.Ports.CloneLedger

open PgBrakes.Verified.FileTree (Files Node)

section

variable [LedgerJson]

/-! ## Orphans -/

/-- The incarnation that wrote a record is running. -/
def OwnerAlive (procs : ProcessTable) (pid writer : Nat) : Prop :=
  ∃ p, procs pid = some p ∧ p.incarnation = writer

/-- The records of who owns the clone at a path, with the incarnation that wrote each. -/
inductive Recorded (fs : Disk) (ledgerDir path : Path) : OwnerIdentity → Nat → Prop where
  | ledger {name : OsName} {body : FileBody} {e : LedgerEntry}
      (file : fs.lookup (ledgerDir ++ [name]) = some (.file body))
      (json : hasJsonExtension name = true)
      (entry : readEntry fs (ledgerDir ++ [name]) = .ok e) (at_path : e.datadir = path) :
      Recorded fs ledgerDir path e.owner body.writer
  | marker {body : FileBody} {o : OwnerIdentity}
      (file : fs.lookup (path ++ [ownerMarker]) = some (.file body))
      (owner : readOwnerMarker fs path = some o) : Recorded fs ledgerDir path o body.writer

/-- A name that the provider gives to clones. -/
def isCloneName : OsName → Bool
  | .text s => isCloneDatadirName s
  | .bytes b _ => "local-clone-".toUTF8.toList.isPrefixOf b

/-- A clone directory with no record of an owner that is alive. -/
structure Orphan (m : Machine) (ledgerDir cloneRoot : Path) (name : OsName) : Prop where
  named : isCloneName name = true
  dir : m.fs.lookup (cloneRoot ++ [name]) = some .dir
  ownerless : ∀ o writer, Recorded m.fs ledgerDir (cloneRoot ++ [name]) o writer →
    ¬ OwnerAlive m.procs o.pid writer

/-- The alarms raised for a path. -/
def alarmsFor (path : Path) (outcome : ReapOutcome) : Nat :=
  outcome.alarms.countP fun a => decide (a.datadir = path)

/-- The clone is gone, and there was one alarm for it. -/
def Reaped (cloneRoot : Path) (name : OsName) (result : Except CloneError Pass) : Prop :=
  ∃ s, result = .ok s ∧ s.machine.fs.lookup (cloneRoot ++ [name]) = none ∧
    alarmsFor (cloneRoot ++ [name]) s.outcome = 1

def Pass.start (m : Machine) : Pass := ⟨m, ⟨[], []⟩⟩

/-- The entries that the loop over the ledger takes for dead, each when it comes to it. -/
def takenForDead (ledgerDir : Path) : Pass → List LedgerEntry → List LedgerEntry
  | _, [] => []
  | s, e :: es =>
      let rest := takenForDead ledgerDir (reapEntry ledgerDir s e) es
      if e.owner.isLive s.machine.procs then rest else e :: rest

/-- The pass behind the loop over the ledger. -/
def Pass.behind (m : Machine) (ledgerDir : Path) (es : List LedgerEntry) : Pass :=
  es.foldl (reapEntry ledgerDir) (.start m)

/-- The pass when the sweep comes to a name. -/
def Pass.sweptTo (s : Pass) (ledgerDir cloneRoot : Path) (es : List LedgerEntry)
    (name : OsName) : Pass :=
  ((s.machine.fs.names cloneRoot).takeWhile fun child => decide (child ≠ name)).foldl
    (sweepChild ledgerDir cloneRoot es) s

/-- No owner of a path is taken for alive, by these entries and by its marker. -/
structure Unclaimed (m : Machine) (es : List LedgerEntry) (path : Path) : Prop where
  entries : ∀ e ∈ es, e.datadir = path → e.owner.isLive m.procs = false
  marker : ∀ o, readOwnerMarker m.fs path = some o → o.isLive m.procs = false

/-- What the reaper needs for a clone: a ledger it can read, and either one entry for the
clone that it takes for dead, or no entry for the clone or a directory around it that it
takes for dead, a name that is text, and no owner that it takes for alive when the sweep
comes to the clone. -/
inductive Attributable (m : Machine) (ledgerDir cloneRoot : Path) (name : OsName) : Prop where
  | ledger {es : List LedgerEntry} (legible : entries m.fs ledgerDir = .ok es)
      (once : ((takenForDead ledgerDir (.start m) es).countP fun e =>
        decide (e.datadir = cloneRoot ++ [name])) = 1)
  | sweep {es es' : List LedgerEntry} (legible : entries m.fs ledgerDir = .ok es)
      (apart : ∀ e ∈ takenForDead ledgerDir (.start m) es, ¬ e.datadir <+: cloneRoot ++ [name])
      (text : name.toStr.isSome = true)
      (again : entries (Pass.behind m ledgerDir es).machine.fs ledgerDir = .ok es')
      (unclaimed : Unclaimed ((Pass.behind m ledgerDir es).sweptTo ledgerDir cloneRoot es'
        name).machine es' (cloneRoot ++ [name]))

end

/-! ## One round -/

theorem destroyOrphan_fewer (m : Machine) (e : LedgerEntry) :
    Fewer (destroyOrphan m e).procs m.procs := by
  unfold destroyOrphan
  cases postmasterPid m.fs e.pidfile with
  | none => exact fun _ _ h => h
  | some pid =>
      by_cases halive : pidAlive m.procs pid = true
      · simp only [halive, if_true]
        exact stop_fewer m.procs pid
      · simp only [halive]
        exact fun _ _ h => h

/-- The round that destroys a clone, in its parts. -/
theorem reap_machine (ledgerDir : Path) (s : Pass) (e : LedgerEntry) :
    (reap ledgerDir s e).machine.procs = (destroyOrphan s.machine e).procs ∧
      ((reap ledgerDir s e).machine.fs = (s.machine.fs.removeDirAll e.datadir) ∨
        (reap ledgerDir s e).machine.fs =
          forget ledgerDir (s.machine.fs.removeDirAll e.datadir) e.cloneId) := by
  have hmachine : (reap ledgerDir s e).machine =
      if !(destroyOrphan s.machine e).exists e.datadir then
        { destroyOrphan s.machine e with
          fs := forget ledgerDir (destroyOrphan s.machine e).fs e.cloneId }
      else destroyOrphan s.machine e := rfl
  rw [hmachine]
  cases (destroyOrphan s.machine e).exists e.datadir with
  | true => exact ⟨rfl, .inl rfl⟩
  | false => exact ⟨rfl, .inr rfl⟩

theorem reap_below (ledgerDir : Path) (s : Pass) (e : LedgerEntry) :
    Files.Below (reap ledgerDir s e).machine.fs (s.machine.fs.removeDirAll e.datadir) := by
  rcases (reap_machine ledgerDir s e).2 with h | h
  · rw [h]
    exact Files.Below.refl _
  · rw [h]
    exact Files.removeFile_below _ _

theorem reap_alarms (ledgerDir : Path) (s : Pass) (e : LedgerEntry) (path : Path) :
    alarmsFor path (reap ledgerDir s e).outcome =
      alarmsFor path s.outcome + if e.datadir = path then 1 else 0 := by
  show (s.outcome.alarms ++ [_]).countP _ = _
  rw [List.countP_append]
  show alarmsFor path s.outcome + _ = _
  by_cases h : e.datadir = path
  · simp [h]
  · simp [h]

/-- Destroying a clone that is not around a directory leaves the directory. -/
theorem reap_lookup_apart (ledgerDir : Path) {s : Pass} {e : LedgerEntry} {path : Path}
    (h : s.machine.fs.lookup path = some .dir) (hapart : ¬ e.datadir <+: path) :
    (reap ledgerDir s e).machine.fs.lookup path = some .dir := by
  have hkept := Files.lookup_removeDirAll_of_not_prefix h hapart
  rcases (reap_machine ledgerDir s e).2 with hfs | hfs
  · rw [hfs]
    exact hkept
  · rw [hfs]
    exact Files.lookup_removeFile_dir hkept

/-- Destroying a clone takes every directory in it away. -/
theorem reap_lookup_within (ledgerDir : Path) {s : Pass} {e : LedgerEntry} {path : Path}
    (h : s.machine.fs.lookup path = some .dir) (hwithin : e.datadir <+: path) :
    (reap ledgerDir s e).machine.fs.lookup path = none :=
  (reap_below ledgerDir s e).lookup_eq_none
    (Files.lookup_removeDirAll_within (Files.lookup_dir_of_prefix h hwithin) hwithin)

/-- One state of a pass comes behind another: files and processes have only gone away. -/
structure Pass.After (s s' : Pass) : Prop where
  below : Files.Below s'.machine.fs s.machine.fs
  fewer : Fewer s'.machine.procs s.machine.procs

theorem Pass.After.refl (s : Pass) : s.After s := ⟨Files.Below.refl _, fun _ _ h => h⟩

theorem Pass.After.trans {s s' s'' : Pass} (h : s.After s') (h' : s'.After s'') : s.After s'' :=
  ⟨h'.below.trans h.below, h'.fewer.trans h.fewer⟩

theorem reap_after (ledgerDir : Path) (s : Pass) (e : LedgerEntry) :
    s.After (reap ledgerDir s e) :=
  ⟨(reap_below ledgerDir s e).trans (Files.removeDirAll_below _ _),
    (reap_machine ledgerDir s e).1 ▸ destroyOrphan_fewer s.machine e⟩

theorem reapEntry_after (ledgerDir : Path) (s : Pass) (e : LedgerEntry) :
    s.After (reapEntry ledgerDir s e) := by
  unfold reapEntry
  split
  · exact ⟨Files.Below.refl _, fun _ _ h => h⟩
  · exact reap_after ledgerDir s e

/-! ## The loop over the ledger -/

theorem foldl_reapEntry_after (ledgerDir : Path) (es : List LedgerEntry) (s : Pass) :
    s.After (es.foldl (reapEntry ledgerDir) s) := by
  induction es generalizing s with
  | nil => exact .refl s
  | cons e es ih => exact (reapEntry_after ledgerDir s e).trans (ih _)

/-- A round over an entry that is taken for alive, and over one that is not. -/
theorem reapEntry_cases (ledgerDir : Path) (s : Pass) (e : LedgerEntry) (es : List LedgerEntry) :
    (reapEntry ledgerDir s e = skip s e.cloneId ∧
      takenForDead ledgerDir s (e :: es) = takenForDead ledgerDir (skip s e.cloneId) es) ∨
    (reapEntry ledgerDir s e = reap ledgerDir s e ∧
      takenForDead ledgerDir s (e :: es) =
        e :: takenForDead ledgerDir (reap ledgerDir s e) es) := by
  rw [takenForDead]
  cases hlive : e.owner.isLive s.machine.procs with
  | true =>
      left
      have hskip : reapEntry ledgerDir s e = skip s e.cloneId := by
        rw [reapEntry, hlive, if_pos rfl]
      rw [hskip]
      exact ⟨rfl, rfl⟩
  | false =>
      right
      have hreap : reapEntry ledgerDir s e = reap ledgerDir s e := by
        rw [reapEntry, hlive, if_neg Bool.false_ne_true]
      rw [hreap]
      exact ⟨rfl, rfl⟩

/-- The loop raises an alarm for every entry it takes for dead. -/
theorem foldl_reapEntry_alarms (ledgerDir path : Path) (es : List LedgerEntry) (s : Pass) :
    alarmsFor path (es.foldl (reapEntry ledgerDir) s).outcome =
      alarmsFor path s.outcome +
        (takenForDead ledgerDir s es).countP fun e => decide (e.datadir = path) := by
  induction es generalizing s with
  | nil => rfl
  | cons e es ih =>
      rw [List.foldl_cons, ih]
      rcases reapEntry_cases ledgerDir s e es with ⟨hround, hdead⟩ | ⟨hround, hdead⟩
      · rw [hround, hdead]
        rfl
      · rw [hround, hdead, reap_alarms, List.countP_cons]
        simp only [decide_eq_true_eq]
        omega

/-- A directory outlives the loop exactly if no entry for it, or for a directory around it,
is taken for dead. -/
theorem foldl_reapEntry_lookup (ledgerDir : Path) {path : Path} (es : List LedgerEntry)
    {s : Pass} (h : s.machine.fs.lookup path = some .dir) :
    ((∀ e ∈ takenForDead ledgerDir s es, ¬ e.datadir <+: path) →
      (es.foldl (reapEntry ledgerDir) s).machine.fs.lookup path = some .dir) ∧
    ((∃ e ∈ takenForDead ledgerDir s es, e.datadir <+: path) →
      (es.foldl (reapEntry ledgerDir) s).machine.fs.lookup path = none) := by
  induction es generalizing s with
  | nil => simpa [takenForDead] using h
  | cons e es ih =>
      rw [List.foldl_cons]
      rcases reapEntry_cases ledgerDir s e es with ⟨hround, hdead⟩ | ⟨hround, hdead⟩
      · rw [hround, hdead]
        exact ih h
      · rw [hround, hdead, List.forall_mem_cons, List.exists_mem_cons_iff]
        by_cases hwithin : e.datadir <+: path
        · have hgone := (foldl_reapEntry_after ledgerDir es (reap ledgerDir s e)).below
            |>.lookup_eq_none (reap_lookup_within ledgerDir h hwithin)
          exact ⟨fun hall => absurd hwithin hall.1, fun _ => hgone⟩
        · have hrest := ih (reap_lookup_apart ledgerDir h hwithin)
          exact ⟨fun hall => hrest.1 hall.2, fun hsome => hrest.2 (hsome.resolve_left hwithin)⟩

theorem takenForDead_subset (ledgerDir : Path) (es : List LedgerEntry) (s : Pass) :
    takenForDead ledgerDir s es ⊆ es := by
  induction es generalizing s with
  | nil => exact fun _ h => h
  | cons e es ih =>
      rcases reapEntry_cases ledgerDir s e es with ⟨-, hdead⟩ | ⟨-, hdead⟩
      · rw [hdead]
        exact List.subset_cons_of_subset e (ih _)
      · rw [hdead]
        exact List.cons_subset_cons e (ih _)

/-- Entries that are seen to be dead before the pass are taken for dead in it. -/
theorem countP_takenForDead {procs : ProcessTable} {path : Path} (ledgerDir : Path)
    (es : List LedgerEntry) {s : Pass} (hfewer : Fewer s.machine.procs procs)
    (hdead : ∀ e ∈ es, e.datadir = path → e.owner.isLive procs = false) :
    (takenForDead ledgerDir s es).countP (fun e => decide (e.datadir = path)) =
      es.countP fun e => decide (e.datadir = path) := by
  induction es generalizing s with
  | nil => rfl
  | cons e es ih =>
      have hrest := ih ((reapEntry_after ledgerDir s e).fewer.trans hfewer)
        fun e' he' => hdead e' (List.mem_cons_of_mem e he')
      rw [List.countP_cons, ← hrest, takenForDead]
      by_cases hpath : e.datadir = path
      · rw [isLive_mono hfewer (hdead e List.mem_cons_self hpath), if_neg Bool.false_ne_true,
          List.countP_cons]
      · rw [decide_eq_false hpath, if_neg Bool.false_ne_true]
        split
        · rfl
        · rw [List.countP_cons, decide_eq_false hpath, if_neg Bool.false_ne_true]

/-! ## The sweep -/

/-- A directory holds a name once, with others before it and behind it. -/
theorem names_split {s : Pass} {cloneRoot : Path} {name : OsName}
    (h : s.machine.fs.lookup (cloneRoot ++ [name]) = some .dir) :
    ∃ rest, s.machine.fs.names cloneRoot =
        ((s.machine.fs.names cloneRoot).takeWhile fun child => decide (child ≠ name)) ++
          name :: rest ∧
      name ∉ ((s.machine.fs.names cloneRoot).takeWhile fun child => decide (child ≠ name)) ∧
      name ∉ rest := by
  have hmem : name ∈ s.machine.fs.names cloneRoot :=
    Files.mem_names_iff.mpr ⟨.dir, Files.lookup_eq_some_iff.mp h⟩
  have hnodup := Files.names_nodup s.machine.fs cloneRoot
  generalize s.machine.fs.names cloneRoot = names at hmem hnodup ⊢
  induction names with
  | nil => cases hmem
  | cons child names ih =>
      rw [List.nodup_cons] at hnodup
      by_cases hchild : child = name
      · subst hchild
        exact ⟨names, by simp, by simp, hnodup.1⟩
      · obtain ⟨rest, hsplit, hbefore, hrest⟩ :=
          ih ((List.mem_cons.mp hmem).resolve_left (Ne.symm hchild)) hnodup.2
        rw [List.takeWhile_cons, if_pos (decide_eq_true hchild)]
        refine ⟨rest, ?_, ?_, hrest⟩
        · rw [List.cons_append, ← hsplit]
        · rw [List.mem_cons, not_or]
          exact ⟨Ne.symm hchild, hbefore⟩

section

variable [LedgerJson]

/-- What a round of the sweep does, at its coarsest. -/
theorem sweepChild_cases (ledgerDir cloneRoot : Path) (es : List LedgerEntry) (s : Pass)
    (child : OsName) :
    ((sweepChild ledgerDir cloneRoot es s child).machine = s.machine ∧
      (sweepChild ledgerDir cloneRoot es s child).outcome.alarms = s.outcome.alarms) ∨
    ∃ e : LedgerEntry, e.datadir = cloneRoot ++ [child] ∧
      sweepChild ledgerDir cloneRoot es s child = reap ledgerDir s e := by
  unfold sweepChild
  simp only
  split
  · exact .inl ⟨rfl, rfl⟩
  next cloneId _ =>
    split
    · exact .inl ⟨rfl, rfl⟩
    · split
      · exact .inl ⟨rfl, rfl⟩
      · split
        · exact .inl ⟨rfl, rfl⟩
        · split
          · exact .inl ⟨rfl, rfl⟩
          · exact .inr ⟨sweptEntry cloneId (cloneRoot ++ [child]) _, rfl, rfl⟩

theorem sweepChild_after (ledgerDir cloneRoot : Path) (es : List LedgerEntry) (s : Pass)
    (child : OsName) : s.After (sweepChild ledgerDir cloneRoot es s child) := by
  rcases sweepChild_cases ledgerDir cloneRoot es s child with ⟨hmachine, -⟩ | ⟨e, -, hreap⟩
  · constructor
    · rw [hmachine]
      exact Files.Below.refl _
    · rw [hmachine]
      exact fun _ _ h => h
  · rw [hreap]
    exact reap_after ledgerDir s e

theorem foldl_sweepChild_after (ledgerDir cloneRoot : Path) (es : List LedgerEntry)
    (names : List OsName) (s : Pass) :
    s.After (names.foldl (sweepChild ledgerDir cloneRoot es) s) := by
  induction names generalizing s with
  | nil => exact .refl s
  | cons child names ih => exact (sweepChild_after ledgerDir cloneRoot es s child).trans (ih _)

/-- A round over another name leaves a clone alone. -/
theorem sweepChild_other (ledgerDir cloneRoot : Path) (es : List LedgerEntry) (s : Pass)
    {child name : OsName} (hne : child ≠ name) :
    alarmsFor (cloneRoot ++ [name]) (sweepChild ledgerDir cloneRoot es s child).outcome =
        alarmsFor (cloneRoot ++ [name]) s.outcome ∧
      (s.machine.fs.lookup (cloneRoot ++ [name]) = some .dir →
        (sweepChild ledgerDir cloneRoot es s child).machine.fs.lookup (cloneRoot ++ [name]) =
          some .dir) := by
  have hpath : cloneRoot ++ [child] ≠ cloneRoot ++ [name] := by
    intro heq
    exact hne (by simpa using heq)
  rcases sweepChild_cases ledgerDir cloneRoot es s child with ⟨hmachine, halarms⟩ |
    ⟨e, he, hreap⟩
  · refine ⟨?_, fun h => by rw [hmachine]; exact h⟩
    unfold alarmsFor
    rw [halarms]
  · rw [hreap]
    constructor
    · rw [reap_alarms, he, if_neg hpath, Nat.add_zero]
    · intro h
      apply reap_lookup_apart ledgerDir h
      rw [he]
      intro hwithin
      exact hpath (hwithin.eq_of_length (by simp))

theorem foldl_sweepChild_other (ledgerDir cloneRoot : Path) (es : List LedgerEntry)
    {name : OsName} (names : List OsName) (hnames : name ∉ names) (s : Pass) :
    alarmsFor (cloneRoot ++ [name])
        (names.foldl (sweepChild ledgerDir cloneRoot es) s).outcome =
        alarmsFor (cloneRoot ++ [name]) s.outcome ∧
      (s.machine.fs.lookup (cloneRoot ++ [name]) = some .dir →
        (names.foldl (sweepChild ledgerDir cloneRoot es) s).machine.fs.lookup
          (cloneRoot ++ [name]) = some .dir) := by
  induction names generalizing s with
  | nil => exact ⟨rfl, fun h => h⟩
  | cons child names ih =>
      rw [List.mem_cons, not_or] at hnames
      have hround := sweepChild_other ledgerDir cloneRoot es s (Ne.symm hnames.1)
      have hrest := ih hnames.2 (sweepChild ledgerDir cloneRoot es s child)
      exact ⟨hrest.1.trans hround.1, fun h => hrest.2 (hround.2 h)⟩

/-- A clone that is gone is passed over. -/
theorem sweepChild_gone {ledgerDir cloneRoot : Path} {es : List LedgerEntry} {s : Pass}
    {name : OsName} (h : s.machine.fs.lookup (cloneRoot ++ [name]) = none) :
    sweepChild ledgerDir cloneRoot es s name = s := by
  have hdir : s.machine.fs.isDir (cloneRoot ++ [name]) = false := by
    rw [← Bool.not_eq_true, Files.isDir_iff, h]
    simp
  unfold sweepChild
  simp only [hdir]
  split
  · rfl
  · rfl

/-- The sweep raises no alarm for a clone that is gone. -/
theorem foldl_sweepChild_gone (ledgerDir cloneRoot : Path) (es : List LedgerEntry)
    {name : OsName} (names : List OsName) {s : Pass}
    (h : s.machine.fs.lookup (cloneRoot ++ [name]) = none) :
    alarmsFor (cloneRoot ++ [name])
      (names.foldl (sweepChild ledgerDir cloneRoot es) s).outcome =
      alarmsFor (cloneRoot ++ [name]) s.outcome := by
  induction names generalizing s with
  | nil => rfl
  | cons child names ih =>
      rw [List.foldl_cons,
        ih ((sweepChild_after ledgerDir cloneRoot es s child).below.lookup_eq_none h)]
      by_cases hchild : child = name
      · subst hchild
        rw [sweepChild_gone h]
      · exact (sweepChild_other ledgerDir cloneRoot es s hchild).1

/-- The two questions that the sweep asks about the owners of a clone. -/
theorem unclaimed_iff {m : Machine} {es : List LedgerEntry} {path : Path} :
    Unclaimed m es path ↔
      (es.any fun e => decide (e.datadir = path) && e.owner.isLive m.procs) = false ∧
        ((readOwnerMarker m.fs path).any fun o => o.isLive m.procs) = false := by
  constructor
  · intro h
    constructor
    · rw [List.any_eq_false]
      intro e he hlive
      rw [Bool.and_eq_true, decide_eq_true_eq] at hlive
      rw [h.entries e he hlive.1] at hlive
      cases hlive.2
    · cases howner : readOwnerMarker m.fs path with
      | none => rfl
      | some o => rw [Option.any_some, h.marker o howner]
  · rintro ⟨hentries, hmarker⟩
    constructor
    · intro e he hpath
      have hnot := List.any_eq_false.mp hentries e he
      simpa [hpath] using hnot
    · intro o ho
      rw [ho] at hmarker
      exact hmarker

/-- The round of the clone itself removes it, with an alarm, if its name is text and no
owner of it is taken for alive.  Otherwise it leaves it alone. -/
theorem sweepChild_self (ledgerDir : Path) {cloneRoot : Path} (es : List LedgerEntry) {s : Pass}
    {name : OsName} (hnamed : isCloneName name = true)
    (hdir : s.machine.fs.lookup (cloneRoot ++ [name]) = some .dir)
    (hnone : alarmsFor (cloneRoot ++ [name]) s.outcome = 0) :
    (name.toStr.isSome = true ∧ Unclaimed s.machine es (cloneRoot ++ [name]) →
      (sweepChild ledgerDir cloneRoot es s name).machine.fs.lookup (cloneRoot ++ [name]) = none ∧
        alarmsFor (cloneRoot ++ [name]) (sweepChild ledgerDir cloneRoot es s name).outcome = 1) ∧
    (¬ (name.toStr.isSome = true ∧ Unclaimed s.machine es (cloneRoot ++ [name])) →
      (sweepChild ledgerDir cloneRoot es s name).machine.fs.lookup (cloneRoot ++ [name]) =
        some .dir) := by
  cases name with
  | bytes b hbytes => exact ⟨fun h => absurd h.1 Bool.false_ne_true, fun _ => hdir⟩
  | text cloneId =>
      have halarmed : (s.outcome.alarms.any fun a =>
          decide (a.datadir = cloneRoot ++ [.text cloneId])) = false := by
        rw [← Bool.not_eq_true, List.any_eq_true]
        rintro ⟨a, ha, haeq⟩
        exact absurd hnone (Nat.ne_of_gt (List.countP_pos_iff.mpr ⟨a, ha, haeq⟩))
      have hnamed' : isCloneDatadirName cloneId = true := hnamed
      have hround : sweepChild ledgerDir cloneRoot es s (.text cloneId) =
          if es.any fun e => decide (e.datadir = cloneRoot ++ [.text cloneId]) &&
              e.owner.isLive s.machine.procs then skip s cloneId
          else if (readOwnerMarker s.machine.fs (cloneRoot ++ [.text cloneId])).any fun o =>
              o.isLive s.machine.procs then skip s cloneId
          else reap ledgerDir s (sweptEntry cloneId (cloneRoot ++ [.text cloneId])
            (readOwnerMarker s.machine.fs (cloneRoot ++ [.text cloneId]))) := by
        unfold sweepChild OsName.toStr
        simp only [Files.isDir_iff.mpr hdir, hnamed', halarmed]
        rfl
      rw [hround]
      constructor
      · rintro ⟨-, hunclaimed⟩
        obtain ⟨hentries, hmarker⟩ := unclaimed_iff.mp hunclaimed
        rw [hentries, hmarker, if_neg Bool.false_ne_true, if_neg Bool.false_ne_true]
        constructor
        · exact reap_lookup_within ledgerDir hdir (List.prefix_refl _)
        · rw [reap_alarms, hnone]
          show 0 + (if cloneRoot ++ [.text cloneId] = cloneRoot ++ [.text cloneId]
            then 1 else 0) = 1
          rw [if_pos rfl]
      · intro hclaimed
        split
        · exact hdir
        next hentries =>
          split
          · exact hdir
          next hmarker =>
            refine absurd ⟨rfl, unclaimed_iff.mpr ⟨?_, ?_⟩⟩ hclaimed
            · exact Bool.not_eq_true _ ▸ hentries
            · exact Bool.not_eq_true _ ▸ hmarker

/-- The sweep over a clone that is there and has no alarm yet. -/
theorem swept_iff {ledgerDir cloneRoot : Path} {es : List LedgerEntry} {s : Pass}
    {name : OsName} (hnamed : isCloneName name = true)
    (hdir : s.machine.fs.lookup (cloneRoot ++ [name]) = some .dir)
    (hnone : alarmsFor (cloneRoot ++ [name]) s.outcome = 0) :
    Reaped cloneRoot name
        (.ok ((s.machine.fs.names cloneRoot).foldl (sweepChild ledgerDir cloneRoot es) s)) ↔
      name.toStr.isSome = true ∧
        Unclaimed (s.sweptTo ledgerDir cloneRoot es name).machine es (cloneRoot ++ [name]) := by
  obtain ⟨rest, hsplit, hbefore, hrest⟩ := names_split hdir
  have hcome := foldl_sweepChild_other ledgerDir cloneRoot es _ hbefore s
  have hround := sweepChild_self ledgerDir es hnamed (hcome.2 hdir) (hcome.1.trans hnone)
  rw [hsplit, List.foldl_append, List.foldl_cons]
  constructor
  · rintro ⟨s', hs', hgone, -⟩
    cases hs'
    refine Classical.not_not.mp fun hclaimed => ?_
    have hkept := (foldl_sweepChild_other ledgerDir cloneRoot es rest hrest _).2
      (hround.2 hclaimed)
    rw [hgone] at hkept
    cases hkept
  · intro hunclaimed
    obtain ⟨hgone, hone⟩ := hround.1 hunclaimed
    refine ⟨_, rfl, ?_, ?_⟩
    · exact (foldl_sweepChild_after ledgerDir cloneRoot es rest _).below.lookup_eq_none hgone
    · rw [foldl_sweepChild_gone ledgerDir cloneRoot es rest hgone]
      exact hone

/-! ## The pass -/

theorem sweepCloneRoot_dir {ledgerDir cloneRoot : Path} {es : List LedgerEntry} {s : Pass}
    (hroot : s.machine.fs.lookup cloneRoot = some .dir)
    (hes : entries s.machine.fs ledgerDir = .ok es) :
    sweepCloneRoot ledgerDir cloneRoot s =
      .ok ((s.machine.fs.names cloneRoot).foldl (sweepChild ledgerDir cloneRoot es) s) := by
  unfold sweepCloneRoot readDir
  rw [hroot, hes]
  rfl

/-- The sweep ends well behind a loop that read the ledger, and does nothing for a clone that
is gone. -/
theorem sweepCloneRoot_gone {m : Machine} {ledgerDir cloneRoot : Path} {es : List LedgerEntry}
    {s : Pass} {name : OsName} (hroot : m.fs.lookup cloneRoot = some .dir)
    (hes : entries m.fs ledgerDir = .ok es) (hafter : (Pass.start m).After s)
    (hgone : s.machine.fs.lookup (cloneRoot ++ [name]) = none) :
    Reaped cloneRoot name (sweepCloneRoot ledgerDir cloneRoot s) ↔
      alarmsFor (cloneRoot ++ [name]) s.outcome = 1 := by
  cases hnow : s.machine.fs.lookup cloneRoot with
  | none =>
      have hend : sweepCloneRoot ledgerDir cloneRoot s = .ok s := by
        unfold sweepCloneRoot readDir
        rw [hnow]
      rw [hend]
      constructor
      · rintro ⟨s', hs', -, hone⟩
        cases hs'
        exact hone
      · exact fun hone => ⟨s, rfl, hgone, hone⟩
  | some n =>
      have hn : m.fs.lookup cloneRoot = some n := hafter.below.lookup hnow
      rw [hroot] at hn
      cases hn
      obtain ⟨es', hes', -⟩ := entries_below hes hafter.below
      rw [sweepCloneRoot_dir hnow hes']
      have hsame := foldl_sweepChild_gone ledgerDir cloneRoot es'
        (s.machine.fs.names cloneRoot) hgone
      constructor
      · rintro ⟨s', hs', -, hone⟩
        cases hs'
        exact hsame ▸ hone
      · intro hone
        refine ⟨_, rfl, ?_, hsame.trans hone⟩
        exact (foldl_sweepChild_after ledgerDir cloneRoot es' _ s).below.lookup_eq_none hgone

theorem not_attributable_of_error {m : Machine} {ledgerDir cloneRoot : Path} {name : OsName}
    {e : CloneError} (hes : entries m.fs ledgerDir = .error e) :
    ¬ Attributable m ledgerDir cloneRoot name := by
  intro h
  cases h with
  | ledger legible _ =>
      rw [hes] at legible
      cases legible
  | sweep legible _ _ _ _ =>
      rw [hes] at legible
      cases legible

/-- What attributable means where the ledger reads, before the loop and before the sweep. -/
theorem attributable_iff {m : Machine} {ledgerDir cloneRoot : Path} {name : OsName}
    {es es' : List LedgerEntry} (hes : entries m.fs ledgerDir = .ok es)
    (hes' : entries (Pass.behind m ledgerDir es).machine.fs ledgerDir = .ok es') :
    Attributable m ledgerDir cloneRoot name ↔
      ((takenForDead ledgerDir (.start m) es).countP fun e =>
          decide (e.datadir = cloneRoot ++ [name])) = 1 ∨
        (∀ e ∈ takenForDead ledgerDir (.start m) es, ¬ e.datadir <+: cloneRoot ++ [name]) ∧
          name.toStr.isSome = true ∧
          Unclaimed ((Pass.behind m ledgerDir es).sweptTo ledgerDir cloneRoot es' name).machine
            es' (cloneRoot ++ [name]) := by
  constructor
  · intro h
    cases h with
    | ledger legible once =>
        rw [hes] at legible
        cases legible
        exact .inl once
    | sweep legible apart text again unclaimed =>
        rw [hes] at legible
        cases legible
        rw [hes'] at again
        cases again
        exact .inr ⟨apart, text, unclaimed⟩
  · rintro (once | ⟨apart, text, unclaimed⟩)
    · exact .ledger hes once
    · exact .sweep hes apart text hes' unclaimed

/-- A pass removes a clone directory, with one alarm, exactly if the clone is attributable. -/
theorem reaped_iff {m : Machine} {ledgerDir cloneRoot : Path} {name : OsName}
    (hnamed : isCloneName name = true) (hdir : m.fs.lookup (cloneRoot ++ [name]) = some .dir) :
    Reaped cloneRoot name (reapOrphansWithSweep ledgerDir cloneRoot m) ↔
      Attributable m ledgerDir cloneRoot name := by
  cases hes : entries m.fs ledgerDir with
  | error e =>
      have hend : reapOrphansWithSweep ledgerDir cloneRoot m = .error e := by
        unfold reapOrphansWithSweep reapFromLedger
        rw [hes]
        rfl
      rw [hend]
      refine iff_of_false ?_ (not_attributable_of_error hes)
      rintro ⟨s, hs, -⟩
      cases hs
  | ok es =>
      have hpass : reapOrphansWithSweep ledgerDir cloneRoot m =
          sweepCloneRoot ledgerDir cloneRoot (Pass.behind m ledgerDir es) := by
        unfold reapOrphansWithSweep reapFromLedger
        rw [hes]
        rfl
      have hafter : (Pass.start m).After (Pass.behind m ledgerDir es) :=
        foldl_reapEntry_after ledgerDir es (.start m)
      have halarms : alarmsFor (cloneRoot ++ [name]) (Pass.behind m ledgerDir es).outcome =
          (takenForDead ledgerDir (.start m) es).countP
            fun e => decide (e.datadir = cloneRoot ++ [name]) :=
        (foldl_reapEntry_alarms ledgerDir _ es (.start m)).trans (Nat.zero_add _)
      have hloop := foldl_reapEntry_lookup ledgerDir es (s := .start m) hdir
      obtain ⟨es', hes', -⟩ := entries_below hes hafter.below
      rw [hpass, attributable_iff hes hes', ← halarms]
      by_cases hwithin : ∃ e ∈ takenForDead ledgerDir (.start m) es,
          e.datadir <+: cloneRoot ++ [name]
      · -- The loop has taken the clone away: what counts are the alarms it raised for it.
        have hroot : m.fs.lookup cloneRoot = some .dir := by
          simpa using Files.lookup_dropLast hdir (by simp)
        rw [sweepCloneRoot_gone hroot hes hafter (hloop.2 hwithin)]
        refine (or_iff_left ?_).symm
        rintro ⟨hapart, -⟩
        obtain ⟨e, he, hpre⟩ := hwithin
        exact hapart e he hpre
      · -- The clone is still there, without an alarm: the sweep decides.
        have hapart : ∀ e ∈ takenForDead ledgerDir (.start m) es,
            ¬ e.datadir <+: cloneRoot ++ [name] := fun e he hpre => hwithin ⟨e, he, hpre⟩
        have hstill : (Pass.behind m ledgerDir es).machine.fs.lookup (cloneRoot ++ [name]) =
          some .dir := hloop.1 hapart
        have hnone : alarmsFor (cloneRoot ++ [name]) (Pass.behind m ledgerDir es).outcome = 0 := by
          rw [halarms, List.countP_eq_zero]
          intro e he heq
          exact hapart e he (of_decide_eq_true heq ▸ List.prefix_refl _)
        have hrootNow : (Pass.behind m ledgerDir es).machine.fs.lookup cloneRoot =
            some .dir := by
          simpa using Files.lookup_dropLast hstill (by simp)
        rw [sweepCloneRoot_dir hrootNow hes', swept_iff hnamed hstill hnone, hnone,
          or_iff_right Nat.zero_ne_one, and_iff_right hapart]

/-- What can be told before the pass: a clone is attributable if its owners are seen to be
dead, and the ledger has one entry for it at most and none for a directory around it. -/
theorem attributable_of_unclaimed {m : Machine} {ledgerDir cloneRoot : Path} {name : OsName}
    {es : List LedgerEntry} (htext : name.toStr.isSome = true)
    (hes : entries m.fs ledgerDir = .ok es)
    (hunclaimed : Unclaimed m es (cloneRoot ++ [name]))
    (honce : es.countP (fun e => decide (e.datadir = cloneRoot ++ [name])) ≤ 1)
    (hapart : ∀ e ∈ es, e.datadir <+: cloneRoot ++ [name] → e.datadir = cloneRoot ++ [name]) :
    Attributable m ledgerDir cloneRoot name := by
  have hcount := countP_takenForDead ledgerDir es (s := .start m) (fun _ _ h => h)
    hunclaimed.entries
  rcases Nat.lt_or_eq_of_le honce with hnone | hone
  · have hnot : ∀ e ∈ es, e.datadir ≠ cloneRoot ++ [name] := by
      intro e he hpath
      have hpos : 0 < es.countP fun e => decide (e.datadir = cloneRoot ++ [name]) :=
        List.countP_pos_iff.mpr ⟨e, he, decide_eq_true hpath⟩
      omega
    have hafter : (Pass.start m).After (Pass.behind m ledgerDir es) :=
      foldl_reapEntry_after ledgerDir es (.start m)
    obtain ⟨es', hes', hsub⟩ := entries_below hes hafter.below
    have hcome := hafter.trans (foldl_sweepChild_after ledgerDir cloneRoot es'
      (((Pass.behind m ledgerDir es).machine.fs.names cloneRoot).takeWhile
        fun child => decide (child ≠ name)) (Pass.behind m ledgerDir es))
    refine .sweep hes ?_ htext hes' ⟨?_, ?_⟩
    · intro e he hpre
      have hmem := takenForDead_subset ledgerDir es (.start m) he
      exact hnot e hmem (hapart e hmem hpre)
    · exact fun e he hpath => absurd hpath (hnot e (hsub he))
    · exact fun o ho =>
        isLive_mono hcome.fewer (hunclaimed.marker o (readOwnerMarker_below hcome.below ho))
  · exact .ledger hes (hcount.trans hone)

/-- A pass reaps all orphans, with one alarm each, exactly if every one of them is
attributable. -/
theorem reaper_misses_no_orphan (m : Machine) (ledgerDir cloneRoot : Path) :
    (∀ name, Orphan m ledgerDir cloneRoot name →
        Reaped cloneRoot name (reapOrphansWithSweep ledgerDir cloneRoot m)) ↔
      ∀ name, Orphan m ledgerDir cloneRoot name → Attributable m ledgerDir cloneRoot name :=
  forall₂_congr fun _ horphan => reaped_iff horphan.named horphan.dir

end

/-! ## A crash in `record` -/

/-- `serde_json` on the files of the machines below: one entry is known, and the empty text
is none. -/
@[reducible] def oneEntryJson : LedgerJson where
  encodeEntry _ := "entry"
  decodeEntry text :=
    if text = "entry" then
      .ok ⟨"local-clone-7-1", [.text "clones", .text "local-clone-7-1"], 54361, 7, ""⟩
    else .error "EOF while parsing a value at line 1 column 0"
  encodeOwner _ := "owner"
  decodeOwner _ := .error "EOF while parsing a value at line 1 column 0"

/-- A clone without a marker, and a ledger with one file.  No process is running. -/
def abandoned (file content : String) : Machine where
  fs :=
    { nodes :=
        [([], .dir), ([.text "clones"], .dir), ([.text "clones", .text "local-clone-7-1"], .dir),
          ([.text "ledger"], .dir), ([.text "ledger", .text file], .file ⟨.ok content, 1⟩)]
      distinct := by simp
      rooted := by simp }
  procs := fun _ => none

theorem abandoned_orphan (file content : String) :
    letI := oneEntryJson
    Orphan (abandoned file content) ["ledger"] ["clones"] "local-clone-7-1" := by
  refine @Orphan.mk oneEntryJson _ _ _ _ (by decide) rfl ?_
  rintro o writer - ⟨p, hp, -⟩
  cases hp

/-- The entry of another clone was being written when its orchestrator was killed.  The
orphan next to it is not removed, and there is no alarm. -/
theorem truncated_entry_hides_orphans :
    letI := oneEntryJson
    Orphan (abandoned "local-clone-9-1.json" "") ["ledger"] ["clones"] "local-clone-7-1" ∧
      ¬ Reaped ["clones"] "local-clone-7-1" (reapOrphansWithSweep ["ledger"] ["clones"]
        (abandoned "local-clone-9-1.json" "")) := by
  refine ⟨abandoned_orphan _ _, ?_⟩
  rintro ⟨s, hresult, -⟩
  cases hresult

theorem reaper_misses_no_orphan_abandoned :
    letI := oneEntryJson
    Reaped ["clones"] "local-clone-7-1" (reapOrphansWithSweep ["ledger"] ["clones"]
      (abandoned "local-clone-7-1.json" "entry")) := by
  let _ := oneEntryJson
  refine (reaper_misses_no_orphan (abandoned "local-clone-7-1.json" "entry")
    ["ledger"] ["clones"]).mpr ?_ "local-clone-7-1" (abandoned_orphan _ _)
  intro name horphan
  have hdead : ∀ o : OwnerIdentity, o.isLive (fun _ => none) = false :=
    fun o => (isLive_eq_false_iff o _).mpr (.inl (by simp [pidAlive]))
  refine attributable_of_unclaimed ?_ rfl
    ⟨fun e _ _ => hdead e.owner, fun o _ => hdead o⟩ ?_ ?_
  · have hname : name = .text "local-clone-7-1" := by
      simpa [abandoned] using Files.lookup_eq_some_iff.mp horphan.dir
    rw [hname]
    rfl
  · rw [List.countP_cons, List.countP_nil]
    split <;> omega
  · intro e he hwithin
    rw [List.mem_singleton.mp he] at hwithin ⊢
    exact hwithin.eq_of_length rfl

end PgBrakes.Ports.CloneLedger
