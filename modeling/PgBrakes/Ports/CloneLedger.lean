import PgBrakes.Verified.FileTree
import PgBrakes.Ports.ExplainGate

/-!
# The clone ledger and the reaper

A port of `crates/clone-orchestrator/src/provider/ledger.rs`.  Every clone has a file in a
ledger directory and a marker in its own directory, both naming the process that owns it by
pid and start time.  The reaper goes over the ledger and then over the clone root, and
removes the clones for which no owner is alive.

Two things the reaper cannot see are part of the model: which incarnation of a pid wrote a
file, and which one has the pid now.

## Main results

* `isLive_eq_false_iff` — when an owner is taken for dead.
* `readEntries_eq_ok`, `readEntries_of_ok` — the loop over the files of the ledger.
* `entries_below` — the ledger, read again after removals.
-/

namespace PgBrakes.Ports.CloneLedger

open PgBrakes.Verified.FileTree (Files Node)
open PgBrakes.Ports.ExplainGate (isWhitespace digitsValue)

/-! ## Names -/

/-- The name of a file: text, or bytes that are none. -/
inductive OsName where
  | text (s : String)
  | bytes (b : List UInt8) (h : ¬ ByteArray.IsValidUTF8 ⟨b.toArray⟩)
deriving DecidableEq

instance : Coe String OsName := ⟨.text⟩

/-- `OsStr::to_str`. -/
def OsName.toStr : OsName → Option String
  | .text s => some s
  | .bytes _ _ => none

/-- The length of the character that starts with a byte, and the bounds of its second
byte. -/
def characterStart (b : UInt8) : Option (Nat × UInt8 × UInt8) :=
  if 0xc2 ≤ b ∧ b ≤ 0xdf then some (2, 0x80, 0xbf)
  else if b = 0xe0 then some (3, 0xa0, 0xbf)
  else if b = 0xed then some (3, 0x80, 0x9f)
  else if 0xe1 ≤ b ∧ b ≤ 0xef then some (3, 0x80, 0xbf)
  else if b = 0xf0 then some (4, 0x90, 0xbf)
  else if 0xf1 ≤ b ∧ b ≤ 0xf3 then some (4, 0x80, 0xbf)
  else if b = 0xf4 then some (4, 0x80, 0x8f)
  else none

/-- `String::from_utf8_lossy`, with the number of bytes as fuel: the bytes that start a
character and do not end one are shown as one replacement character. -/
def lossy : Nat → List UInt8 → List Char
  | 0, _ => []
  | _, [] => []
  | fuel + 1, b :: rest =>
      if b < 0x80 then Char.ofNat b.toNat :: lossy fuel rest
      else
        match characterStart b with
        | none => '\uFFFD' :: lossy fuel rest
        | some (n, low, high) =>
            let tail := match rest with
              | [] => []
              | c :: cs =>
                  if low ≤ c ∧ c ≤ high then
                    c :: (cs.take (n - 2)).takeWhile fun c => decide (0x80 ≤ c ∧ c ≤ 0xbf)
                  else []
            let first := b.toNat % 2 ^ (7 - n)
            let value := tail.foldl (fun v c => v * 64 + c.toNat % 64) first
            (if tail.length + 1 = n then Char.ofNat value else '\uFFFD') ::
              lossy fuel (rest.drop tail.length)

def OsName.display : OsName → String
  | .text s => s
  | .bytes b _ => String.ofList (lossy b.length b)

abbrev Path := PgBrakes.Verified.FileTree.Path OsName

/-! ## Entries, owners and errors -/

inductive CloneError where
  | tooling (message : String)
  | provision (message : String)
  | teardown (message : String)
  | governance (message : String)
deriving DecidableEq

/-- A process, by its pid and the start time `ps` shows for it. -/
structure OwnerIdentity where
  pid : Nat
  start : String
deriving DecidableEq

structure LedgerEntry where
  cloneId : String
  datadir : Path
  port : Nat
  ownerPid : Nat
  ownerStart : String
deriving DecidableEq

def LedgerEntry.pidfile (e : LedgerEntry) : Path := e.datadir ++ [.text "postmaster.pid"]

def LedgerEntry.owner (e : LedgerEntry) : OwnerIdentity := ⟨e.ownerPid, e.ownerStart⟩

def ownerMarker : OsName := ".pgb_clone_owner.json"

/-- What `serde_json` reads and writes, with the text of its errors. -/
class LedgerJson where
  encodeEntry : LedgerEntry → String
  decodeEntry : String → Except String LedgerEntry
  encodeOwner : OwnerIdentity → String
  decodeOwner : String → Except String OwnerIdentity

/-! ## Processes -/

/-- A process that is running. -/
structure Process where
  /-- Which of the processes that had this pid it is. -/
  incarnation : Nat
  /-- What `ps -o lstart=` prints for it, if that succeeds. -/
  lstart : Option String
  /-- Whether the reaper may signal it. -/
  permitted : Bool
  /-- Whether it exits when it is told to. -/
  exits : Bool
deriving DecidableEq

abbrev ProcessTable := Nat → Option Process

def processStartTime (procs : ProcessTable) (pid : Nat) : Option String :=
  if pid = 0 then none
  else ((procs pid).bind Process.lstart).filter fun s => decide (s ≠ "")

/-- `kill -0`, which also fails on a process of somebody else. -/
def pidAlive (procs : ProcessTable) (pid : Nat) : Bool :=
  decide (pid ≠ 0) && (procs pid).any Process.permitted

def OwnerIdentity.isLive (o : OwnerIdentity) (procs : ProcessTable) : Bool :=
  if !pidAlive procs o.pid then false
  else match processStartTime procs o.pid with
    | some now => if o.start ≠ "" then decide (now = o.start) else true
    | none => true

/-! ## The ledger -/

/-- The content of a file, or the error of reading it, and the incarnation that wrote it. -/
structure FileBody where
  content : Except String String
  writer : Nat

abbrev Disk := Files OsName FileBody

/-- `Path::display`. -/
def display (p : Path) : String := "/" ++ "/".intercalate (p.map OsName.display)

/-- `fs::read`. -/
def read (fs : Disk) (p : Path) : Except String String :=
  match fs.lookup p with
  | some (.file body) => body.content
  | some .dir => .error "Is a directory (os error 21)"
  | none => .error "No such file or directory (os error 2)"

inductive ReadDir where
  | names (names : List OsName)
  | notFound
  | failed (message : String)

/-- `fs::read_dir`. -/
def readDir (fs : Disk) (p : Path) : ReadDir :=
  match fs.lookup p with
  | some .dir => .names (fs.names p)
  | some (.file _) => .failed "Not a directory (os error 20)"
  | none => .notFound

/-- `Path::extension() == Some("json")`. -/
def hasJsonExtension : OsName → Bool
  | .text s => ".json".toList.isSuffixOf s.toList && decide (s ≠ ".json")
  | .bytes b _ => ".json".toUTF8.toList.isSuffixOf b

def sanitize (cloneId : String) : String :=
  String.ofList (cloneId.toList.map fun c =>
    if c.isAlphanum || c = '-' || c = '_' then c else '_')

def entryPath (ledgerDir : Path) (cloneId : String) : Path :=
  ledgerDir ++ [.text (sanitize cloneId ++ ".json")]

def forget (ledgerDir : Path) (fs : Disk) (cloneId : String) : Disk :=
  fs.removeFile (entryPath ledgerDir cloneId)

section

variable [LedgerJson]

/-- One file of the ledger. -/
def readEntry (fs : Disk) (path : Path) : Except CloneError LedgerEntry :=
  match read fs path with
  | .error e => .error (.tooling s!"ledger read {display path}: {e}")
  | .ok bytes =>
      match LedgerJson.decodeEntry bytes with
      | .error e => .error (.tooling s!"ledger decode {display path}: {e}")
      | .ok entry => .ok entry

/-- The loop of `CloneLedger::entries`: the first file that cannot be read ends it. -/
def readEntries (fs : Disk) (ledgerDir : Path) :
    List OsName → Except CloneError (List LedgerEntry)
  | [] => .ok []
  | name :: names =>
      if hasJsonExtension name then
        match readEntry fs (ledgerDir ++ [name]) with
        | .error e => .error e
        | .ok entry => (readEntries fs ledgerDir names).map (entry :: ·)
      else readEntries fs ledgerDir names

/-- `CloneLedger::entries`. -/
def entries (fs : Disk) (ledgerDir : Path) : Except CloneError (List LedgerEntry) :=
  match readDir fs ledgerDir with
  | .names names => readEntries fs ledgerDir names
  | .notFound => .ok []
  | .failed e => .error (.tooling s!"ledger read: {e}")

def readOwnerMarker (fs : Disk) (datadir : Path) : Option OwnerIdentity :=
  match read fs (datadir ++ [ownerMarker]) with
  | .error _ => none
  | .ok bytes => (LedgerJson.decodeOwner bytes).toOption

end

/-! ## Destroying an orphan -/

/-- `str::trim`. -/
def trim (cs : List Char) : List Char :=
  ((cs.dropWhile isWhitespace).reverse.dropWhile isWhitespace).reverse

/-- `str::parse::<u32>`. -/
def parseU32 (cs : List Char) : Option Nat :=
  let digits := if cs.head? = some '+' then cs.tail else cs
  if digits = [] ∨ digits.any (fun c => !c.isDigit) then none
  else if digitsValue digits < UInt32.size then some (digitsValue digits) else none

/-- The pid on the first line of a `postmaster.pid`. -/
def postmasterPid (fs : Disk) (pidfile : Path) : Option Nat :=
  match read fs pidfile with
  | .error _ => none
  | .ok text =>
      if text = "" then none
      else parseU32 (trim (text.toList.takeWhile fun c => decide (c ≠ '\n')))

/-- Ask a process to exit, twice if need be, and wait for it. -/
def stop (procs : ProcessTable) (pid : Nat) : ProcessTable :=
  if (procs pid).any Process.exits then fun p => if p = pid then none else procs p else procs

/-- The machine the reaper works on. -/
structure Machine where
  fs : Disk
  procs : ProcessTable

def destroyOrphan (m : Machine) (e : LedgerEntry) : Machine where
  procs := match postmasterPid m.fs e.pidfile with
    | some pid => if pidAlive m.procs pid then stop m.procs pid else m.procs
    | none => m.procs
  fs := m.fs.removeDirAll e.datadir

def Machine.exists (m : Machine) (p : Path) : Bool := (m.fs.lookup p).isSome

/-! ## The pass -/

structure OrphanAlarm where
  cloneId : String
  datadir : Path
  port : Nat
  ownerPid : Nat
  reaped : Bool
deriving DecidableEq

structure ReapOutcome where
  alarms : List OrphanAlarm
  liveSkipped : List String
deriving DecidableEq

/-- The pass in the middle of its work. -/
structure Pass where
  machine : Machine
  outcome : ReapOutcome

/-- Destroy a clone, raise the alarm for it, and forget it if it is gone. -/
def reap (ledgerDir : Path) (s : Pass) (e : LedgerEntry) : Pass :=
  let m := destroyOrphan s.machine e
  let reaped := !m.exists e.datadir
  { machine := if reaped then { m with fs := forget ledgerDir m.fs e.cloneId } else m
    outcome :=
      { s.outcome with
        alarms := s.outcome.alarms ++ [⟨e.cloneId, e.datadir, e.port, e.ownerPid, reaped⟩] } }

def skip (s : Pass) (cloneId : String) : Pass :=
  { s with outcome := { s.outcome with liveSkipped := s.outcome.liveSkipped ++ [cloneId] } }

/-- One round of the loop over the ledger. -/
def reapEntry (ledgerDir : Path) (s : Pass) (e : LedgerEntry) : Pass :=
  if e.owner.isLive s.machine.procs then skip s e.cloneId else reap ledgerDir s e

/-- The entry the sweep makes up for a directory it found.  The port is not known. -/
def sweptEntry (name : String) (path : Path) (owner : Option OwnerIdentity) : LedgerEntry where
  cloneId := name
  datadir := path
  port := 0
  ownerPid := (owner.map OwnerIdentity.pid).getD 0
  ownerStart := (owner.map OwnerIdentity.start).getD ""

def isCloneDatadirName (name : String) : Bool := "local-clone-".toList.isPrefixOf name.toList

section

variable [LedgerJson]

def reapFromLedger (ledgerDir : Path) (s : Pass) : Except CloneError Pass :=
  (entries s.machine.fs ledgerDir).map fun es => es.foldl (reapEntry ledgerDir) s

/-- One round of the loop over the clone root, against the ledger as it was read. -/
def sweepChild (ledgerDir cloneRoot : Path) (ledgerEntries : List LedgerEntry) (s : Pass)
    (name : OsName) : Pass :=
  let path := cloneRoot ++ [name]
  match name.toStr with
  | none => s
  | some cloneId =>
      if !s.machine.fs.isDir path || !isCloneDatadirName cloneId then s
      else if s.outcome.alarms.any fun a => decide (a.datadir = path) then s
      else if ledgerEntries.any fun e =>
          decide (e.datadir = path) && e.owner.isLive s.machine.procs then skip s cloneId
      else
        let owner := readOwnerMarker s.machine.fs path
        if owner.any fun o => o.isLive s.machine.procs then skip s cloneId
        else reap ledgerDir s (sweptEntry cloneId path owner)

def sweepCloneRoot (ledgerDir cloneRoot : Path) (s : Pass) : Except CloneError Pass :=
  match readDir s.machine.fs cloneRoot with
  | .notFound => .ok s
  | .failed e => .error (.tooling ("sweep read \"" ++ display cloneRoot ++ "\": " ++ e))
  | .names names =>
      (entries s.machine.fs ledgerDir).map fun ledgerEntries =>
        names.foldl (sweepChild ledgerDir cloneRoot ledgerEntries) s

def reapOrphansWithSweep (ledgerDir cloneRoot : Path) (m : Machine) :
    Except CloneError Pass := do
  let s ← reapFromLedger ledgerDir ⟨m, ⟨[], []⟩⟩
  sweepCloneRoot ledgerDir cloneRoot s

end

/-! ## Liveness -/

/-- One table has no process that the other has not. -/
def Fewer (procs procs' : ProcessTable) : Prop :=
  ∀ pid p, procs pid = some p → procs' pid = some p

theorem Fewer.trans {a b c : ProcessTable} (h : Fewer a b) (h' : Fewer b c) : Fewer a c :=
  fun pid p hp => h' pid p (h pid p hp)

/-- An owner is taken for dead exactly if its pid is free, or in use by a process that `ps`
tells apart from the one on record. -/
theorem isLive_eq_false_iff (o : OwnerIdentity) (procs : ProcessTable) :
    o.isLive procs = false ↔ pidAlive procs o.pid = false ∨
      ∃ now, processStartTime procs o.pid = some now ∧ o.start ≠ "" ∧ now ≠ o.start := by
  unfold OwnerIdentity.isLive
  cases halive : pidAlive procs o.pid with
  | false => simp
  | true =>
      cases hstart : processStartTime procs o.pid with
      | none => simp
      | some now =>
          by_cases hrecorded : o.start = ""
          · simp [hrecorded]
          · simp [hrecorded]

theorem pidAlive_mono {procs procs' : ProcessTable} (h : Fewer procs procs') {pid : Nat}
    (halive : pidAlive procs pid = true) :
    pidAlive procs' pid = true ∧ processStartTime procs' pid = processStartTime procs pid := by
  unfold pidAlive at halive ⊢
  rw [Bool.and_eq_true] at halive
  obtain ⟨hne, hany⟩ := halive
  cases hp : procs pid with
  | none =>
      rw [hp] at hany
      cases hany
  | some p =>
      rw [hp] at hany
      unfold processStartTime
      rw [h pid p hp, hp, hne]
      exact ⟨hany, rfl⟩

/-- An owner that is taken for dead stays so when processes exit. -/
theorem isLive_mono {procs procs' : ProcessTable} (h : Fewer procs procs') {o : OwnerIdentity}
    (hdead : o.isLive procs' = false) : o.isLive procs = false := by
  rw [isLive_eq_false_iff] at hdead ⊢
  cases halive : pidAlive procs o.pid with
  | false => exact .inl rfl
  | true =>
      obtain ⟨halive', hstart⟩ := pidAlive_mono h halive
      rcases hdead with hfree | ⟨now, hnow, hne⟩
      · rw [halive'] at hfree
        cases hfree
      · exact .inr ⟨now, hstart ▸ hnow, hne⟩

theorem stop_fewer (procs : ProcessTable) (pid : Nat) : Fewer (stop procs pid) procs := by
  intro p q hq
  unfold stop at hq
  split at hq
  · by_cases hp : p = pid
    · simp [hp] at hq
    · simpa [hp] using hq
  · exact hq

/-! ## The ledger, read again -/

theorem read_below {fs fs' : Disk} (h : Files.Below fs' fs) {p : Path}
    (hp : ∃ n, fs'.lookup p = some n) : read fs' p = read fs p := by
  obtain ⟨n, hn⟩ := hp
  unfold read
  rw [hn, h.lookup hn]

section

variable [LedgerJson]

/-- The ledger is read if every file of it is. -/
theorem readEntries_eq_ok {fs : Disk} {ledgerDir : Path} {names : List OsName}
    (h : ∀ name ∈ names, hasJsonExtension name = true →
      ∃ e, readEntry fs (ledgerDir ++ [name]) = .ok e) :
    ∃ es, readEntries fs ledgerDir names = .ok es := by
  induction names with
  | nil => exact ⟨[], rfl⟩
  | cons name names ih =>
      obtain ⟨es, hes⟩ := ih fun n hn => h n (List.mem_cons_of_mem name hn)
      rw [readEntries]
      cases hjson : hasJsonExtension name with
      | false => exact ⟨es, hes⟩
      | true =>
          obtain ⟨e, he⟩ := h name List.mem_cons_self hjson
          rw [if_pos rfl, he, hes]
          exact ⟨e :: es, rfl⟩

/-- What the ledger shows is what its files hold. -/
theorem readEntries_of_ok {fs : Disk} {ledgerDir : Path} {names : List OsName}
    {es : List LedgerEntry} (h : readEntries fs ledgerDir names = .ok es) :
    (∀ name ∈ names, hasJsonExtension name = true →
      ∃ e ∈ es, readEntry fs (ledgerDir ++ [name]) = .ok e) ∧
    ∀ e ∈ es, ∃ name ∈ names, hasJsonExtension name = true ∧
      readEntry fs (ledgerDir ++ [name]) = .ok e := by
  induction names generalizing es with
  | nil =>
      cases h
      simp
  | cons name names ih =>
      rw [readEntries] at h
      cases hjson : hasJsonExtension name with
      | false =>
          rw [hjson, if_neg Bool.false_ne_true] at h
          obtain ⟨hread, hfrom⟩ := ih h
          refine ⟨?_, fun e he => ?_⟩
          · intro n hn hnjson
            rcases List.mem_cons.mp hn with rfl | hn
            · rw [hjson] at hnjson
              cases hnjson
            · exact hread n hn hnjson
          · obtain ⟨n, hn, hrest⟩ := hfrom e he
            exact ⟨n, List.mem_cons_of_mem name hn, hrest⟩
      | true =>
          rw [hjson, if_pos rfl] at h
          cases hentry : readEntry fs (ledgerDir ++ [name]) with
          | error err =>
              rw [hentry] at h
              cases h
          | ok entry =>
              rw [hentry] at h
              cases hrest : readEntries fs ledgerDir names with
              | error err =>
                  rw [hrest] at h
                  cases h
              | ok rest =>
                  rw [hrest] at h
                  cases h
                  obtain ⟨hread, hfrom⟩ := ih hrest
                  refine ⟨?_, fun e he => ?_⟩
                  · intro n hn hnjson
                    rcases List.mem_cons.mp hn with rfl | hn
                    · exact ⟨entry, List.mem_cons_self, hentry⟩
                    · obtain ⟨e, he, hread⟩ := hread n hn hnjson
                      exact ⟨e, List.mem_cons_of_mem entry he, hread⟩
                  · rcases List.mem_cons.mp he with rfl | he
                    · exact ⟨name, List.mem_cons_self, hjson, hentry⟩
                    · obtain ⟨n, hn, hrest⟩ := hfrom e he
                      exact ⟨n, List.mem_cons_of_mem name hn, hrest⟩

theorem readEntry_below {fs fs' : Disk} (h : Files.Below fs' fs) {path : Path}
    (hp : ∃ n, fs'.lookup path = some n) : readEntry fs' path = readEntry fs path := by
  unfold readEntry
  rw [read_below h hp]

/-- The ledger can be read again after removals, and shows nothing new. -/
theorem entries_below {fs fs' : Disk} {ledgerDir : Path} {es : List LedgerEntry}
    (h : entries fs ledgerDir = .ok es) (hbelow : Files.Below fs' fs) :
    ∃ es', entries fs' ledgerDir = .ok es' ∧ es' ⊆ es := by
  unfold entries readDir at h ⊢
  cases hdir : fs'.lookup ledgerDir with
  | none => exact ⟨[], rfl, List.nil_subset es⟩
  | some n =>
      rw [hbelow.lookup hdir] at h
      cases n with
      | file body => cases h
      | dir =>
          have hthere : ∀ name ∈ fs'.names ledgerDir, name ∈ fs.names ledgerDir ∧
              readEntry fs' (ledgerDir ++ [name]) = readEntry fs (ledgerDir ++ [name]) := by
            intro name hname
            obtain ⟨n, hn⟩ := Files.mem_names_iff.mp hname
            exact ⟨Files.mem_names_iff.mpr ⟨n, hbelow _ hn⟩,
              readEntry_below hbelow ⟨n, Files.lookup_eq_some_iff.mpr hn⟩⟩
          obtain ⟨hread, hfrom⟩ := readEntries_of_ok h
          obtain ⟨es', hes'⟩ : ∃ es', readEntries fs' ledgerDir (fs'.names ledgerDir) =
              .ok es' := by
            refine readEntries_eq_ok fun name hname hjson => ?_
            obtain ⟨e, -, he⟩ := hread name (hthere name hname).1 hjson
            exact ⟨e, (hthere name hname).2.trans he⟩
          refine ⟨es', hes', ?_⟩
          intro e he
          obtain ⟨name, hname, hjson, hentry⟩ := (readEntries_of_ok hes').2 e he
          obtain ⟨e', he', hentry'⟩ := hread name (hthere name hname).1 hjson
          rw [← (hthere name hname).2, hentry] at hentry'
          cases hentry'
          exact he'

theorem readOwnerMarker_below {fs fs' : Disk} (h : Files.Below fs' fs) {path : Path}
    {o : OwnerIdentity} (ho : readOwnerMarker fs' path = some o) :
    readOwnerMarker fs path = some o := by
  have hthere : ∃ n, fs'.lookup (path ++ [ownerMarker]) = some n := by
    cases hlookup : fs'.lookup (path ++ [ownerMarker]) with
    | none =>
        unfold readOwnerMarker read at ho
        rw [hlookup] at ho
        cases ho
    | some n => exact ⟨n, rfl⟩
  rw [← ho]
  unfold readOwnerMarker
  rw [read_below h hthere]

end

end PgBrakes.Ports.CloneLedger
