import Mathlib.Data.List.Sort
import PgBrakes.Verified.History
import PgBrakes.Ports.AuditChain
import PgBrakes.Ports.AuditJson

/-!
# Concurrent writers of the audit table

A port of `crates/audit/src/pg.rs` and of the table in
`crates/audit/sql/10_audit_meta.sql`.  Every writer appends in a transaction of its
own: it takes an advisory lock, reads the row with the greatest sequence number,
inserts the next one and commits.  The steps of any number of writers interleave in
any order; a step that cannot be taken now leaves the system as it is.

The database is the table with its constraints, the lock, which one transaction holds
until it ends, and the rule of `READ COMMITTED` that a row is there for the next
statement of the others once its transaction has committed.

## Main results

* `step_keeps` — one step of one writer keeps the table equal to the in-memory chain
  of the committed entries.
* `writers_refine_chain` — so after every interleaving the stored chain verifies and
  holds the committed entries once each, in the order of the commits.
-/

namespace PgBrakes.Ports.Audit

open PgBrakes.Verified.History
open PgBrakes.Verified.MachineWord
open PgBrakes.Ports.KeyChecksum
open PgBrakes.Ports.Approval (SinkError)

/-! ## The table -/

/-- `n as i64`. -/
def asI64 (n : UInt64) : Int :=
  if n.toNat < 2 ^ 63 then n.toNat else (n.toNat : Int) - 2 ^ 64

/-- `i as u64`. -/
def asU64 (i : Int) : UInt64 := UInt64.ofNat (i % 2 ^ 64).toNat

/-- A row of `pgb_audit.audit_log`; the sequence number is a `bigint`. -/
structure AuditRow where
  seq : Int
  prevHash : Hash
  recordHash : Hash
  payload : String
deriving DecidableEq

/-- The rows, in the order they were committed, with the constraints of the table. -/
structure AuditTable where
  rows : List AuditRow
  seqNonneg : ∀ row ∈ rows, 0 ≤ row.seq
  seqUnique : (rows.map (·.seq)).Nodup
  recordHashUnique : (rows.map (·.recordHash)).Nodup

namespace AuditTable

def empty : AuditTable := ⟨[], by simp, by simp, by simp⟩

/-- A row the constraints let in. -/
def Admits (t : AuditTable) (row : AuditRow) : Prop :=
  0 ≤ row.seq ∧ row.seq ∉ t.rows.map (·.seq) ∧ row.recordHash ∉ t.rows.map (·.recordHash)

instance (t : AuditTable) (row : AuditRow) : Decidable (t.Admits row) :=
  inferInstanceAs (Decidable (_ ∧ _ ∧ _))

/-- `INSERT`; nothing when a constraint refuses the row. -/
def insert (t : AuditTable) (row : AuditRow) : Option AuditTable :=
  if h : t.Admits row then
    some
      { rows := t.rows ++ [row]
        seqNonneg := by
          intro r hr
          rcases List.mem_append.mp hr with hr | hr
          · exact t.seqNonneg r hr
          · rw [List.mem_singleton.mp hr]
            exact h.1
        seqUnique := by
          rw [List.map_append]
          exact List.Nodup.append t.seqUnique (by simp)
            (List.disjoint_singleton.mpr h.2.1)
        recordHashUnique := by
          rw [List.map_append]
          exact List.Nodup.append t.recordHashUnique (by simp)
            (List.disjoint_singleton.mpr h.2.2) }
  else none

theorem insert_rows {t t' : AuditTable} {row : AuditRow} (h : t.insert row = some t') :
    t'.rows = t.rows ++ [row] := by
  unfold insert at h
  split at h
  · cases h
    rfl
  · cases h

/-- `ORDER BY seq DESC LIMIT 1`. -/
def greatest (rows : List AuditRow) : Option AuditRow :=
  rows.foldl (fun best row =>
    match best with
    | none => some row
    | some b => if b.seq < row.seq then some row else some b) none

/-- `head_in_txn`.  No row has a negative number, so the sum stays below `2 ^ 64`. -/
def headInTxn (t : AuditTable) : UInt64 × Hash :=
  match greatest t.rows with
  | none => (0, genesisPrevHash)
  | some row => (asU64 row.seq + 1, row.recordHash)

end AuditTable

section

variable [SerdeJson]

/-- The row of a record: its payload is the text that was hashed. -/
def rowOf (r : AuditRecord) : AuditRow :=
  { seq := asI64 r.payload.seq
    prevHash := r.payload.prevHash
    recordHash := r.recordHash
    payload := r.payload.json }

/-- `row_to_record`. -/
def rowToRecord (row : AuditRow) : Except SinkError AuditRecord :=
  match SerdeJson.fromStr row.payload with
  | .ok payload => .ok ⟨payload, row.recordHash⟩
  | .error e => .error ⟨"audit sink backend error: corrupt audit payload json: " ++ e⟩

/-- `load_chain_mut`: the rows by their sequence number. -/
def AuditTable.loadChain (t : AuditTable) : Except SinkError (List AuditRecord) :=
  (t.rows.insertionSort fun a b => a.seq ≤ b.seq).mapM rowToRecord

end

/-! ## Writers -/

/-- How far a writer is with the append of an entry. -/
inductive Phase where
  | idle
  | begun (entry : NewEntry) (timestampMs : UInt64)
  | locked (entry : NewEntry) (timestampMs : UInt64)
  | headRead (entry : NewEntry) (timestampMs : UInt64) (seq : UInt64) (prevHash : Hash)
  | inserted (entry : NewEntry) (timestampMs : UInt64) (record : AuditRecord)

/-- The phases between the lock and the end of the transaction. -/
def Phase.holdsLock : Phase → Bool
  | .locked .. | .headRead .. | .inserted .. => true
  | .idle | .begun .. => false

inductive Action (ι : Type) where
  /-- The call arrives and its transaction begins. -/
  | start (i : ι) (entry : NewEntry) (timestampMs : UInt64)
  /-- `pg_advisory_xact_lock` returns. -/
  | lock (i : ι)
  | readHead (i : ι)
  | insert (i : ι)
  | commit (i : ι)
  /-- The transaction ends without a commit, for whatever reason. -/
  | abort (i : ι)

/-- What a step did to the table. -/
inductive Event (ι : Type) where
  | quiet
  | committed (i : ι) (entry : NewEntry) (timestampMs : UInt64)
  | rolledBack (i : ι)

structure System (ι : Type) where
  table : AuditTable
  lock : Option ι
  writers : ι → Phase

variable {ι : Type}

namespace System

def initial : System ι := ⟨.empty, none, fun _ => .idle⟩

variable [DecidableEq ι]

/-- The writer goes on. -/
def move (s : System ι) (i : ι) (phase : Phase) : System ι :=
  { s with writers := Function.update s.writers i phase }

/-- The writer's transaction ends: it is idle, and its lock is free. -/
def release (s : System ι) (i : ι) : System ι :=
  { table := s.table
    lock := if s.lock = some i then none else s.lock
    writers := Function.update s.writers i .idle }

variable [SerdeJson] [Sha256]

def step : Action ι → System ι → Event ι × System ι
  | .start i entry ts, s =>
      match s.writers i with
      | .idle => (.quiet, s.move i (.begun entry ts))
      | _ => (.quiet, s)
  | .lock i, s =>
      match s.writers i, s.lock with
      | .begun entry ts, none => (.quiet, { s.move i (.locked entry ts) with lock := some i })
      | _, _ => (.quiet, s)
  | .readHead i, s =>
      match s.writers i with
      | .locked entry ts =>
          (.quiet, s.move i (.headRead entry ts s.table.headInTxn.1 s.table.headInTxn.2))
      | _ => (.quiet, s)
  | .insert i, s =>
      match s.writers i with
      | .headRead entry ts seq prevHash =>
          let record := AuditRecord.sealPayload (entry.payload seq ts prevHash)
          -- A constraint that refuses the row ends the transaction.
          if s.table.Admits (rowOf record) then (.quiet, s.move i (.inserted entry ts record))
          else (.rolledBack i, s.release i)
      | _ => (.quiet, s)
  | .commit i, s =>
      match s.writers i with
      | .inserted entry ts record =>
          match s.table.insert (rowOf record) with
          | some table => (.committed i entry ts, { s with table := table }.release i)
          | none => (.rolledBack i, s.release i)
      | _ => (.quiet, s)
  | .abort i, s =>
      match s.writers i with
      | .idle => (.quiet, s)
      | _ => (.rolledBack i, s.release i)

end System

/-! ## Chains of fewer than `2 ^ 63` records -/

section Chain

theorem asU64_asI64 (n : UInt64) : asU64 (asI64 n) = n := by
  have hn := n.toNat_lt
  apply UInt64.toNat_inj.mp
  unfold asU64 asI64
  split
  · rw [UInt64.toNat_ofNat']
    omega
  · rw [UInt64.toNat_ofNat']
    omega

theorem asI64_of_small {n : UInt64} (h : n.toNat < 2 ^ 63) : asI64 n = n.toNat := if_pos h

/-- A number the `bigint` column takes as it is. -/
theorem small_of_asI64_nonneg {n : UInt64} (h : 0 ≤ asI64 n) : n.toNat < 2 ^ 63 := by
  have hn := n.toNat_lt
  unfold asI64 at h
  split at h
  · assumption
  · omega

variable [SerdeJson] [Sha256]

/-- The chain of a list of appends. -/
def chainOf (entries : List (NewEntry × UInt64)) : AuditChain := AuditChain.new.appendAll entries

theorem chainOf_snoc (entries : List (NewEntry × UInt64)) (e : NewEntry) (ts : UInt64) :
    (chainOf (entries ++ [(e, ts)])).records =
      (chainOf entries).records ++ [(chainOf entries).nextRecord e ts] := by
  simp [chainOf, AuditChain.appendAll, AuditChain.append]

theorem chainOf_length (entries : List (NewEntry × UInt64)) :
    (chainOf entries).records.length = entries.length := by
  induction entries using List.reverseRecOn with
  | nil => rfl
  | append_singleton entries entry ih => rw [chainOf_snoc]; simp [ih]

theorem chainOf_entries (entries : List (NewEntry × UInt64)) :
    (chainOf entries).records.map (fun r => (r.payload.entry, r.payload.timestampUnixMillis)) =
      entries := by
  induction entries using List.reverseRecOn with
  | nil => rfl
  | append_singleton entries entry ih =>
      rw [chainOf_snoc, List.map_append, ih]
      rfl

/-- The numbers of a chain stay below its length. -/
theorem seq_lt_length {entries : List (NewEntry × UInt64)} (hsmall : entries.length ≤ 2 ^ 63) :
    ∀ r ∈ (chainOf entries).records, r.payload.seq.toNat < entries.length := by
  induction entries using List.reverseRecOn with
  | nil => simp [chainOf, AuditChain.appendAll, AuditChain.new]
  | append_singleton entries entry ih =>
      have hlen := chainOf_length entries
      simp only [List.length_append, List.length_singleton] at hsmall ⊢
      intro r hr
      rw [chainOf_snoc, List.mem_append, List.mem_singleton] at hr
      rcases hr with hr | rfl
      · have := ih (by omega) r hr
        omega
      · show (chainOf entries).nextSeq.toNat < entries.length + 1
        unfold AuditChain.nextSeq
        rw [UInt64.toNat_ofNat', hlen]
        omega

theorem nextSeq_toNat (entries : List (NewEntry × UInt64)) (hsmall : entries.length ≤ 2 ^ 63) :
    (chainOf entries).nextSeq.toNat = entries.length := by
  unfold AuditChain.nextSeq
  rw [UInt64.toNat_ofNat', chainOf_length]
  omega

/-- The rows of a chain stand in the order of their numbers. -/
theorem rows_sorted {entries : List (NewEntry × UInt64)} (hsmall : entries.length ≤ 2 ^ 63) :
    ((chainOf entries).records.map rowOf).Pairwise fun a b => a.seq < b.seq := by
  induction entries using List.reverseRecOn with
  | nil => simp [chainOf, AuditChain.appendAll, AuditChain.new]
  | append_singleton entries entry ih =>
      simp only [List.length_append, List.length_singleton] at hsmall
      rw [chainOf_snoc, List.map_append, List.pairwise_append]
      refine ⟨ih (by omega), by simp, ?_⟩
      intro a ha b hb
      obtain ⟨r, hr, rfl⟩ := List.mem_map.mp ha
      rw [List.map_singleton, List.mem_singleton] at hb
      subst hb
      have hlow := seq_lt_length (by omega) r hr
      have hnext := nextSeq_toNat entries (by omega)
      show asI64 r.payload.seq < asI64 (chainOf entries).nextSeq
      rw [asI64_of_small (by omega), asI64_of_small (by omega)]
      omega

/-- A chain that fits the column verifies in every build. -/
theorem verifyChain_chainOf {entries : List (NewEntry × UInt64)}
    (hsmall : entries.length ≤ 2 ^ 63) (profile : Profile) :
    verifyChain profile (chainOf entries).records = .intact := by
  have hend : ¬ PastTheEnd none (chainOf entries).records := by
    rintro ⟨before, last, next, after, hsplit, -, hlast, -⟩
    have hmem : last ∈ (chainOf entries).records := by
      rw [hsplit]
      simp
    have hlt := seq_lt_length hsmall last hmem
    rw [hlast] at hlt
    have hvalue : lastSeq.toNat = 2 ^ 64 - 1 := rfl
    omega
  exact (verifyChain_intact hend profile).mpr (appendAll_sound entries).1

end Chain

/-! ## Reading the table -/

section Reading

theorem greatest_mem {rows : List AuditRow} {row : AuditRow}
    (h : AuditTable.greatest rows = some row) : row ∈ rows := by
  induction rows using List.reverseRecOn generalizing row with
  | nil => simp [AuditTable.greatest] at h
  | append_singleton rows last ih =>
      unfold AuditTable.greatest at h ih
      rw [List.foldl_append, List.foldl_cons, List.foldl_nil] at h
      split at h
      · cases h
        simp
      next b hb =>
        split at h
        · cases h
          simp
        · cases h
          simp [ih hb]

/-- Rows that stand in order end with the greatest one. -/
theorem greatest_snoc {rows : List AuditRow} {last : AuditRow}
    (h : ∀ row ∈ rows, row.seq < last.seq) :
    AuditTable.greatest (rows ++ [last]) = some last := by
  have hstep : AuditTable.greatest (rows ++ [last]) =
      match AuditTable.greatest rows with
      | none => some last
      | some b => if b.seq < last.seq then some last else some b := by
    unfold AuditTable.greatest
    rw [List.foldl_append, List.foldl_cons, List.foldl_nil]
  rw [hstep]
  cases hrows : AuditTable.greatest rows with
  | none => rfl
  | some b => exact if_pos (h b (greatest_mem hrows))

variable [SerdeJson]

/-- `serde_json` reads back what it writes for the payload of a record. -/
def ReadsBack (r : AuditRecord) : Prop := SerdeJson.fromStr r.payload.json = .ok r.payload

theorem mapM_rowToRecord {records : List AuditRecord} (hread : ∀ r ∈ records, ReadsBack r) :
    (records.map rowOf).mapM rowToRecord = .ok records := by
  induction records with
  | nil => rfl
  | cons r records ih =>
      have hrest := ih fun a ha => hread a (by simp [ha])
      have hfirst : rowToRecord (rowOf r) = .ok r := by
        have hpayload : SerdeJson.fromStr r.payload.json = .ok r.payload := hread r (by simp)
        unfold rowToRecord rowOf
        simp only [hpayload]
      rw [List.map_cons, List.mapM_cons, hfirst, hrest]
      rfl

variable [Sha256]

/-- The head a writer reads is the head of the chain. -/
theorem headInTxn_eq {t : AuditTable} {entries : List (NewEntry × UInt64)}
    (hrows : t.rows = (chainOf entries).records.map rowOf)
    (hsmall : entries.length ≤ 2 ^ 63) :
    t.headInTxn = ((chainOf entries).nextSeq, (chainOf entries).headHash) := by
  unfold AuditTable.headInTxn
  rw [hrows]
  induction entries using List.reverseRecOn with
  | nil => rfl
  | append_singleton entries entry _ =>
      have hsorted := rows_sorted hsmall
      have hchain := chainOf_snoc entries entry.1 entry.2
      have hnext := nextSeq_toNat (entries ++ [entry]) hsmall
      simp only [List.length_append, List.length_singleton] at hsmall hnext
      rw [hchain, List.map_append, List.pairwise_append] at hsorted
      have hgreatest : AuditTable.greatest ((chainOf (entries ++ [entry])).records.map rowOf) =
          some (rowOf ((chainOf entries).nextRecord entry.1 entry.2)) := by
        rw [hchain, List.map_append]
        exact greatest_snoc fun row hrow => hsorted.2.2 row hrow _ (by simp)
      have hseq : asU64 (asI64 (chainOf entries).nextSeq) + 1 =
          (chainOf (entries ++ [entry])).nextSeq := by
        rw [asU64_asI64]
        unfold AuditChain.nextSeq
        rw [chainOf_length, chainOf_length, List.length_append, List.length_singleton,
          UInt64.ofNat_add]
        rfl
      rw [hgreatest]
      refine Prod.ext hseq ?_
      unfold AuditChain.headHash
      rw [hchain, List.getLast?_concat]
      rfl

/-- The table reads back as the chain. -/
theorem loadChain_eq {t : AuditTable} {entries : List (NewEntry × UInt64)}
    (hrows : t.rows = (chainOf entries).records.map rowOf)
    (hsmall : entries.length ≤ 2 ^ 63) (hread : ∀ r ∈ (chainOf entries).records, ReadsBack r) :
    t.loadChain = .ok (chainOf entries).records := by
  have hsorted : t.rows.insertionSort (fun a b => a.seq ≤ b.seq) = t.rows := by
    apply List.Pairwise.insertionSort_eq
    rw [hrows]
    exact (rows_sorted hsmall).imp fun h => h.le
  unfold AuditTable.loadChain
  rw [hsorted, hrows]
  exact mapM_rowToRecord hread

end Reading

/-! ## Every interleaving -/

section Refinement

/-- The entries committed so far, oldest first. -/
def commits (history : List (Event ι)) : List (NewEntry × UInt64) :=
  history.filterMap fun event =>
    match event with
    | .committed _ entry ts => some (entry, ts)
    | _ => none

theorem commits_snoc (history : List (Event ι)) (event : Event ι) :
    commits (history ++ [event]) = commits history ++ commits [event] := by
  simp [commits]

variable [SerdeJson] [Sha256]

/-- What a writer behind the lock has seen is what the chain of the committed entries
still looks like. -/
def Phase.UpToDate (chain : AuditChain) : Phase → Prop
  | .headRead _ _ seq prevHash => seq = chain.nextSeq ∧ prevHash = chain.headHash
  | .inserted entry ts record => record = chain.nextRecord entry ts
  | .idle | .begun .. | .locked .. => True

/-- The table holds the chain of the committed entries, at most one writer is behind
the lock, and it is up to date. -/
structure Refines (history : List (Event ι)) (s : System ι) : Prop where
  stored : s.table.rows = (chainOf (commits history)).records.map rowOf
  small : (commits history).length ≤ 2 ^ 63
  holder : ∀ i, (s.writers i).holdsLock = true → s.lock = some i
  upToDate : ∀ i, (s.writers i).UpToDate (chainOf (commits history))

theorem Refines.initial : Refines [] (System.initial : System ι) where
  stored := rfl
  small := by simp [commits]
  holder := by simp [System.initial, Phase.holdsLock]
  upToDate := fun _ => trivial

/-- A step that commits nothing, of the one writer it is about. -/
theorem Refines.quiet {history : List (Event ι)} {s s' : System ι} (h : Refines history s)
    {event : Event ι} (hevent : commits [event] = []) (i : ι)
    (htable : s'.table = s.table) (hothers : ∀ j, j ≠ i → s'.writers j = s.writers j)
    (hholder : ∀ j, (s'.writers j).holdsLock = true → s'.lock = some j)
    (hdate : (s'.writers i).UpToDate (chainOf (commits history))) :
    Refines (history ++ [event]) s' := by
  have hcommits : commits (history ++ [event]) = commits history := by
    rw [commits_snoc, hevent, List.append_nil]
  constructor
  · rw [hcommits, htable]
    exact h.stored
  · rw [hcommits]
    exact h.small
  · exact hholder
  · intro j
    rw [hcommits]
    by_cases hj : j = i
    · subst hj
      exact hdate
    · rw [hothers j hj]
      exact h.upToDate j

/-- A step that changes nothing. -/
theorem Refines.stays {history : List (Event ι)} {s : System ι} (h : Refines history s) :
    Refines (history ++ [.quiet]) s := by
  have hcommits : commits (history ++ [(.quiet : Event ι)]) = commits history := by
    simp [commits]
  exact ⟨hcommits ▸ h.stored, hcommits ▸ h.small, h.holder, hcommits ▸ h.upToDate⟩

/-- The phases that remember something of the chain are behind the lock. -/
theorem Phase.upToDate_of_not_holdsLock {phase : Phase} (h : phase.holdsLock = false)
    (chain : AuditChain) : phase.UpToDate chain := by
  cases phase with
  | idle => trivial
  | begun => trivial
  | locked => trivial
  | headRead => simp [Phase.holdsLock] at h
  | inserted => simp [Phase.holdsLock] at h

variable [DecidableEq ι]

/-- The end of a transaction that committed nothing. -/
theorem Refines.released {history : List (Event ι)} {s : System ι} (h : Refines history s)
    (i : ι) : Refines (history ++ [.rolledBack i]) (s.release i) := by
  refine h.quiet (by simp [commits]) i rfl ?_ ?_ ?_
  · intro j hj
    exact Function.update_of_ne hj _ _
  · intro j hj
    by_cases hji : j = i
    · subst hji
      simp [System.release, Phase.holdsLock] at hj
    · have hj' : (s.writers j).holdsLock = true := by
        simpa [System.release, Function.update_of_ne hji] using hj
      have hlock := h.holder j hj'
      simp [System.release, hlock, hji]
  · simp [System.release, Phase.UpToDate]

/-- A writer behind the lock goes on there. -/
theorem Refines.moved {history : List (Event ι)} {s : System ι} (h : Refines history s)
    {i : ι} {phase : Phase} (hlocked : phase.holdsLock = true → s.lock = some i)
    (hdate : phase.UpToDate (chainOf (commits history))) :
    Refines (history ++ [.quiet]) (s.move i phase) := by
  refine h.quiet (by simp [commits]) i rfl ?_ ?_ ?_
  · intro j hj
    exact Function.update_of_ne hj _ _
  · intro j hj
    by_cases hji : j = i
    · subst hji
      exact hlocked (by simpa [System.move] using hj)
    · exact h.holder j (by simpa [System.move, Function.update_of_ne hji] using hj)
  · simpa [System.move] using hdate

/-- A free lock is taken. -/
theorem Refines.locks {history : List (Event ι)} {s : System ι} (h : Refines history s)
    {i : ι} {entry : NewEntry} {ts : UInt64} (hfree : s.lock = none) :
    Refines (history ++ [.quiet]) { s.move i (.locked entry ts) with lock := some i } := by
  refine h.quiet (by simp [commits]) i rfl ?_ ?_ ?_
  · intro j hj
    exact Function.update_of_ne hj _ _
  · intro j hj
    by_cases hji : j = i
    · rw [hji]
    · -- Nobody else can be behind a lock that was free.
      have hj' : (s.writers j).holdsLock = true := by
        simpa [System.move, Function.update_of_ne hji] using hj
      have hheld := h.holder j hj'
      rw [hfree] at hheld
      cases hheld
  · simp [System.move, Phase.UpToDate]

/-- The commit extends the chain by the writer's entry: what it read under the lock is
still the head. -/
theorem Refines.commits {history : List (Event ι)} {s : System ι} (h : Refines history s)
    {i : ι} {entry : NewEntry} {ts : UInt64} {record : AuditRecord} {table : AuditTable}
    (hwriter : s.writers i = .inserted entry ts record)
    (htable : s.table.insert (rowOf record) = some table) :
    Refines (history ++ [.committed i entry ts]) ({ s with table := table }.release i) := by
  have hcommits : Audit.commits (history ++ [.committed i entry ts]) =
      Audit.commits history ++ [(entry, ts)] := by
    simp [Audit.commits]
  have hrecord : record = (chainOf (Audit.commits history)).nextRecord entry ts := by
    have hdate := h.upToDate i
    rw [hwriter] at hdate
    exact hdate
  have hrows := AuditTable.insert_rows htable
  have hlock : s.lock = some i := h.holder i (by rw [hwriter]; rfl)
  have hothers : ∀ j, j ≠ i → (s.writers j).holdsLock = false := by
    intro j hj
    by_contra hheld
    have hj' := h.holder j (by simpa using hheld)
    rw [hlock] at hj'
    exact hj (Option.some.inj hj').symm
  constructor
  · show table.rows = _
    rw [hrows, hcommits, chainOf_snoc, List.map_append, h.stored, hrecord]
    rfl
  · -- The column has no room for the number `2 ^ 63`.
    have hnext := nextSeq_toNat (Audit.commits history) h.small
    have hnonneg : 0 ≤ asI64 (chainOf (Audit.commits history)).nextSeq := by
      have hrow := table.seqNonneg (rowOf record) (by rw [hrows]; simp)
      rw [hrecord] at hrow
      exact hrow
    have hroom := small_of_asI64_nonneg hnonneg
    rw [hcommits, List.length_append, List.length_singleton]
    omega
  · intro j hj
    by_cases hji : j = i
    · subst hji
      simp [System.release, Phase.holdsLock] at hj
    · have hfree := hothers j hji
      simp [System.release, Function.update_of_ne hji, hfree] at hj
  · intro j
    by_cases hji : j = i
    · subst hji
      simp [System.release, Phase.UpToDate]
    · refine Phase.upToDate_of_not_holdsLock ?_ _
      simp [System.release, Function.update_of_ne hji, hothers j hji]

/-- One step of one writer keeps the table equal to the chain. -/
theorem step_keeps {history : List (Event ι)} {s : System ι} (a : Action ι)
    (h : Refines history s) :
    Refines (history ++ [(System.step a s).1]) (System.step a s).2 := by
  cases a with
  | start i entry ts =>
      simp only [System.step]
      split
      · exact h.moved (by simp [Phase.holdsLock]) trivial
      · exact h.stays
  | lock i =>
      simp only [System.step]
      split
      next hfree => exact h.locks hfree
      · exact h.stays
  | readHead i =>
      simp only [System.step]
      split
      next entry ts hwriter =>
        have hlock := h.holder i (by rw [hwriter]; rfl)
        rw [headInTxn_eq h.stored h.small]
        exact h.moved (fun _ => hlock) ⟨rfl, rfl⟩
      · exact h.stays
  | insert i =>
      simp only [System.step]
      split
      next entry ts seq prevHash hwriter =>
        have hlock := h.holder i (by rw [hwriter]; rfl)
        have hdate := h.upToDate i
        rw [hwriter] at hdate
        split
        · refine h.moved (fun _ => hlock) ?_
          obtain ⟨rfl, rfl⟩ := hdate
          rfl
        · exact h.released i
      · exact h.stays
  | commit i =>
      simp only [System.step]
      split
      next entry ts record hwriter =>
        split
        next table htable => exact h.commits hwriter htable
        · exact h.released i
      · exact h.stays
  | abort i =>
      simp only [System.step]
      split
      · exact h.stays
      · exact h.released i

/-- Any steps of any writers keep the table equal to the chain. -/
theorem refines_run (actions : List (Action ι)) :
    Refines (run System.step actions (System.initial : System ι)).1
      (run System.step actions (System.initial : System ι)).2 :=
  (run_rule System.step Refines (fun _ => True) (fun _ _ => True)
    (fun _ _ a _ h => ⟨trivial, step_keeps a h⟩) Refines.initial (fun _ _ => trivial)).1

end Refinement

section Stored

variable {ι : Type} [DecidableEq ι] [JsonReader]

/-- A record reads back when the crate parses its text and its rate reads back. -/
theorem readsBack_of_rate {r : AuditRecord} (hparse : Parses r.payload)
    (hrate : RateReadsBack r.payload.intent.t2.ratePerMin) : ReadsBack r := by
  unfold ReadsBack
  rw [fromStr_json hparse, readBackRate_eq_iff.mpr hrate]
  rfl

variable [Sha256]

/-- The rates of the records are the rates of the entries. -/
theorem rate_of_entries {entries : List (NewEntry × UInt64)}
    (hrates : ∀ entry ∈ entries, RateReadsBack entry.1.intent.t2.ratePerMin) :
    ∀ r ∈ (chainOf entries).records, RateReadsBack r.payload.intent.t2.ratePerMin := by
  intro r hr
  refine hrates (r.payload.entry, r.payload.timestampUnixMillis) ?_
  rw [← chainOf_entries entries]
  exact List.mem_map.mpr ⟨r, hr, rfl⟩

/-- The records of entries whose rates read back are read back. -/
theorem readsBack_of_entries {entries : List (NewEntry × UInt64)}
    (hrates : ∀ entry ∈ entries, RateReadsBack entry.1.intent.t2.ratePerMin)
    (hparse : ∀ r ∈ (chainOf entries).records, Parses r.payload) :
    ∀ r ∈ (chainOf entries).records, ReadsBack r :=
  fun r hr => readsBack_of_rate (hparse r hr) (rate_of_entries hrates r hr)

/-- The stored chain after any steps of any writers that committed entries whose rates
read back: it reads back as the in-memory chain of the committed entries, it verifies in
every build, and its entries are the committed ones in the order of the commits. -/
theorem writers_refine_chain (profile : Profile) (actions : List (Action ι))
    (hrates : ∀ entry ∈ commits (run System.step actions (System.initial : System ι)).1,
      RateReadsBack entry.1.intent.t2.ratePerMin)
    (hparse : ∀ r ∈ (AuditChain.new.appendAll
      (commits (run System.step actions (System.initial : System ι)).1)).records,
      Parses r.payload) :
    ∃ records,
      (run System.step actions (System.initial : System ι)).2.table.loadChain = .ok records ∧
      verifyChain profile records = .intact ∧
      records.map (fun r => (r.payload.entry, r.payload.timestampUnixMillis)) =
        commits (run System.step actions (System.initial : System ι)).1 ∧
      records = (AuditChain.new.appendAll
        (commits (run System.step actions (System.initial : System ι)).1)).records := by
  have hinv := refines_run actions
  have hread := readsBack_of_entries hrates hparse
  refine ⟨_, loadChain_eq hinv.stored hinv.small hread, ?_, ?_, rfl⟩
  · exact verifyChain_chainOf hinv.small profile
  · exact chainOf_entries _

end Stored

/-! ## Two writers at once -/

/-- The `serde_json` crate on a few texts. -/
@[reducible] def JsonReader.knowing (texts : List (String × AuditPayload)) : JsonReader where
  f64 := fun _ => "12.0"
  parse := fun text =>
    let _writer : JsonReader := ⟨fun _ => "12.0", fun _ => none, fun _ => none, fun _ => ""⟩
    (texts.lookup text).map AuditPayload.toJson
  readF64 := fun _ => none
  error := fun _ => "expected value at line 1 column 1"

/-- A payload parses whose canonical text the crate knows. -/
theorem parses_knowing {texts : List (String × AuditPayload)} {text : String}
    {p : AuditPayload} (hknown : texts.lookup text = some p)
    (htext : @AuditPayload.json (@JsonReader.toSerdeJson (.knowing texts)) p = text) :
    @Parses (.knowing texts) p := by
  let _ := JsonReader.knowing texts
  rw [AuditPayload.json_eq_render] at htext
  unfold Parses
  rw [htext]
  show (texts.lookup text).map _ = _
  rw [hknown]
  rfl

/-- The canonical text of a record of `SELECT 1`. -/
def selectOneText (seq timestampMs decision : String) (prevHash : Hash) : String :=
  "\x7b\"seq\":" ++ seq ++ ",\"statement_text\":\"SELECT 1\",\"decision\":\"" ++ decision ++
    "\",\"reason_code\":\"ok\",\"principal\":\x7b\"role\":\"pgb_agent\"\x7d," ++
    "\"timestamp_unix_millis\":" ++ timestampMs ++ ",\"prev_hash\":\"" ++ prevHash ++ "\"\x7d"

/-- The payloads of two records of `SELECT 1`, and their hashes. -/
def firstSelect : AuditPayload := selectOne.payload 0 42 genesisPrevHash

def firstHash : Hash := "98aae0c5975f07dd4f102e1e4d175bf2fe0f9d020031bdfcd06ece56cbaa18e0"

def secondSelect : AuditPayload := selectOne.payload 1 43 firstHash

def secondHash : Hash := "a31a881a02e42e3f051bbe58eb0898036d8558bac3b56a2b5be235aef307d0c2"

def twoSelects : List (NewEntry × UInt64) := [(selectOne, 42), (selectOne, 43)]

/-- Their texts. -/
def selectTexts : List (String × AuditPayload) :=
  [(selectOneText "0" "42" "ALLOW" genesisPrevHash, firstSelect),
    (selectOneText "1" "43" "ALLOW" firstHash, secondSelect)]

@[reducible] def twoTexts : JsonReader := .knowing (selectTexts ++ [])

/-- The second writer waits for the lock and reads the head behind the first one's
commit. -/
def twoWriters : List (Action Bool) :=
  [.start false selectOne 42, .start true selectOne 43, .lock false, .lock true,
    .readHead false, .insert false, .commit false, .lock true, .readHead true, .insert true,
    .commit true]

theorem rates_twoSelects [JsonReader] :
    ∀ entry ∈ twoSelects, RateReadsBack entry.1.intent.t2.ratePerMin := by
  intro entry hentry
  simp only [twoSelects, List.mem_cons, List.not_mem_nil, or_false] at hentry
  rcases hentry with rfl | rfl
  all_goals simp [RateReadsBack, selectOne, IntentTiers.default]

/-- The hashes do not depend on what the crate reads. -/
theorem select_hashes (texts : List (String × AuditPayload)) :
    letI := JsonReader.knowing texts
    letI := Sha256.standard
    firstSelect.computeHash = firstHash ∧ secondSelect.computeHash = secondHash := by
  have hhashes : @AuditPayload.computeHash (JsonReader.knowing []).toSerdeJson .standard
      firstSelect = firstHash ∧
      @AuditPayload.computeHash (JsonReader.knowing []).toSerdeJson .standard secondSelect =
        secondHash := by
    decide +kernel
  exact hhashes

/-- The second record is linked to the first. -/
theorem chainOf_twoSelects (texts : List (String × AuditPayload)) :
    letI := JsonReader.knowing texts
    letI := Sha256.standard
    (chainOf twoSelects).records = [.sealPayload firstSelect, .sealPayload secondSelect] := by
  let _ := JsonReader.knowing texts
  let _ := Sha256.standard
  show [AuditRecord.sealPayload firstSelect,
    .sealPayload (selectOne.payload 1 43 firstSelect.computeHash)] = _
  rw [(select_hashes texts).1]
  rfl

theorem twoSelects_parse (more : List (String × AuditPayload)) :
    letI := JsonReader.knowing (selectTexts ++ more)
    letI := Sha256.standard
    ∀ r ∈ (chainOf twoSelects).records, Parses r.payload := by
  let _ := JsonReader.knowing (selectTexts ++ more)
  let _ := Sha256.standard
  have htexts : @AuditPayload.json (JsonReader.knowing []).toSerdeJson firstSelect =
      selectOneText "0" "42" "ALLOW" genesisPrevHash ∧
      @AuditPayload.json (JsonReader.knowing []).toSerdeJson secondSelect =
        selectOneText "1" "43" "ALLOW" firstHash := by
    decide +kernel
  have hother : (selectOneText "1" "43" "ALLOW" firstHash ==
      selectOneText "0" "42" "ALLOW" genesisPrevHash) = false := by
    decide +kernel
  intro r hr
  rw [chainOf_twoSelects] at hr
  simp only [List.mem_cons, List.not_mem_nil, or_false] at hr
  rcases hr with rfl | rfl
  · exact parses_knowing List.lookup_cons_self htexts.1
  · refine parses_knowing ?_ htexts.2
    show List.lookup _ (_ :: (_, secondSelect) :: more) = _
    rw [List.lookup_cons, hother]
    exact List.lookup_cons_self

/-- Both writers commit. -/
theorem commits_twoWriters :
    letI := twoTexts
    letI := Sha256.standard
    commits (run System.step twoWriters (System.initial : System Bool)).1 = twoSelects := by
  decide +kernel

theorem writers_refine_chain_two :
    letI := twoTexts
    letI := Sha256.standard
    commits (run System.step twoWriters (System.initial : System Bool)).1 = twoSelects ∧
      ∃ records,
        (run System.step twoWriters (System.initial : System Bool)).2.table.loadChain =
          .ok records ∧
        verifyChain .checked records = .intact ∧
        records.map (fun r => (r.payload.entry, r.payload.timestampUnixMillis)) =
          commits (run System.step twoWriters (System.initial : System Bool)).1 ∧
        records = (AuditChain.new.appendAll
          (commits (run System.step twoWriters (System.initial : System Bool)).1)).records := by
  refine ⟨commits_twoWriters,
    @writers_refine_chain Bool _ twoTexts .standard .checked twoWriters ?_ ?_⟩
  · rw [commits_twoWriters]
    exact @rates_twoSelects twoTexts
  · have hparse := twoSelects_parse []
    unfold chainOf at hparse
    rw [commits_twoWriters]
    exact hparse

end PgBrakes.Ports.Audit
