import PgBrakes.Ports.AuditBoot

/-!
# Restarts of an honest deployment

The life of the audit chain across processes, as `crates/proxy/src/main.rs` and
`crates/audit/src/boot.rs` run it: entries are appended, the owner of the anchor ticks on
its interval, processes start and stop, in any order.  Nobody touches the table or the
anchor file otherwise.

A start reads the anchor file, then checks the chain against the newest entry it has
found there, and the owner publishes the head of the chain it has checked.  A tick, which
is `maybe_anchor`, reads the chain and publishes its head.  Nothing is locked between
these steps, so others append and publish in between, and a process may stop there.

A boot compares the anchored head with the current one.  A record that was appended
behind the chain which the newest anchor signs therefore makes an honest chain look
rewritten.

## Main results

* `step_honest` — one step keeps what the processes hold in step with the chain, and an
  undisturbed one refuses nothing.
* `honest_boots_accepted` — no boot refuses in a run whose steps are all undisturbed.
* `lateAnchor_refuses` — an append, a stop and a start are enough for a refusal.
-/

namespace PgBrakes.Ports.Audit

open PgBrakes.Verified.History
open PgBrakes.Verified.MachineWord
open PgBrakes.Ports.KeyChecksum

section Append

variable [SerdeJson] [Sha256]

/-- The record a writer appends to the table. -/
def AuditTable.nextRecord (t : AuditTable) (entry : NewEntry) (timestampMs : UInt64) :
    AuditRecord :=
  .sealPayload (entry.payload t.headInTxn.1 timestampMs t.headInTxn.2)

/-- A whole `append` of the Postgres sink: the record and the table behind it, or
nothing when a constraint refuses the row. -/
def AuditTable.append (t : AuditTable) (entry : NewEntry) (timestampMs : UInt64) :
    Option (AuditRecord × AuditTable) :=
  (t.insert (rowOf (t.nextRecord entry timestampMs))).map fun t' =>
    (t.nextRecord entry timestampMs, t')

/-- The table holds the chain of the entries. -/
structure Stored (entries : List (NewEntry × UInt64)) (t : AuditTable) : Prop where
  rows : t.rows = (chainOf entries).records.map rowOf
  small : entries.length ≤ 2 ^ 63

theorem Stored.empty : Stored [] .empty := ⟨rfl, by simp⟩

/-- An append at once extends the chain by its entry. -/
theorem Stored.append {entries : List (NewEntry × UInt64)} {t t' : AuditTable}
    {entry : NewEntry} {ts : UInt64} {record : AuditRecord} (h : Stored entries t)
    (happend : t.append entry ts = some (record, t')) :
    record = (chainOf entries).nextRecord entry ts ∧ Stored (entries ++ [(entry, ts)]) t' := by
  unfold AuditTable.append at happend
  obtain ⟨table, hinsert, hpair⟩ := Option.map_eq_some_iff.mp happend
  cases hpair
  have hrecord : t.nextRecord entry ts = (chainOf entries).nextRecord entry ts := by
    unfold AuditTable.nextRecord
    rw [headInTxn_eq h.rows h.small]
    rfl
  have hrows := AuditTable.insert_rows hinsert
  refine ⟨hrecord, ?_, ?_⟩
  · rw [hrows, chainOf_snoc, List.map_append, h.rows, hrecord]
    rfl
  · -- The column has no room for the number `2 ^ 63`.
    have hnext := nextSeq_toNat entries h.small
    have hrow := t'.seqNonneg (rowOf (t.nextRecord entry ts)) (by rw [hrows]; simp)
    rw [hrecord] at hrow
    have hroom := small_of_asI64_nonneg (n := (chainOf entries).nextSeq) hrow
    rw [List.length_append, List.length_singleton]
    omega

/-- The stored payloads are read back. -/
def Readable (entries : List (NewEntry × UInt64)) : Prop :=
  ∀ r ∈ (chainOf entries).records, ReadsBack r

theorem Readable.front {entries : List (NewEntry × UInt64)} (more : List (NewEntry × UInt64))
    (h : Readable (entries ++ more)) : Readable entries := by
  induction more using List.reverseRecOn with
  | nil => simpa using h
  | append_singleton more entry ih =>
      apply ih
      intro r hr
      apply h
      rw [← List.append_assoc, chainOf_snoc]
      exact List.mem_append_left _ hr

end Append

/-! ## Deployments -/

variable {ι : Type}

/-- Where a process is.  Others take their steps while it is there. -/
inductive Stage where
  | down
  /-- The anchor file has been read. -/
  | opened (role : AnchorRole) (b : AuditBoot)
  /-- The owner's boot has checked the chain and is about to publish. -/
  | checked (b : AuditBoot) (records : List AuditRecord)
  | running (role : AnchorRole) (b : AuditBoot)
  /-- A tick has read the chain and is about to publish. -/
  | ticking (b : AuditBoot) (records : List AuditRecord)

/-- The table, the anchor file, and the processes. -/
structure Deployment (ι : Type) where
  table : AuditTable
  file : AnchorFile
  stage : ι → Stage

def Deployment.initial : Deployment ι := ⟨.empty, .empty, fun _ => .down⟩

/-- A step, with what the file system or the database answers. -/
inductive Happening (ι : Type) where
  | append (entry : NewEntry) (timestampMs : UInt64)
  | start (i : ι) (role : AnchorRole) (intervalMillis : Nat) (answer : Except String Unit)
  | check (i : ι) (answer : Except BootError Unit)
  | tick (i : ι) (answer : Except BootError Unit)
  | publish (i : ι) (nowMonotonicMillis : Nat) (answer : FileAnswer)
  | stop (i : ι)

/-- What a step did.  The error of a step that went well is `none`. -/
inductive Outcome (ι : Type) where
  | appended (record : AuditRecord)
  | opened (i : ι) (answer : Except String Unit) (error : Option BootError)
  | checked (i : ι) (answer : Except BootError Unit) (error : Option BootError)
  | ticked (i : ι)
  | published (i : ι) (booting : Bool) (answer : FileAnswer) (error : Option BootError)
  | silent
deriving DecidableEq

/-- The error with which a boot has refused to start. -/
def Outcome.refusal : Outcome ι → Option BootError
  | .opened _ _ error => error
  | .checked _ _ error => error
  | .published _ true _ error => error
  | _ => none

/-- Where a process is whose check has passed: only the owner publishes. -/
def Stage.past (b : AuditBoot) (records : List AuditRecord) : AnchorRole → Stage
  | .owner => .checked b records
  | .verify => .running .verify b

def errorOf {α : Type} : Except BootError α → Option BootError
  | .ok _ => none
  | .error e => some e

section Step

variable [DecidableEq ι]

def Deployment.move (d : Deployment ι) (i : ι) (stage : Stage) : Deployment ι :=
  { d with stage := Function.update d.stage i stage }

variable [HmacSha256]

/-- A process publishes the head of the records it has read.  A tick that fails is
printed, a boot refuses. -/
def Deployment.publish (d : Deployment ι) (i : ι) (booting : Bool) (b : AuditBoot)
    (records : List AuditRecord) (now : Nat) (answer : FileAnswer) :
    Outcome ι × Deployment ι :=
  let out := b.publish records now answer.io
  if b.anchorer.due now = false then (.silent, d.move i (.running .owner out.2))
  else
    (.published i booting answer (errorOf out.1),
      { d.move i (if booting && (errorOf out.1).isSome then .down else .running .owner out.2) with
        file := d.file.write (Anchorer.entryFor b.anchorer.signer records) answer })

variable [SerdeJson] [Sha256]

/-- One step of the deployment. -/
def deploymentStep (profile : Profile) (kms : LocalKms) :
    Happening ι → Deployment ι → Outcome ι × Deployment ι
  | .append entry ts, d =>
      match d.table.append entry ts with
      | some (record, table) => (.appended record, { d with table := table })
      | none => (.silent, d)
  | .start i role interval answer, d =>
      match d.stage i with
      | .down =>
          match d.file.openFile answer with
          | .ok worm =>
              (.opened i answer none, d.move i (.opened role (.withWorm kms interval worm)))
          | .error e => (.opened i answer (some (.worm e)), d.move i .down)
      | _ => (.silent, d)
  | .check i answer, d =>
      match d.stage i with
      | .opened role b =>
          match answer.bind fun _ => b.check profile d.table with
          | .ok records => (.checked i answer none, d.move i (.past b records role))
          | .error e => (.checked i answer (some e), d.move i .down)
      | _ => (.silent, d)
  | .tick i answer, d =>
      match d.stage i with
      | .running .owner b =>
          match answer.bind fun _ => d.table.loadChain.mapError .sink with
          | .ok records => (.ticked i, d.move i (.ticking b records))
          | .error _ => (.silent, d)
      | _ => (.silent, d)
  | .publish i now answer, d =>
      match d.stage i with
      | .checked b records => d.publish i true b records now answer
      | .ticking b records => d.publish i false b records now answer
      | _ => (.silent, d)
  | .stop i, d => (.silent, d.move i .down)

/-- What happened in a run from an empty table and an empty anchor file. -/
def deploymentHistory (profile : Profile) (kms : LocalKms) (happenings : List (Happening ι)) :
    List (Outcome ι) :=
  (run (deploymentStep profile kms) happenings .initial).1

end Step

/-! ## Bookkeeping -/

/-- What the outcomes so far say about the chain, the anchor file and the processes. -/
structure Marks (ι : Type) where
  /-- The number of records that were appended. -/
  records : Nat
  /-- The number of records there were when a process read the chain last. -/
  read : ι → Nat
  /-- The number of records that the newest entry of the anchor file signs. -/
  signed : Option Nat
  /-- The same of the entry that a process found when it read the file. -/
  found : ι → Option Nat
  /-- The last line of the file has no line break. -/
  unended : Bool
  /-- Some line of the file is not an entry. -/
  torn : Bool

def Marks.initial : Marks ι := ⟨0, fun _ => 0, none, fun _ => none, false, false⟩

/-- A process has written the entry for the records it had read. -/
def Marks.wrote (m : Marks ι) (i : ι) : FileAnswer → Marks ι
  | .written =>
      { m with signed := some (m.read i), torn := m.torn || m.unended, unended := false }
  | .failed _ .nothing => m
  | .failed _ .part => { m with torn := true, unended := true }
  | .failed _ .unended =>
      { m with signed := some (m.read i), torn := m.torn || m.unended, unended := true }

variable [DecidableEq ι]

def Marks.after (m : Marks ι) : Outcome ι → Marks ι
  | .appended _ => { m with records := m.records + 1 }
  | .opened i _ _ => { m with found := Function.update m.found i m.signed }
  | .checked i _ _ => { m with read := Function.update m.read i m.records }
  | .ticked i => { m with read := Function.update m.read i m.records }
  | .published i _ answer _ => m.wrote i answer
  | .silent => m

def marks (history : List (Outcome ι)) : Marks ι := history.foldl Marks.after .initial

theorem marks_snoc (history : List (Outcome ι)) (o : Outcome ι) :
    marks (history ++ [o]) = (marks history).after o := by
  simp [marks]

/-- Nothing gets in the way of a boot: the file can be read and has no torn line, the
database answers, no record was appended since the chain was read that the anchor signs
which was found, and the owner's own write goes through. -/
def Undisturbed (before : List (Outcome ι)) : Outcome ι → Prop
  | .opened _ answer _ => answer = .ok () ∧ (marks before).torn = false
  | .checked i answer _ =>
      answer = .ok () ∧ ∀ n ∈ (marks before).found i, n = (marks before).records
  | .published _ true answer _ => answer = .written
  | _ => True

instance (before : List (Outcome ι)) (o : Outcome ι) : Decidable (Undisturbed before o) :=
  match o with
  | .opened _ answer _ =>
      inferInstanceAs (Decidable (answer = .ok () ∧ (marks before).torn = false))
  | .checked i answer _ =>
      inferInstanceAs (Decidable (answer = .ok () ∧
        ∀ n ∈ (marks before).found i, n = (marks before).records))
  | .published _ true answer _ => inferInstanceAs (Decidable (answer = .written))
  | .published _ false _ _ => .isTrue trivial
  | .appended _ => .isTrue trivial
  | .ticked _ => .isTrue trivial
  | .silent => .isTrue trivial

/-- The entries appended so far. -/
def appends (history : List (Outcome ι)) : List (NewEntry × UInt64) :=
  history.filterMap fun o =>
    match o with
    | .appended r => some (r.payload.entry, r.payload.timestampUnixMillis)
    | _ => none

omit [DecidableEq ι] in
theorem appends_snoc (history : List (Outcome ι)) (o : Outcome ι) :
    appends (history ++ [o]) = appends history ++ appends [o] := by
  simp [appends]

/-! ## The invariant -/

section Invariant

variable [HmacSha256]

/-- The entry for the first `n` records. -/
def anchorOver (kms : LocalKms) (chain : Nat → List AuditRecord) (n : Nat) : AnchorEntry :=
  Anchorer.entryFor kms (chain n)

/-- What a process holds, where it has read the first `read` records and found an anchor
over the first `found`. -/
def Stage.Holds (kms : LocalKms) (chain : Nat → List AuditRecord) (read : Nat)
    (found : Option Nat) : Stage → Prop
  | .down => True
  | .opened _ b => b.verifier = kms ∧ b.anchorer.signer = kms ∧
      b.worm.latest = found.map (anchorOver kms chain)
  | .checked b records => b.anchorer.signer = kms ∧ records = chain read
  | .running _ b => b.anchorer.signer = kms
  | .ticking b records => b.anchorer.signer = kms ∧ records = chain read

/-- The file and the processes are as the marks say, over the prefixes of a chain. -/
structure Marked (kms : LocalKms) (chain : Nat → List AuditRecord) (m : Marks ι)
    (d : Deployment ι) : Prop where
  read : ∀ i, m.read i ≤ m.records
  signed : ∀ n ∈ m.signed, n ≤ m.records
  found : ∀ i, ∀ n ∈ m.found i, n ≤ m.records
  unended : m.unended = d.file.rest.isSome
  file : m.torn = false → ∃ published, d.file.entries = .ok published ∧
    published.getLast? = m.signed.map (anchorOver kms chain)
  stages : ∀ i, (d.stage i).Holds kms chain (m.read i) (m.found i)

omit [DecidableEq ι] in
theorem Marked.initial (kms : LocalKms) (chain : Nat → List AuditRecord) :
    Marked kms chain (Marks.initial : Marks ι) .initial where
  read := by simp [Marks.initial]
  signed := by simp [Marks.initial]
  found := by simp [Marks.initial]
  unended := rfl
  file := fun _ => ⟨[], AnchorFile.entries_empty, rfl⟩
  stages := fun _ => trivial

omit [DecidableEq ι] in
/-- An anchor over a prefix stays one when the chain grows. -/
theorem map_anchorOver {kms : LocalKms} {chain chain' : Nat → List AuditRecord} {m : Nat}
    (hsame : ∀ n ≤ m, chain' n = chain n) {signed : Option Nat} (hle : ∀ n ∈ signed, n ≤ m) :
    signed.map (anchorOver kms chain') = signed.map (anchorOver kms chain) := by
  cases signed with
  | none => rfl
  | some n => simp [anchorOver, hsame n (hle n rfl)]

omit [DecidableEq ι] in
/-- The chain grows by a record. -/
theorem Marked.grow {kms : LocalKms} {chain chain' : Nat → List AuditRecord} {m : Marks ι}
    {d : Deployment ι} (h : Marked kms chain m d) (hsame : ∀ n ≤ m.records, chain' n = chain n)
    (table : AuditTable) :
    Marked kms chain' { m with records := m.records + 1 } { d with table := table } where
  read i := (h.read i).trans (Nat.le_succ _)
  signed n hn := (h.signed n hn).trans (Nat.le_succ _)
  found i n hn := (h.found i n hn).trans (Nat.le_succ _)
  unended := h.unended
  file htorn := by
    obtain ⟨published, hentries, hlast⟩ := h.file htorn
    exact ⟨published, hentries, by rw [hlast, map_anchorOver hsame h.signed]⟩
  stages i := by
    have hi := h.stages i
    show (d.stage i).Holds kms chain' (m.read i) (m.found i)
    cases hstage : d.stage i with
    | down => trivial
    | opened role b =>
        rw [hstage] at hi
        exact ⟨hi.1, hi.2.1, by rw [hi.2.2, map_anchorOver hsame (h.found i)]⟩
    | checked b records =>
        rw [hstage] at hi
        exact ⟨hi.1, by rw [hi.2, hsame _ (h.read i)]⟩
    | running role b =>
        rw [hstage] at hi
        exact hi
    | ticking b records =>
        rw [hstage] at hi
        exact ⟨hi.1, by rw [hi.2, hsame _ (h.read i)]⟩

/-- A process moves on, and may have read the chain or the file. -/
theorem Marked.move {kms : LocalKms} {chain : Nat → List AuditRecord} {m : Marks ι}
    {d : Deployment ι} (h : Marked kms chain m d) (i : ι) {stage : Stage} {n : Nat}
    {found : Option Nat} (hn : n ≤ m.records) (hfound : ∀ k ∈ found, k ≤ m.records)
    (hstage : stage.Holds kms chain n found) :
    Marked kms chain
      { m with read := Function.update m.read i n, found := Function.update m.found i found }
      (d.move i stage) where
  read j := by
    by_cases hj : j = i
    · subst hj
      simpa using hn
    · simpa [Function.update_of_ne hj] using h.read j
  signed := h.signed
  found j := by
    by_cases hj : j = i
    · subst hj
      simpa using hfound
    · simpa [Function.update_of_ne hj] using h.found j
  unended := h.unended
  file := h.file
  stages j := by
    by_cases hj : j = i
    · subst hj
      simpa [Deployment.move] using hstage
    · simpa [Deployment.move, Function.update_of_ne hj] using h.stages j

/-- A process moves on and has read nothing. -/
theorem Marked.stay {kms : LocalKms} {chain : Nat → List AuditRecord} {m : Marks ι}
    {d : Deployment ι} (h : Marked kms chain m d) (i : ι) {stage : Stage}
    (hstage : stage.Holds kms chain (m.read i) (m.found i)) :
    Marked kms chain m (d.move i stage) := by
  have hmoved := h.move i (h.read i) (h.found i) hstage
  rwa [Function.update_eq_self, Function.update_eq_self] at hmoved

omit [DecidableEq ι] in
/-- A whole line has been written, with its line break or without. -/
theorem Marked.whole {kms : LocalKms} {chain : Nat → List AuditRecord} {m : Marks ι}
    {d : Deployment ι} (h : Marked kms chain m d) (i : ι) (ended : Bool) :
    Marked kms chain
      { m with signed := some (m.read i), torn := m.torn || m.unended, unended := !ended }
      { d with file :=
          let line := d.file.joined (anchorOver kms chain (m.read i))
          if ended then ⟨d.file.lines ++ [line], none⟩ else ⟨d.file.lines, some line⟩ } where
  read := h.read
  signed n hn := by
    cases hn
    exact h.read i
  found := h.found
  unended := by
    cases ended with
    | true => rfl
    | false => rfl
  file htorn := by
    obtain ⟨htorn, hended⟩ := Bool.or_eq_false_iff.mp htorn
    have hrest : d.file.rest = none := by
      rw [h.unended] at hended
      simpa using hended
    have hline : d.file.joined (anchorOver kms chain (m.read i)) =
        .entry (anchorOver kms chain (m.read i)) := by
      simp [AnchorFile.joined, hrest]
    obtain ⟨published, hentries, -⟩ := h.file htorn
    have hsnoc := AnchorFile.entries_snoc hentries hrest (anchorOver kms chain (m.read i))
    refine ⟨published ++ [anchorOver kms chain (m.read i)], ?_, List.getLast?_concat⟩
    cases ended with
    | true => simpa [hline] using hsnoc.1
    | false => simpa [hline] using hsnoc.2
  stages := h.stages

omit [DecidableEq ι] in
/-- A process has tried to write the entry for the records it had read. -/
theorem Marked.wrote {kms : LocalKms} {chain : Nat → List AuditRecord} {m : Marks ι}
    {d : Deployment ι} (h : Marked kms chain m d) (i : ι) (answer : FileAnswer) :
    Marked kms chain (m.wrote i answer)
      { d with file := d.file.write (anchorOver kms chain (m.read i)) answer } := by
  cases answer with
  | written => exact h.whole i true
  | failed error remains =>
      cases remains with
      | nothing => exact h
      | part =>
          refine ⟨h.read, h.signed, h.found, rfl, ?_, h.stages⟩
          intro htorn
          cases htorn
      | unended => exact h.whole i false

/-! ## One step -/

variable [SerdeJson] [Sha256]

/-- The first `n` records of the chain. -/
def chainAt (history : List (Outcome ι)) (n : Nat) : List AuditRecord :=
  (chainOf ((appends history).take n)).records

/-- The table holds the appended entries, and the file and the processes are as the
outcomes say. -/
structure Honest (kms : LocalKms) (history : List (Outcome ι)) (d : Deployment ι) : Prop where
  stored : Stored (appends history) d.table
  records : (marks history).records = (appends history).length
  marked : Marked kms (chainAt history) (marks history) d

theorem Honest.initial (kms : LocalKms) : Honest kms [] (Deployment.initial : Deployment ι) where
  stored := Stored.empty
  records := rfl
  marked := Marked.initial kms _

/-- The whole chain. -/
theorem Honest.chainAt_records {kms : LocalKms} {history : List (Outcome ι)} {d : Deployment ι}
    (h : Honest kms history d) :
    chainAt history (marks history).records = (chainOf (appends history)).records := by
  unfold chainAt
  rw [h.records, List.take_length]

/-- A step that appends nothing. -/
theorem Honest.quiet {kms : LocalKms} {history : List (Outcome ι)} {d d' : Deployment ι}
    (h : Honest kms history d) {o : Outcome ι} (happends : appends [o] = [])
    (htable : d'.table = d.table)
    (hrecords : ((marks history).after o).records = (marks history).records)
    (hmarked : Marked kms (chainAt history) ((marks history).after o) d') :
    Honest kms (history ++ [o]) d' := by
  have hsame : appends (history ++ [o]) = appends history := by
    rw [appends_snoc, happends, List.append_nil]
  have hchain : chainAt (history ++ [o]) = chainAt history := by
    funext n
    unfold chainAt
    rw [hsame]
  constructor
  · rw [hsame, htable]
    exact h.stored
  · rw [marks_snoc, hsame, hrecords, h.records]
  · rw [marks_snoc, hchain]
    exact hmarked

/-- A step that says nothing and moves nothing but a process. -/
theorem Honest.silent {kms : LocalKms} {history : List (Outcome ι)} {d : Deployment ι}
    (h : Honest kms history d) : Honest kms (history ++ [.silent]) d :=
  h.quiet rfl rfl rfl h.marked

/-- An append extends the chain. -/
theorem Honest.appends {kms : LocalKms} {history : List (Outcome ι)} {d : Deployment ι}
    (h : Honest kms history d) {entry : NewEntry} {ts : UInt64} {record : AuditRecord}
    {table : AuditTable} (happend : d.table.append entry ts = some (record, table)) :
    Honest kms (history ++ [.appended record]) { d with table := table } := by
  obtain ⟨rfl, hstored⟩ := h.stored.append happend
  have happends : Audit.appends
      (history ++ [.appended ((chainOf (Audit.appends history)).nextRecord entry ts)]) =
      Audit.appends history ++ [(entry, ts)] := by
    simp [Audit.appends, AuditChain.nextRecord, NewEntry.payload, AuditPayload.entry]
  constructor
  · rw [happends]
    exact hstored
  · rw [marks_snoc, happends, List.length_append, ← h.records]
    rfl
  · rw [marks_snoc]
    refine h.marked.grow ?_ table
    intro n hn
    unfold chainAt
    rw [happends, List.take_append_of_le_length (by rwa [← h.records])]

/-- What one step owes the ones before it. -/
structure Continues (kms : LocalKms) (history : List (Outcome ι))
    (out : Outcome ι × Deployment ι) : Prop where
  accepts : out.1.refusal = none
  honest : Honest kms (history ++ [out.1]) out.2

/-- A process that reads the file finds its newest entry. -/
theorem Honest.start (profile : Profile) {kms : LocalKms} {history : List (Outcome ι)}
    {d : Deployment ι} (h : Honest kms history d) (i : ι) (role : AnchorRole) (interval : Nat)
    (answer : Except String Unit)
    (hmet : Undisturbed history
      (deploymentStep profile kms (.start i role interval answer) d).1) :
    Continues kms history (deploymentStep profile kms (.start i role interval answer) d) := by
  simp only [deploymentStep] at hmet ⊢
  split
  next hstage =>
    rw [hstage] at hmet
    cases hopen : d.file.openFile answer with
    | error e =>
        simp only [hopen] at hmet
        obtain ⟨rfl, htorn⟩ := hmet
        obtain ⟨published, hentries, -⟩ := h.marked.file htorn
        simp [AnchorFile.openFile, hentries, Except.map] at hopen
    | ok worm =>
        simp only [hopen] at hmet ⊢
        obtain ⟨rfl, htorn⟩ := hmet
        obtain ⟨published, hentries, hlast⟩ := h.marked.file htorn
        have hworm : worm = .openFile published := by
          simp only [AnchorFile.openFile, hentries, Except.map, Except.ok.injEq] at hopen
          exact hopen.symm
        have hfound : (AuditBoot.withWorm kms interval worm).worm.latest =
            (marks history).signed.map (anchorOver kms (chainAt history)) := by
          rw [hworm]
          exact hlast
        have hholds : (Stage.opened role (.withWorm kms interval worm)).Holds kms
            (chainAt history) ((marks history).read i) (marks history).signed :=
          ⟨rfl, rfl, hfound⟩
        have hmoved := h.marked.move i (h.marked.read i) h.marked.signed hholds
        rw [Function.update_eq_self] at hmoved
        exact ⟨rfl, h.quiet rfl rfl rfl hmoved⟩
  next => exact ⟨rfl, h.silent⟩

/-- The chain that a process reads is the whole chain. -/
theorem Honest.load {kms : LocalKms} {history : List (Outcome ι)} {d : Deployment ι}
    (h : Honest kms history d) (hread : Readable (Audit.appends history)) :
    d.table.loadChain = .ok (chainAt history (marks history).records) := by
  rw [h.chainAt_records]
  exact loadChain_eq h.stored.rows h.stored.small hread

/-- A check passes over the whole chain where the anchor that was found signs it. -/
theorem Honest.checks {kms : LocalKms} {history : List (Outcome ι)} {d : Deployment ι}
    (h : Honest kms history d) (hread : Readable (Audit.appends history)) (profile : Profile)
    {b : AuditBoot} {found : Option Nat} (hverifier : b.verifier = kms)
    (hlatest : b.worm.latest = found.map (anchorOver kms (chainAt history)))
    (hhead : ∀ n ∈ found, n = (marks history).records) :
    b.check profile d.table = .ok (chainAt history (marks history).records) := by
  have hverified : AuditBoot.loadVerified profile d.table =
      .ok (chainAt history (marks history).records) := by
    refine AuditBoot.loadVerified_ok.mpr ⟨h.load hread, ?_⟩
    rw [h.chainAt_records]
    exact verifyChain_chainOf h.stored.small profile
  refine AuditBoot.check_ok.mpr ⟨hverified, ?_⟩
  unfold AuditBoot.assertAgainstAnchor
  cases found with
  | none => simp [hlatest]
  | some n =>
      have hcurrent := hhead n rfl
      subst hcurrent
      rw [Option.map_some, ← hverifier] at hlatest
      rw [hlatest]
      exact (AuditBoot.assertHead_published hlatest).mpr rfl

/-- A check that finds the anchor at the head of the chain passes. -/
theorem Honest.check (profile : Profile) {kms : LocalKms} {history : List (Outcome ι)}
    {d : Deployment ι} (h : Honest kms history d) (hread : Readable (Audit.appends history))
    (i : ι) (answer : Except BootError Unit)
    (hmet : Undisturbed history (deploymentStep profile kms (.check i answer) d).1) :
    Continues kms history (deploymentStep profile kms (.check i answer) d) := by
  have hi := h.marked.stages i
  simp only [deploymentStep] at hmet ⊢
  split
  next role b hstage =>
    rw [hstage] at hi hmet
    obtain ⟨hverifier, hsigner, hlatest⟩ := hi
    have hconditions : answer = .ok () ∧
        ∀ n ∈ (marks history).found i, n = (marks history).records := by
      dsimp only at hmet
      split at hmet
      · exact hmet
      · exact hmet
    obtain ⟨rfl, hhead⟩ := hconditions
    have hchecked := h.checks hread profile hverifier hlatest hhead
    have hresult : (Except.ok () : Except BootError Unit).bind
        (fun _ => b.check profile d.table) = .ok (chainAt history (marks history).records) :=
      hchecked
    rw [hresult]
    refine ⟨rfl, h.quiet rfl rfl rfl ?_⟩
    have hpast : (Stage.past b (chainAt history (marks history).records) role).Holds kms
        (chainAt history) (marks history).records ((marks history).found i) := by
      cases role with
      | owner => exact ⟨hsigner, rfl⟩
      | verify => exact hsigner
    have hmoved := h.marked.move i le_rfl (h.marked.found i) hpast
    rw [Function.update_eq_self] at hmoved
    exact hmoved
  next => exact ⟨rfl, h.silent⟩

/-- A tick reads the whole chain, or nothing. -/
theorem Honest.tick (profile : Profile) {kms : LocalKms} {history : List (Outcome ι)}
    {d : Deployment ι} (h : Honest kms history d) (hread : Readable (Audit.appends history))
    (i : ι) (answer : Except BootError Unit) :
    Continues kms history (deploymentStep profile kms (.tick i answer) d) := by
  have hi := h.marked.stages i
  simp only [deploymentStep]
  split
  next b hstage =>
    rw [hstage] at hi
    cases answer with
    | error e => exact ⟨rfl, h.silent⟩
    | ok u =>
        have hresult : (Except.ok u : Except BootError Unit).bind
            (fun _ => d.table.loadChain.mapError .sink) =
            .ok (chainAt history (marks history).records) := by
          simp only [Except.bind, h.load hread, Except.mapError]
        rw [hresult]
        refine ⟨rfl, h.quiet rfl rfl rfl ?_⟩
        have hholds : (Stage.ticking b (chainAt history (marks history).records)).Holds kms
            (chainAt history) (marks history).records ((marks history).found i) := ⟨hi, rfl⟩
        have hmoved := h.marked.move i le_rfl (h.marked.found i) hholds
        rw [Function.update_eq_self] at hmoved
        exact hmoved
  next => exact ⟨rfl, h.silent⟩

omit [SerdeJson] [Sha256] [DecidableEq ι] in
/-- Publishing keeps the key, and goes through when the entry is written. -/
theorem publish_spec (b : AuditBoot) (records : List AuditRecord) (now : Nat)
    (answer : FileAnswer) :
    (b.publish records now answer.io).2.anchorer.signer = b.anchorer.signer ∧
      (answer = .written → errorOf (b.publish records now answer.io).1 = none) := by
  unfold AuditBoot.publish Anchorer.maybeAnchorRecords
  by_cases hdue : b.anchorer.due now = false
  · simp [hdue, Except.mapError, errorOf]
  · cases answer with
    | written => simp [hdue, FileAnswer.io, WormAnchor.append, Except.mapError, errorOf]
    | failed error remains => simp [hdue, FileAnswer.io, WormAnchor.append]

/-- A process publishes the head of the records it has read. -/
theorem Honest.publishes {kms : LocalKms} {history : List (Outcome ι)} {d : Deployment ι}
    (h : Honest kms history d) (i : ι) (booting : Bool) {b : AuditBoot}
    {records : List AuditRecord} (hsigner : b.anchorer.signer = kms)
    (hrecords : records = chainAt history ((marks history).read i)) (now : Nat)
    (answer : FileAnswer)
    (hmet : Undisturbed history (d.publish i booting b records now answer).1) :
    Continues kms history (d.publish i booting b records now answer) := by
  obtain ⟨hkey, hwritten⟩ := publish_spec b records now answer
  unfold Deployment.publish at hmet ⊢
  by_cases hdue : b.anchorer.due now = false
  · simp only [hdue, if_true]
    exact ⟨rfl, h.quiet rfl rfl rfl (h.marked.stay i (hkey.trans hsigner))⟩
  · simp only [hdue] at hmet ⊢
    constructor
    · cases booting with
      | false => rfl
      | true => exact hwritten hmet
    · refine h.quiet rfl rfl ?_ ?_
      · cases answer with
        | written => rfl
        | failed error remains => cases remains <;> rfl
      · have hstage : (if booting && (errorOf (b.publish records now answer.io).1).isSome then
            Stage.down else .running .owner (b.publish records now answer.io).2).Holds kms
            (chainAt history) ((marks history).read i) ((marks history).found i) := by
          split
          · trivial
          · exact hkey.trans hsigner
        rw [hsigner, hrecords] at *
        exact (h.marked.stay i hstage).wrote i answer

/-- One step of an honest deployment. -/
theorem step_honest (profile : Profile) {kms : LocalKms} {history : List (Outcome ι)}
    {d : Deployment ι} (h : Honest kms history d) (hread : Readable (appends history))
    (happening : Happening ι)
    (hmet : Undisturbed history (deploymentStep profile kms happening d).1) :
    Continues kms history (deploymentStep profile kms happening d) := by
  cases happening with
  | append entry ts =>
      simp only [deploymentStep]
      cases happend : d.table.append entry ts with
      | none => exact ⟨rfl, h.silent⟩
      | some out => exact ⟨rfl, h.appends happend⟩
  | start i role interval answer => exact h.start profile i role interval answer hmet
  | check i answer => exact h.check profile hread i answer hmet
  | tick i answer => exact h.tick profile hread i answer
  | publish i now answer =>
      have hi := h.marked.stages i
      simp only [deploymentStep] at hmet ⊢
      split
      next b records hstage =>
        rw [hstage] at hi hmet
        exact h.publishes i true hi.1 hi.2 now answer hmet
      next b records hstage =>
        rw [hstage] at hi hmet
        exact h.publishes i false hi.1 hi.2 now answer hmet
      next => exact ⟨rfl, h.silent⟩
  | stop i => exact ⟨rfl, h.quiet rfl rfl rfl (h.marked.stay i trivial)⟩

end Invariant

/-! ## Runs -/

section Runs

variable [HmacSha256] [JsonReader] [Sha256]

/-- In a run of appends, starts, checks, ticks, publications and stops of any processes in
any order, no boot refuses when its steps are undisturbed and the rates of the appended
entries read back. -/
theorem honest_boots_accepted (profile : Profile) (kms : LocalKms)
    (happenings : List (Happening ι))
    (hrates : ∀ entry ∈ appends (deploymentHistory profile kms happenings),
      RateReadsBack entry.1.intent.t2.ratePerMin)
    (hparse : ∀ r ∈ (chainOf (appends (deploymentHistory profile kms happenings))).records,
      Parses r.payload)
    (hcalm : EveryStep Undisturbed (deploymentHistory profile kms happenings)) :
    ∀ o ∈ deploymentHistory profile kms happenings, o.refusal = none := by
  have hread : Readable (appends (deploymentHistory profile kms happenings)) :=
    readsBack_of_entries hrates hparse
  have hmet : EveryStep (fun before o => Undisturbed before o ∧ Readable (appends before))
      (deploymentHistory profile kms happenings) := by
    intro before o after hsplit
    refine ⟨hcalm before o after hsplit, ?_⟩
    rw [hsplit] at hread
    have hall : Readable (appends before ++ appends (o :: after)) := by
      simpa [appends] using hread
    exact hall.front
  have hrun := (run_rule_where (deploymentStep profile kms) (Honest kms) (fun _ => True) _
    (fun _ o => o.refusal = none)
    (fun history d happening _ hmet h =>
      let hstep := step_honest profile h hmet.2 happening hmet.1
      ⟨hstep.accepts, hstep.honest⟩)
    (Honest.initial kms) (fun _ _ => trivial) hmet).2
  exact everyStep_iff_forall.mp hrun

end Runs

/-! ## Two runs -/

/-- The owner starts, anchors a record, stops, and starts again. -/
def anchoredRestart : List (Happening Unit) :=
  [.start () .owner 1000 (.ok ()), .check () (.ok ()), .publish () 0 .written,
    .append selectOne 42, .tick () (.ok ()), .publish () 1000 .written, .stop (),
    .start () .owner 1000 (.ok ()), .check () (.ok ()), .publish () 0 .written]

/-- What happens there. -/
def anchoredRestartLog [SerdeJson] [Sha256] : List (Outcome Unit) :=
  [.opened () (.ok ()) none, .checked () (.ok ()) none, .published () true .written none,
    .appended (.sealPayload firstSelect), .ticked (), .published () false .written none,
    .silent, .opened () (.ok ()) none, .checked () (.ok ()) none,
    .published () true .written none]

theorem anchoredRestart_history :
    letI := twoTexts
    letI := Sha256.standard
    letI := HmacSha256.standard
    deploymentHistory .checked devKms anchoredRestart = anchoredRestartLog := by
  decide +kernel

theorem anchoredRestart_undisturbed [SerdeJson] [Sha256] :
    EveryStep Undisturbed anchoredRestartLog := by
  exact (everyStep_iff_get (P := Undisturbed)).mpr (of_decide_eq_true rfl)

theorem honest_boots_accepted_restart :
    letI := twoTexts
    letI := Sha256.standard
    letI := HmacSha256.standard
    .appended (.sealPayload firstSelect) ∈ deploymentHistory .checked devKms anchoredRestart ∧
      ∀ o ∈ deploymentHistory .checked devKms anchoredRestart, o.refusal = none := by
  have happends : @appends Unit (@deploymentHistory Unit _ .standard twoTexts.toSerdeJson
      .standard .checked devKms anchoredRestart) = [(selectOne, 42)] := by
    rw [anchoredRestart_history]
    rfl
  refine ⟨?_, @honest_boots_accepted Unit _ .standard twoTexts .standard .checked devKms
    anchoredRestart ?_ ?_ ?_⟩
  · rw [anchoredRestart_history]
    simp [anchoredRestartLog]
  · rw [happends]
    intro entry hentry
    exact @rates_twoSelects twoTexts entry (by simp_all [twoSelects])
  · rw [happends]
    intro r hr
    refine twoSelects_parse [] r ?_
    rw [chainOf_twoSelects]
    exact List.mem_cons.mpr (.inl (List.mem_singleton.mp hr))
  · rw [anchoredRestart_history]
    exact @anchoredRestart_undisturbed twoTexts.toSerdeJson .standard

/-- The owner stops before it has anchored a record, and starts again. -/
def lateAnchor : List (Happening Unit) :=
  [.start () .owner 1000 (.ok ()), .check () (.ok ()), .publish () 0 .written,
    .append selectOne 42, .stop (), .start () .owner 1000 (.ok ()), .check () (.ok ())]

/-- Nobody touched the table or the anchor, and the restart is refused as a rewrite of
the whole chain. -/
theorem lateAnchor_refuses :
    letI := twoTexts
    letI := Sha256.standard
    letI := HmacSha256.standard
    .checked () (.ok ()) (some (.anchorHeadMismatch genesisPrevHash firstHash 0)) ∈
        deploymentHistory .checked devKms lateAnchor ∧
      ¬ ∀ o ∈ deploymentHistory .checked devKms lateAnchor, o.refusal = none := by
  let _ := twoTexts
  let _ := Sha256.standard
  let _ := HmacSha256.standard
  have hmem : .checked () (.ok ()) (some (.anchorHeadMismatch genesisPrevHash firstHash 0)) ∈
      deploymentHistory .checked devKms lateAnchor := by
    decide +kernel
  refine ⟨hmem, fun h => ?_⟩
  cases h _ hmem

end PgBrakes.Ports.Audit
