import PgBrakes.Verified.SharedLog
import PgBrakes.Ports.AuditRestart
import PgBrakes.Ports.McpSession

/-!
# The sinks of the audit chain

A port of `crates/audit/src/sink.rs`, of `PgSink` in `crates/audit/src/pg.rs` and of
`crates/proxy/src/threaded_sink.rs`: the sinks and the wrappers around them, with the
defaults of the trait.  Every process of a deployment has a sink of its own over the one
audit table, an in-memory sink has a chain of its own, and any of them may be behind a
`SharedSink` that several components hold.

What goes wrong on the way to the server is the `Weather` of a call: a statement fails,
the client panics, a commit is refused or its answer is lost.  An append holds the
advisory lock from its first read on, so it is one step here.

`PgSink` answers `load_chain` with an error, always, and the `SharedSink` around it
passes the error on.  The daemon reads its audit tail this way.

## Main results

* `Sink.append_spec`, `Sink.read_spec` — what one call does, for every stack of sinks.
* `sinks_share_chain` — in every run of any number of stacks the calls are honest and no
  verification finds a break.
* `audit_tail_exact` — the daemon's tail is the tail of the chain exactly when its sink
  can be read without a mutable borrow, or there is nothing to show.
-/

namespace PgBrakes.Ports.Audit

open PgBrakes.Verified
open PgBrakes.Verified.History
open PgBrakes.Verified.SharedLog (landed)
open PgBrakes.Verified.MachineWord
open PgBrakes.Ports.KeyChecksum
open PgBrakes.Ports.Approval (SinkError)

/-! ## What can go wrong -/

/-- How a call ends that returns nothing.  An error is kept as it is displayed. -/
inductive SinkFault where
  | backend (e : SinkError)
  | integrity (at_ : ChainBreak)
  | panicked
deriving DecidableEq

/-- `SinkError::Backend`. -/
def SinkFault.ofBackend (message : String) : SinkFault :=
  .backend ⟨"audit sink backend error: " ++ message⟩

/-- The statements of the sink before a commit. -/
inductive Statement where
  | begin
  | lock
  | head
  | insert
  | select
deriving DecidableEq

/-- What the client makes of a statement or of a commit that went wrong. -/
inductive ClientFault where
  | error (message : String)
  | panics

def ClientFault.fault : ClientFault → SinkFault
  | .error message => .ofBackend message
  | .panics => .panicked

/-- The answer to a commit.  One that is lost has committed. -/
inductive CommitAnswer where
  | done
  | refused (fault : ClientFault)
  | lost (fault : ClientFault)

structure Weather where
  statement : Statement → Option ClientFault
  commit : CommitAnswer
  /-- The server's words for a row that a constraint refuses. -/
  refusal : String

def Weather.fair : Weather := ⟨fun _ => none, .done, ""⟩

def Weather.ask (w : Weather) (s : Statement) : Except SinkFault Unit :=
  match w.statement s with
  | none => .ok ()
  | some f => .error f.fault

theorem Weather.ask_bind {w : Weather} {s : Statement} {α : Type}
    {next : Unit → Except SinkFault α} {a : α} (h : (w.ask s >>= next) = .ok a) :
    w.statement s = none ∧ next () = .ok a := by
  unfold Weather.ask at h
  cases hs : w.statement s with
  | none =>
      rw [hs] at h
      exact ⟨rfl, h⟩
  | some f =>
      rw [hs] at h
      cases h

/-! ## The Postgres sink -/

section Pg

variable [SerdeJson] [Sha256]

/-- `PgSink::append` up to its commit: the record and the table with its row. -/
def insertInTxn (w : Weather) (entry : NewEntry) (timestampMs : UInt64) (t : AuditTable) :
    Except SinkFault (AuditRecord × AuditTable) := do
  w.ask .begin
  w.ask .lock
  w.ask .head
  w.ask .insert
  match t.append entry timestampMs with
  | some out => pure out
  | none => throw (.ofBackend w.refusal)

def pgAppend (w : Weather) (entry : NewEntry) (timestampMs : UInt64) (t : AuditTable) :
    Except SinkFault AuditRecord × AuditTable :=
  match insertInTxn w entry timestampMs t with
  -- The transaction is dropped, which rolls it back.
  | .error e => (.error e, t)
  | .ok (record, t') =>
      match w.commit with
      | .done => (.ok record, t')
      | .refused f => (.error f.fault, t)
      | .lost f => (.error f.fault, t')

omit [Sha256] in
/-- `PgSink::load_chain_mut`. -/
def pgLoadChainMut (w : Weather) (t : AuditTable) : Except SinkFault (List AuditRecord) := do
  w.ask .select
  (t.loadChain).mapError .backend

end Pg

/-! ## Sinks -/

/-- A sink and the wrappers around it.  The thread of a `ThreadedSink` owns a
`PgSink`, and ends when its client panics; a `SharedSink` is poisoned by a panic while
its lock is held. -/
inductive Sink where
  | inMemorySink (chain : AuditChain)
  | pgSink
  | threadedSink (alive : Bool)
  | sharedSink (poisoned : Bool) (inner : Sink)
deriving DecidableEq

namespace Sink

/-- What a call answers, and the sink and the table behind it. -/
structure Called (α : Type) where
  answer : Except SinkFault α
  sink : Sink
  table : AuditTable

/-- A call that runs on the thread of the sink: a panic there ends the thread, and the
caller finds its reply dropped. -/
def onThread {α : Type} (alive : Bool) (t : AuditTable)
    (out : Except SinkFault α × AuditTable) : Called α :=
  if alive then
    match out.1 with
    | .error .panicked =>
        ⟨.error (.ofBackend "audit thread dropped the reply"), .threadedSink false, out.2⟩
    | answer => ⟨answer, .threadedSink true, out.2⟩
  else ⟨.error (.ofBackend "audit thread is gone"), .threadedSink false, t⟩

/-- A call under the lock of a `SharedSink`. -/
def locked {α : Type} (poisoned : Bool) (inner : Sink) (t : AuditTable) (out : Called α) :
    Called α :=
  if poisoned then
    ⟨.error (.ofBackend "shared audit sink mutex poisoned"), .sharedSink true inner, t⟩
  else
    match out.answer with
    | .error .panicked => ⟨.error .panicked, .sharedSink true out.sink, out.table⟩
    | answer => ⟨answer, .sharedSink false out.sink, out.table⟩

section

variable [SerdeJson] [Sha256]

def append : Sink → Weather → NewEntry → UInt64 → AuditTable → Called AuditRecord
  | .inMemorySink chain, _, entry, ts, t =>
      ⟨.ok (chain.nextRecord entry ts), .inMemorySink (chain.append entry ts), t⟩
  | .pgSink, w, entry, ts, t => ⟨(pgAppend w entry ts t).1, .pgSink, (pgAppend w entry ts t).2⟩
  | .threadedSink alive, w, entry, ts, t => onThread alive t (pgAppend w entry ts t)
  | .sharedSink poisoned inner, w, entry, ts, t =>
      locked poisoned inner t (inner.append w entry ts t)

omit [Sha256]

def loadChain : Sink → Weather → AuditTable → Called (List AuditRecord)
  | .inMemorySink chain, _, t => ⟨.ok chain.records, .inMemorySink chain, t⟩
  | .pgSink, _, t =>
      ⟨.error (.ofBackend
        "PgSink::load_chain needs &mut; call load_chain_mut() / verify_mut()"), .pgSink, t⟩
  | .threadedSink alive, w, t => onThread alive t (pgLoadChainMut w t, t)
  | .sharedSink poisoned inner, w, t => locked poisoned inner t (inner.loadChain w t)

/-- The trait's default but for the two sinks that override it. -/
def loadChainMut : Sink → Weather → AuditTable → Called (List AuditRecord)
  | .inMemorySink chain, w, t => (Sink.inMemorySink chain).loadChain w t
  | .pgSink, w, t => ⟨pgLoadChainMut w t, .pgSink, t⟩
  | .threadedSink alive, w, t => (Sink.threadedSink alive).loadChain w t
  | .sharedSink poisoned inner, w, t => locked poisoned inner t (inner.loadChainMut w t)

end

end Sink

section Verify

variable [SerdeJson] [Sha256]

/-- What a verification makes of the chain it has loaded.  It runs outside the lock. -/
def verdict (profile : Profile) :
    Except SinkFault (List AuditRecord) → Except SinkFault Unit
  | .error e => .error e
  | .ok records =>
      match verifyChain profile records with
      | .intact => .ok ()
      | .broken at_ => .error (.integrity at_)
      | .overflow => .error .panicked

end Verify

/-! ## The log behind a sink -/

namespace Sink

/-- The chain of an in-memory sink; the other sinks are over the table. -/
def own : Sink → Option AuditChain
  | .inMemorySink chain => some chain
  | .pgSink => none
  | .threadedSink _ => none
  | .sharedSink _ inner => inner.own

/-- The number of records of the log. -/
def size (s : Sink) (t : AuditTable) : Nat :=
  match s.own with
  | some chain => chain.records.length
  | none => t.rows.length

end Sink

section Specs

variable [SerdeJson] [Sha256]

/-- The log behind the sink holds the chain of the entries. -/
def Holds (entries : List (NewEntry × UInt64)) (s : Sink) (t : AuditTable) : Prop :=
  match s.own with
  | some chain => chain = chainOf entries
  | none => Stored entries t

theorem Holds.size {entries : List (NewEntry × UInt64)} {s : Sink} {t : AuditTable}
    (h : Holds entries s t) : s.size t = entries.length := by
  unfold Holds at h
  unfold Sink.size
  split at h
  · rw [h, chainOf_length]
  · rw [h.rows, List.length_map, chainOf_length]

theorem Holds.of_own {entries : List (NewEntry × UInt64)} {s s' : Sink} {t : AuditTable}
    (h : Holds entries s t) (hown : s'.own = s.own) : Holds entries s' t := by
  unfold Holds at h ⊢
  rwa [hown]

/-! ## What one call does -/

/-- What one append did: it left the log as it was and answered with an error, or it
put its entry at the end. -/
inductive Took (entries : List (NewEntry × UInt64)) (entry : NewEntry × UInt64)
    (s : Sink) (t : AuditTable) : Except SinkFault AuditRecord → Prop where
  | stayed (fault : SinkFault) (h : Holds entries s t) : Took entries entry s t (.error fault)
  | lost (fault : SinkFault) (h : Holds (entries ++ [entry]) s t) :
      Took entries entry s t (.error fault)
  | acknowledged (h : Holds (entries ++ [entry]) s t) :
      Took entries entry s t (.ok ((chainOf entries).nextRecord entry.1 entry.2))

/-- Whether an entry has landed is seen from the length of the log. -/
theorem Took.arrived {entries : List (NewEntry × UInt64)} {entry : NewEntry × UInt64}
    {s : Sink} {t : AuditTable} {answer : Except SinkFault AuditRecord}
    (h : Took entries entry s t answer) :
    (s.size t = entries.length ∧ Holds entries s t ∧ ∀ r, answer ≠ .ok r) ∨
    (s.size t ≠ entries.length ∧ Holds (entries ++ [entry]) s t ∧
      ∀ r, answer = .ok r → r = (chainOf entries).nextRecord entry.1 entry.2) := by
  have hlonger : ∀ hlog : Holds (entries ++ [entry]) s t, s.size t ≠ entries.length := by
    intro hlog
    rw [hlog.size, List.length_append, List.length_singleton]
    omega
  cases h with
  | stayed fault hlog => exact .inl ⟨hlog.size, hlog, fun r hr => by cases hr⟩
  | lost fault hlog => exact .inr ⟨hlonger hlog, hlog, fun r hr => by cases hr⟩
  | acknowledged hlog => exact .inr ⟨hlonger hlog, hlog, fun r hr => (Except.ok.inj hr).symm⟩

/-- The append of a sink, from `s` and `t`. -/
structure Appended (entries : List (NewEntry × UInt64)) (entry : NewEntry × UInt64)
    (s : Sink) (t : AuditTable) (s' : Sink) (t' : AuditTable)
    (answer : Except SinkFault AuditRecord) : Prop where
  took : Took entries entry s' t' answer
  kind : s'.own.isSome = s.own.isSome
  table : s.own.isSome = true → t' = t

/-- A read of a sink, from `s` and `t`: it changes nothing, and shows the chain. -/
structure Shown (entries : List (NewEntry × UInt64)) (s : Sink) (t : AuditTable)
    (s' : Sink) (t' : AuditTable) (answer : Except SinkFault (List AuditRecord)) : Prop where
  own : s'.own = s.own
  table : t' = t
  chain : ∀ records, answer = .ok records → (s.own = none → Readable entries) →
    records = (chainOf entries).records

/-- What a wrapper cannot tell apart: two sinks over one log, and two errors. -/
structure Blind {α : Type} (P : Sink → AuditTable → Except SinkFault α → Prop) : Prop where
  sink : ∀ {s s' t answer}, s'.own = s.own → P s t answer → P s' t answer
  fault : ∀ {s t e e'}, P s t (.error e) → P s t (.error e')

omit [SerdeJson] [Sha256] in
theorem Sink.onThread_keeps {α : Type} {P : Sink → AuditTable → Except SinkFault α → Prop}
    (hP : Blind P) {alive : Bool} {t : AuditTable} {out : Except SinkFault α × AuditTable}
    (hbefore : P .pgSink t (.error .panicked)) (hafter : P .pgSink out.2 out.1) :
    P (onThread alive t out).sink (onThread alive t out).table (onThread alive t out).answer := by
  unfold onThread
  split
  · split
    next hpanic =>
      rw [hpanic] at hafter
      exact hP.sink (s := .pgSink) rfl (hP.fault hafter)
    · exact hP.sink (s := .pgSink) rfl hafter
  · exact hP.sink (s := .pgSink) rfl (hP.fault hbefore)

omit [SerdeJson] [Sha256] in
theorem Sink.locked_keeps {α : Type} {P : Sink → AuditTable → Except SinkFault α → Prop}
    (hP : Blind P) {poisoned : Bool} {inner : Sink} {t : AuditTable} {out : Called α}
    (hbefore : P inner t (.error .panicked)) (hafter : P out.sink out.table out.answer) :
    P (locked poisoned inner t out).sink (locked poisoned inner t out).table
      (locked poisoned inner t out).answer := by
  unfold locked
  split
  · exact hP.sink (s := inner) rfl (hP.fault hbefore)
  · split
    next hpanic =>
      rw [hpanic] at hafter
      exact hP.sink (s := out.sink) rfl hafter
    · exact hP.sink (s := out.sink) rfl hafter

theorem appended_blind {entries : List (NewEntry × UInt64)} {entry : NewEntry × UInt64}
    {s : Sink} {t : AuditTable} : Blind (Appended entries entry s t) where
  sink := by
    intro s₁ s₂ t' answer hown h
    refine ⟨?_, by rw [hown, h.kind], h.table⟩
    cases h.took with
    | stayed fault hlog => exact .stayed fault (hlog.of_own hown)
    | lost fault hlog => exact .lost fault (hlog.of_own hown)
    | acknowledged hlog => exact .acknowledged (hlog.of_own hown)
  fault := by
    intro s' t' e e' h
    refine ⟨?_, h.kind, h.table⟩
    cases h.took with
    | stayed fault hlog => exact .stayed e' hlog
    | lost fault hlog => exact .lost e' hlog

theorem shown_blind {entries : List (NewEntry × UInt64)} {s : Sink} {t : AuditTable} :
    Blind (Shown entries s t) where
  sink := by
    intro s₁ s₂ t' answer hown h
    exact ⟨hown.trans h.own, h.table, h.chain⟩
  fault := by
    intro s' t' e e' h
    refine ⟨h.own, h.table, ?_⟩
    intro records hok
    cases hok

/-- A statement that went wrong ends the transaction before its row is in. -/
theorem insertInTxn_ok {w : Weather} {entry : NewEntry} {ts : UInt64} {t : AuditTable}
    {out : AuditRecord × AuditTable} (h : insertInTxn w entry ts t = .ok out) :
    t.append entry ts = some out := by
  unfold insertInTxn at h
  obtain ⟨-, h⟩ := Weather.ask_bind h
  obtain ⟨-, h⟩ := Weather.ask_bind h
  obtain ⟨-, h⟩ := Weather.ask_bind h
  obtain ⟨-, h⟩ := Weather.ask_bind h
  split at h
  next out' happend =>
    cases h
    exact happend
  · cases h

theorem pgAppend_spec {entries : List (NewEntry × UInt64)} {t : AuditTable}
    (h : Stored entries t) (w : Weather) (entry : NewEntry) (ts : UInt64) :
    Took entries (entry, ts) .pgSink (pgAppend w entry ts t).2 (pgAppend w entry ts t).1 := by
  unfold pgAppend
  cases htxn : insertInTxn w entry ts t with
  | error e => exact .stayed e h
  | ok out =>
      obtain ⟨record, t'⟩ := out
      obtain ⟨rfl, hstored⟩ := h.append (insertInTxn_ok htxn)
      cases w.commit with
      | done => exact .acknowledged hstored
      | refused f => exact .stayed _ h
      | lost f => exact .lost _ hstored

/-- The mutable read goes through exactly when its statement does. -/
theorem pgLoad_eq {entries : List (NewEntry × UInt64)} {t : AuditTable}
    (h : Stored entries t) (hread : Readable entries) (w : Weather) :
    pgLoadChainMut w t =
      match w.statement .select with
      | none => .ok (chainOf entries).records
      | some f => .error f.fault := by
  have hload := loadChain_eq h.rows h.small hread
  unfold pgLoadChainMut Weather.ask
  rw [hload]
  cases w.statement .select with
  | none => rfl
  | some f => rfl

theorem pgLoad_spec {entries : List (NewEntry × UInt64)} {t : AuditTable}
    (h : Stored entries t) (w : Weather) :
    Shown entries .pgSink t .pgSink t (pgLoadChainMut w t) := by
  refine ⟨rfl, rfl, ?_⟩
  intro records hok hread
  rw [pgLoad_eq h (hread rfl) w] at hok
  split at hok
  · cases hok
    rfl
  · cases hok

/-- What an append does, for every stack of sinks. -/
theorem Sink.append_spec {entries : List (NewEntry × UInt64)} {s : Sink} {t : AuditTable}
    (h : Holds entries s t) (w : Weather) (entry : NewEntry) (ts : UInt64) :
    Appended entries (entry, ts) s t (s.append w entry ts t).sink (s.append w entry ts t).table
      (s.append w entry ts t).answer := by
  induction s with
  | inMemorySink chain =>
      have hchain : chain = chainOf entries := h
      subst hchain
      refine ⟨.acknowledged ?_, rfl, fun _ => rfl⟩
      show (chainOf entries).append entry ts = chainOf (entries ++ [(entry, ts)])
      simp [chainOf, AuditChain.appendAll]
  | pgSink => exact ⟨pgAppend_spec h w entry ts, rfl, fun hown => by cases hown⟩
  | threadedSink alive =>
      have hblind : Blind (Appended entries (entry, ts) .pgSink t) := appended_blind
      have hthread := @onThread_keeps _ _ hblind alive t (pgAppend w entry ts t)
        ⟨.stayed _ h, rfl, fun _ => rfl⟩
        ⟨pgAppend_spec h w entry ts, rfl, fun hown => by cases hown⟩
      exact ⟨hthread.took, hthread.kind, hthread.table⟩
  | sharedSink poisoned inner ih =>
      have hblind : Blind (Appended entries (entry, ts) inner t) := appended_blind
      have hlocked := @locked_keeps _ _ hblind poisoned inner t _
        ⟨.stayed _ h, rfl, fun _ => rfl⟩ (ih h)
      exact ⟨hlocked.took, hlocked.kind, hlocked.table⟩

/-- What `load_chain` shows. -/
theorem Sink.loadChain_spec {entries : List (NewEntry × UInt64)} {s : Sink} {t : AuditTable}
    (h : Holds entries s t) (w : Weather) :
    Shown entries s t (s.loadChain w t).sink (s.loadChain w t).table (s.loadChain w t).answer := by
  induction s with
  | inMemorySink chain =>
      have hchain : chain = chainOf entries := h
      subst hchain
      exact ⟨rfl, rfl, fun records hok _ => (Except.ok.inj hok).symm⟩
  | pgSink => exact ⟨rfl, rfl, fun records hok => by cases hok⟩
  | threadedSink alive =>
      have hblind : Blind (Shown entries .pgSink t) := shown_blind
      have hthread := @onThread_keeps _ _ hblind alive t (pgLoadChainMut w t, t)
        ⟨rfl, rfl, fun records hok => by cases hok⟩ (pgLoad_spec h w)
      exact ⟨hthread.own, hthread.table, hthread.chain⟩
  | sharedSink poisoned inner ih =>
      have hblind : Blind (Shown entries inner t) := shown_blind
      have hlocked := @locked_keeps _ _ hblind poisoned inner t _
        ⟨rfl, rfl, fun records hok => by cases hok⟩ (ih h)
      exact ⟨hlocked.own, hlocked.table, hlocked.chain⟩

/-- What `load_chain_mut` shows. -/
theorem Sink.loadChainMut_spec {entries : List (NewEntry × UInt64)} {s : Sink} {t : AuditTable}
    (h : Holds entries s t) (w : Weather) :
    Shown entries s t (s.loadChainMut w t).sink (s.loadChainMut w t).table
      (s.loadChainMut w t).answer := by
  induction s with
  | inMemorySink chain => exact Sink.loadChain_spec h w
  | pgSink => exact pgLoad_spec h w
  | threadedSink alive => exact Sink.loadChain_spec h w
  | sharedSink poisoned inner ih =>
      have hblind : Blind (Shown entries inner t) := shown_blind
      have hlocked := @locked_keeps _ _ hblind poisoned inner t _
        ⟨rfl, rfl, fun records hok => by cases hok⟩ (ih h)
      exact ⟨hlocked.own, hlocked.table, hlocked.chain⟩

end Specs

/-! ## Runs -/

/-- The audit table of a deployment and its sinks.  A sink that several components hold
is one of them, and one of a process that starts later is there from the beginning. -/
structure Fleet (ι : Type) where
  table : AuditTable
  sinks : ι → Sink

inductive Request where
  | append (entry : NewEntry) (timestampMs : UInt64)
  | loadChain
  | loadChainMut
  | verify
  | verifyMut

/-- What a call did to its log, and what a verification said. -/
structure Happened (ι : Type) where
  event : SharedLog.Event (Option ι) (NewEntry × UInt64) AuditRecord SinkFault
  verdict : Option (Except SinkFault Unit)

variable {ι : Type}

/-- The log of a sink: a chain of its own, or the table. -/
def Sink.log (s : Sink) (i : ι) : Option ι := if s.own.isSome then some i else none

section Runs

variable [DecidableEq ι] [SerdeJson] [Sha256]

def Fleet.put (f : Fleet ι) (i : ι) {α : Type} (out : Sink.Called α) : Fleet ι :=
  ⟨out.table, Function.update f.sinks i out.sink⟩

/-- One call of one component.  An append has landed when its log is longer. -/
def fleetStep (profile : Profile) : ι × Weather × Request → Fleet ι → Happened ι × Fleet ι
  | (i, w, .append entry ts), f =>
      let out := (f.sinks i).append w entry ts f.table
      let landed := decide (out.sink.size out.table ≠ (f.sinks i).size f.table)
      (⟨.append ((f.sinks i).log i) (entry, ts) landed out.answer, none⟩, f.put i out)
  | (i, w, .loadChain), f =>
      let out := (f.sinks i).loadChain w f.table
      (⟨.read ((f.sinks i).log i) out.answer, none⟩, f.put i out)
  | (i, w, .loadChainMut), f =>
      let out := (f.sinks i).loadChainMut w f.table
      (⟨.read ((f.sinks i).log i) out.answer, none⟩, f.put i out)
  | (i, w, .verify), f =>
      let out := (f.sinks i).loadChain w f.table
      (⟨.read ((f.sinks i).log i) out.answer, some (verdict profile out.answer)⟩, f.put i out)
  | (i, w, .verifyMut), f =>
      let out := (f.sinks i).loadChainMut w f.table
      (⟨.read ((f.sinks i).log i) out.answer, some (verdict profile out.answer)⟩, f.put i out)

/-- Every log is empty. -/
structure Fleet.Fresh (f : Fleet ι) : Prop where
  table : f.table = .empty
  own : ∀ i chain, (f.sinks i).own = some chain → chain = .new

def eventsOf (history : List (Happened ι)) :
    List (SharedLog.Event (Option ι) (NewEntry × UInt64) AuditRecord SinkFault) :=
  history.map (·.event)

def recordsOf (entries : List (NewEntry × UInt64)) : List AuditRecord := (chainOf entries).records

theorem growing_recordsOf : SharedLog.Growing recordsOf where
  nil := rfl
  snoc := by
    intro entries entry
    exact ⟨_, chainOf_snoc entries entry.1 entry.2⟩

/-- The table holds what landed there, and so does every chain of a sink. -/
structure Keeps (history : List (Happened ι)) (f : Fleet ι) : Prop where
  stored : Stored (landed none (eventsOf history)) f.table
  own : ∀ i chain, (f.sinks i).own = some chain →
    chain = chainOf (landed (some i) (eventsOf history))

theorem Keeps.initial {f : Fleet ι} (h : f.Fresh) : Keeps [] f where
  stored := by
    rw [h.table]
    exact Stored.empty
  own := h.own

theorem Keeps.holds {history : List (Happened ι)} {f : Fleet ι} (h : Keeps history f) (i : ι) :
    Holds (landed ((f.sinks i).log i) (eventsOf history)) (f.sinks i) f.table := by
  unfold Holds Sink.log
  cases hown : (f.sinks i).own with
  | none => exact h.stored
  | some chain => exact h.own i chain hown

/-- A call of one sink that leaves every log alone but its own. -/
theorem Keeps.call {history : List (Happened ι)} {f : Fleet ι} (h : Keeps history f) {i : ι}
    {happened : Happened ι} {α : Type} {out : Sink.Called α}
    (hothers : ∀ log, log ≠ (f.sinks i).log i → landed log [happened.event] = [])
    (hkind : out.sink.own.isSome = (f.sinks i).own.isSome)
    (htable : (f.sinks i).own.isSome = true → out.table = f.table)
    (hafter : Holds (landed ((f.sinks i).log i) (eventsOf history ++ [happened.event]))
      out.sink out.table) : Keeps (history ++ [happened]) (f.put i out) := by
  have hevents : eventsOf (history ++ [happened]) = eventsOf history ++ [happened.event] := by
    simp [eventsOf]
  have hsame : ∀ log, log ≠ (f.sinks i).log i →
      landed log (eventsOf history ++ [happened.event]) = landed log (eventsOf history) := by
    intro log hlog
    rw [SharedLog.landed_append, hothers log hlog, List.append_nil]
  unfold Holds at hafter
  unfold Sink.log at hafter hsame
  constructor
  · rw [hevents]
    show Stored _ out.table
    cases hown : (f.sinks i).own with
    | none =>
        rw [hown] at hafter hkind
        rw [Option.isSome_eq_false_iff.mp hkind |> Option.isNone_iff_eq_none.mp] at hafter
        exact hafter
    | some chain =>
        rw [hown] at hsame htable
        rw [hsame none (by simp), htable rfl]
        exact h.stored
  · intro j chain hchain
    rw [hevents]
    by_cases hj : j = i
    · subst hj
      have hput : out.sink.own = some chain := by simpa [Fleet.put] using hchain
      rw [hput] at hafter hkind
      rw [← hkind] at hafter
      exact hafter
    · have hput : (f.sinks j).own = some chain := by
        simpa [Fleet.put, Function.update_of_ne hj] using hchain
      rw [hsame (some j) (by split <;> simp [hj])]
      exact h.own j chain hput

/-- A verification says what came of its read, on a chain whose numbers fit. -/
def VerdictHonest (before : List (Happened ι)) (h : Happened ι) : Prop :=
  ∀ v, h.verdict = some v → ∃ log answer, h.event = .read log answer ∧
    (log = none ∨ (landed log (eventsOf before)).length ≤ 2 ^ 63 → v = answer.map fun _ => ())

/-- What one step owes the steps before it. -/
structure StepHonest (before : List (Happened ι)) (h : Happened ι) : Prop where
  call : SharedLog.Honest recordsOf (eventsOf before) h.event
  verdict : VerdictHonest before h

/-- An append keeps the logs and is honest. -/
theorem Keeps.appended {history : List (Happened ι)} {f : Fleet ι} (h : Keeps history f) (i : ι)
    {entry : NewEntry × UInt64} {out : Sink.Called AuditRecord}
    (hspec : Appended (landed ((f.sinks i).log i) (eventsOf history)) entry (f.sinks i) f.table
      out.sink out.table out.answer) {happened : Happened ι}
    (hevent : happened = ⟨.append ((f.sinks i).log i) entry
      (decide (out.sink.size out.table ≠ (f.sinks i).size f.table)) out.answer, none⟩) :
    StepHonest history happened ∧ Keeps (history ++ [happened]) (f.put i out) := by
  subst hevent
  rw [(h.holds i).size]
  have hothers : ∀ arrived log, log ≠ (f.sinks i).log i →
      landed log [(SharedLog.Event.append ((f.sinks i).log i) entry arrived out.answer)] = [] :=
    fun arrived log hlog => SharedLog.landed_other (Ne.symm hlog) _ _ _ _
  rcases hspec.took.arrived with ⟨hsize, hlog, hanswer⟩ | ⟨hsize, hlog, hanswer⟩
  · have hnot : decide (out.sink.size out.table ≠
        (landed ((f.sinks i).log i) (eventsOf history)).length) = false := by simp [hsize]
    rw [hnot]
    refine ⟨⟨?_, fun v hv => by cases hv⟩, ?_⟩
    · cases hout : out.answer with
      | error e => trivial
      | ok r => exact absurd hout (hanswer r)
    · refine h.call (hothers _) hspec.kind hspec.table ?_
      simpa using hlog
  · have hdone : decide (out.sink.size out.table ≠
        (landed ((f.sinks i).log i) (eventsOf history)).length) = true := by simp [hsize]
    rw [hdone]
    refine ⟨⟨?_, fun v hv => by cases hv⟩, ?_⟩
    · cases hout : out.answer with
      | error e => trivial
      | ok r =>
          refine ⟨rfl, ?_⟩
          rw [hanswer r hout]
          exact chainOf_snoc _ entry.1 entry.2
    · refine h.call (hothers _) hspec.kind hspec.table ?_
      simpa using hlog

/-- A read keeps the logs and is honest. -/
theorem Keeps.shown {history : List (Happened ι)} {f : Fleet ι} (h : Keeps history f) (i : ι)
    {out : Sink.Called (List AuditRecord)}
    (hspec : Shown (landed ((f.sinks i).log i) (eventsOf history)) (f.sinks i) f.table
      out.sink out.table out.answer)
    (hread : Readable (landed none (eventsOf history))) (happened : Happened ι)
    (hevent : happened.event = .read ((f.sinks i).log i) out.answer) :
    SharedLog.Honest recordsOf (eventsOf history) happened.event ∧
      Keeps (history ++ [happened]) (f.put i out) := by
  constructor
  · rw [hevent]
    cases hout : out.answer with
    | error e => trivial
    | ok rs =>
        refine hspec.chain rs hout ?_
        intro hown
        unfold Sink.log
        rw [hown]
        exact hread
  · refine h.call ?_ (by rw [hspec.own]) (fun _ => hspec.table) ?_
    · intro log hlog
      rw [hevent]
      rfl
    · rw [hevent, hspec.table]
      simpa using (h.holds i).of_own hspec.own

/-- The verdict on a chain that has been read. -/
theorem verdict_honest {history : List (Happened ι)} {f : Fleet ι} (h : Keeps history f)
    (profile : Profile) {log : Option ι} {answer : Except SinkFault (List AuditRecord)}
    (hhonest : SharedLog.Honest recordsOf (eventsOf history) (.read log answer)) :
    VerdictHonest history ⟨.read log answer, some (verdict profile answer)⟩ := by
  intro v hv
  cases hv
  refine ⟨log, answer, rfl, fun hfits => ?_⟩
  have hsmall : (landed log (eventsOf history)).length ≤ 2 ^ 63 := by
    rcases hfits with rfl | hsmall
    · exact h.stored.small
    · exact hsmall
  cases answer with
  | error e => rfl
  | ok rs =>
      have hrs : rs = (chainOf (landed log (eventsOf history))).records := hhonest
      simp only [verdict, hrs, verifyChain_chainOf hsmall profile]
      rfl

/-- One call of one component keeps the logs and is honest. -/
theorem fleetStep_honest (profile : Profile) {history : List (Happened ι)} {f : Fleet ι}
    (h : Keeps history f) (hread : Readable (landed none (eventsOf history)))
    (call : ι × Weather × Request) :
    StepHonest history (fleetStep profile call f).1 ∧
      Keeps (history ++ [(fleetStep profile call f).1]) (fleetStep profile call f).2 := by
  obtain ⟨i, w, request⟩ := call
  have hload := Sink.loadChain_spec (h.holds i) w
  have hloadMut := Sink.loadChainMut_spec (h.holds i) w
  cases request with
  | append entry ts => exact h.appended i (Sink.append_spec (h.holds i) w entry ts) rfl
  | loadChain =>
      obtain ⟨hhonest, hkeeps⟩ := h.shown i hload hread
        (fleetStep profile (i, w, .loadChain) f).1 rfl
      exact ⟨⟨hhonest, fun v hv => by cases hv⟩, hkeeps⟩
  | loadChainMut =>
      obtain ⟨hhonest, hkeeps⟩ := h.shown i hloadMut hread
        (fleetStep profile (i, w, .loadChainMut) f).1 rfl
      exact ⟨⟨hhonest, fun v hv => by cases hv⟩, hkeeps⟩
  | verify =>
      obtain ⟨hhonest, hkeeps⟩ := h.shown i hload hread
        (fleetStep profile (i, w, .verify) f).1 rfl
      exact ⟨⟨hhonest, verdict_honest h profile hhonest⟩, hkeeps⟩
  | verifyMut =>
      obtain ⟨hhonest, hkeeps⟩ := h.shown i hloadMut hread
        (fleetStep profile (i, w, .verifyMut) f).1 rfl
      exact ⟨⟨hhonest, verdict_honest h profile hhonest⟩, hkeeps⟩

/-! ## Every run -/

theorem fleet_run (profile : Profile) {f : Fleet ι} (hfresh : f.Fresh)
    {calls : List (ι × Weather × Request)}
    (hread : Readable (landed none (eventsOf (run (fleetStep profile) calls f).1))) :
    Keeps (run (fleetStep profile) calls f).1 (run (fleetStep profile) calls f).2 ∧
      EveryStep StepHonest (run (fleetStep profile) calls f).1 := by
  refine run_rule_where (fleetStep profile) Keeps (fun _ => True)
    (fun before _ => Readable (landed none (eventsOf before))) StepHonest
    (fun history f call _ hreadable h => fleetStep_honest profile h hreadable call)
    (Keeps.initial hfresh) (fun _ _ => trivial) ?_
  intro before r after heq
  rw [heq] at hread
  have hall : Readable (landed none (eventsOf before) ++ landed none (eventsOf (r :: after))) := by
    simpa [eventsOf] using hread
  exact hall.front

/-- The logs of a deployment, as the callers of the sinks see them. -/
structure OneChain (history : List (Happened ι)) : Prop where
  /-- An acknowledged record is in every later read of its log, at its place. -/
  stays : ∀ {before mid after log entry arrived r rs},
    eventsOf history =
      before ++ .append log entry arrived (.ok r) :: (mid ++ .read log (.ok rs) :: after) →
    recordsOf (landed log before) ++ [r] <+: rs
  /-- What was read once is read again. -/
  grows : ∀ {before mid after log rs rs'},
    eventsOf history = before ++ .read log (.ok rs) :: (mid ++ .read log (.ok rs') :: after) →
    rs <+: rs'
  /-- The records are those of the entries that landed, in their order. -/
  genuine : ∀ {before after log rs}, eventsOf history = before ++ .read log (.ok rs) :: after →
    rs.map (fun r => (r.payload.entry, r.payload.timestampUnixMillis)) = landed log before
  /-- No acknowledged entry is missing, and none is there twice. -/
  counts : ∀ {before after log rs}, eventsOf history = before ++ .read log (.ok rs) :: after →
    before.countP (SharedLog.Event.acknowledges log) ≤ rs.length ∧
      rs.length ≤ before.countP (SharedLog.Event.tries log)
  verdicts : EveryStep VerdictHonest history

end Runs

/-- Any calls of any sinks, in any order and with any failures, over empty logs.  The
rates of the entries that land in the table read back. -/
theorem sinks_share_chain [DecidableEq ι] [JsonReader] [Sha256] (profile : Profile)
    (f : Fleet ι) (hfresh : f.Fresh) (calls : List (ι × Weather × Request))
    (hrates : ∀ entry ∈ landed none (eventsOf (run (fleetStep profile) calls f).1),
      RateReadsBack entry.1.intent.t2.ratePerMin)
    (hparse : ∀ r ∈ recordsOf (landed none (eventsOf (run (fleetStep profile) calls f).1)),
      Parses r.payload) :
    OneChain (run (fleetStep profile) calls f).1 := by
  have hread : Readable (landed none (eventsOf (run (fleetStep profile) calls f).1)) :=
    readsBack_of_entries hrates hparse
  have hrun := (fleet_run profile hfresh hread).2
  have hhonest : EveryStep (SharedLog.Honest recordsOf)
      (eventsOf (run (fleetStep profile) calls f).1) :=
    EveryStep.map fun before h after heq => (hrun before h after heq).call
  constructor
  · intro before mid after log entry arrived r rs heq
    rw [heq] at hhonest
    exact SharedLog.acknowledged_stays growing_recordsOf hhonest
  · intro before mid after log rs rs' heq
    rw [heq] at hhonest
    exact SharedLog.reads_grow growing_recordsOf hhonest
  · intro before after log rs heq
    rw [heq] at hhonest
    rw [SharedLog.Honest.read hhonest]
    exact chainOf_entries _
  · intro before after log rs heq
    rw [heq] at hhonest
    exact SharedLog.read_counts growing_recordsOf hhonest
  · exact fun before h after heq => (hrun before h after heq).verdict

/-! ## A proxy and a daemon over one table -/

/-- The recorder of the proxy (`false`) and the shared sink of the daemon (`true`). -/
def proxyAndDaemon : Fleet Bool where
  table := .empty
  sinks := fun i => if i then .sharedSink false .pgSink else .threadedSink true

/-- The proxy records two statements, and the daemon reads and verifies. -/
def recordThenRead : List (Bool × Weather × Request) :=
  [(false, .fair, .append selectOne 42), (true, .fair, .loadChain), (true, .fair, .loadChainMut),
    (false, .fair, .append selectOne 43), (true, .fair, .loadChainMut), (true, .fair, .verifyMut)]

theorem proxyAndDaemon_fresh : proxyAndDaemon.Fresh where
  table := rfl
  own := by
    intro i chain hown
    cases i with
    | false => cases hown
    | true => cases hown

theorem readable_selectOne :
    letI := twoTexts
    letI := Sha256.standard
    Readable [(selectOne, 42)] := by
  let _ := twoTexts
  let _ := Sha256.standard
  have hboth : Readable twoSelects := readsBack_of_entries rates_twoSelects (twoSelects_parse [])
  exact Readable.front [(selectOne, 43)] hboth

theorem landed_recordThenRead :
    letI := twoTexts
    letI := Sha256.standard
    landed none (eventsOf (run (fleetStep .checked) recordThenRead proxyAndDaemon).1) =
      twoSelects := by
  decide +kernel

theorem sinks_share_chain_read :
    letI := twoTexts
    letI := Sha256.standard
    OneChain (run (fleetStep .checked) recordThenRead proxyAndDaemon).1 ∧
      landed none (eventsOf (run (fleetStep .checked) recordThenRead proxyAndDaemon).1) =
        twoSelects := by
  refine ⟨@sinks_share_chain Bool _ twoTexts .standard .checked proxyAndDaemon
    proxyAndDaemon_fresh recordThenRead ?_ ?_, landed_recordThenRead⟩
  · rw [landed_recordThenRead]
    exact @rates_twoSelects twoTexts
  · rw [landed_recordThenRead]
    exact twoSelects_parse []

/-! ## The two read paths -/

/-- Whether a sink can be read, with a mutable borrow or without. -/
def Sink.reads (mutably : Bool) : Sink → Weather → Bool
  | .inMemorySink _, _ => true
  | .pgSink, w => mutably && (w.statement .select).isNone
  | .threadedSink alive, w => alive && (w.statement .select).isNone
  | .sharedSink poisoned inner, w => !poisoned && inner.reads mutably w

section Reads

theorem Sink.onThread_ok {α : Type} {alive : Bool} {t : AuditTable}
    {out : Except SinkFault α × AuditTable} {a : α} :
    (onThread alive t out).answer = .ok a ↔ alive = true ∧ out.1 = .ok a := by
  unfold onThread
  cases alive with
  | false => simp
  | true =>
      simp only [if_true, true_and]
      split
      next hpanic => simp [hpanic]
      · rfl

theorem Sink.locked_ok {α : Type} {poisoned : Bool} {inner : Sink} {t : AuditTable}
    {out : Called α} {a : α} :
    (locked poisoned inner t out).answer = .ok a ↔ poisoned = false ∧ out.answer = .ok a := by
  unfold locked
  cases poisoned with
  | true => simp
  | false =>
      simp only [Bool.false_eq_true, if_false, true_and]
      split
      next hpanic => simp [hpanic]
      · rfl

variable [SerdeJson] [Sha256]

theorem pgLoad_ok {entries : List (NewEntry × UInt64)} {t : AuditTable}
    (h : Stored entries t) (hread : Readable entries) {w : Weather} {rs : List AuditRecord} :
    pgLoadChainMut w t = .ok rs ↔ w.statement .select = none ∧ rs = recordsOf entries := by
  rw [pgLoad_eq h hread]
  cases w.statement .select with
  | none =>
      simp only [true_and]
      exact ⟨fun hok => (Except.ok.inj hok).symm, fun hrs => by rw [hrs]; rfl⟩
  | some fault => simp

/-- `load_chain` shows the chain exactly where the sink can be read without a mutable
borrow. -/
theorem Sink.loadChain_ok {entries : List (NewEntry × UInt64)} {s : Sink} {t : AuditTable}
    (h : Holds entries s t) (hread : s.own = none → Readable entries) {w : Weather}
    {rs : List AuditRecord} :
    (s.loadChain w t).answer = .ok rs ↔ s.reads false w = true ∧ rs = recordsOf entries := by
  induction s with
  | inMemorySink chain =>
      have hchain : chain = chainOf entries := h
      subst hchain
      simp only [Sink.loadChain, Sink.reads, true_and]
      exact ⟨fun hok => (Except.ok.inj hok).symm, fun hrs => by rw [hrs]; rfl⟩
  | pgSink => simp [Sink.loadChain, Sink.reads]
  | threadedSink alive =>
      unfold Sink.loadChain Sink.reads
      rw [onThread_ok, pgLoad_ok h (hread rfl), Bool.and_eq_true, Option.isNone_iff_eq_none,
        and_assoc]
  | sharedSink poisoned inner ih =>
      unfold Sink.loadChain Sink.reads
      rw [locked_ok, ih h hread, Bool.and_eq_true, Bool.not_eq_true', and_assoc]

/-- `load_chain_mut` shows the chain wherever the server can be asked. -/
theorem Sink.loadChainMut_ok {entries : List (NewEntry × UInt64)} {s : Sink} {t : AuditTable}
    (h : Holds entries s t) (hread : s.own = none → Readable entries) {w : Weather}
    {rs : List AuditRecord} :
    (s.loadChainMut w t).answer = .ok rs ↔ s.reads true w = true ∧ rs = recordsOf entries := by
  induction s with
  | inMemorySink chain => exact Sink.loadChain_ok h hread
  | pgSink =>
      unfold Sink.loadChainMut Sink.reads
      rw [pgLoad_ok h (hread rfl), Bool.true_and, Option.isNone_iff_eq_none]
  | threadedSink alive => exact Sink.loadChain_ok h hread
  | sharedSink poisoned inner ih =>
      unfold Sink.loadChainMut Sink.reads
      rw [locked_ok, ih h hread, Bool.and_eq_true, Bool.not_eq_true', and_assoc]

end Reads

/-! ## The audit tail of the daemon -/

section Tail

open PgBrakes.Verified.JsonValue
open PgBrakes.Ports.ApplydWire

variable {ω : Type} [SerdeJson] [Sha256]

/-- The service of the daemon loads the chain with `load_chain` of the sink. -/
def ReadsThrough (d : Daemon ω) (world : ω) (s : Sink) (w : Weather) (t : AuditTable) : Prop :=
  ∀ rs, d.loadChain world = .ok rs ↔ (s.loadChain w t).answer = .ok rs

/-- The answer that shows the last records of a chain. -/
def tailJson (limit : Nat) (chain : List AuditRecord) : Json :=
  .struct [("records",
    some (.array ((chain.drop (chain.length - limit)).map auditRecordJson)))]

/-- The number of records that are asked for. -/
def auditLimit (limit : Option Nat) : Nat := min (limit.getD 50) 1000

omit [SerdeJson] [Sha256] in
theorem auditLimit_eq_zero {limit : Option Nat} : auditLimit limit = 0 ↔ limit = some 0 := by
  unfold auditLimit
  cases limit with
  | none => simp
  | some n => simp

omit [SerdeJson] [Sha256] in
theorem tailJson_eq_nil {limit : Nat} {chain : List AuditRecord} :
    tailJson limit [] = tailJson limit chain ↔ limit = 0 ∨ chain = [] := by
  have hlen : tailJson limit [] = tailJson limit chain ↔
      chain.drop (chain.length - limit) = [] := by
    unfold tailJson
    simp [Json.struct, Json.filled, eq_comm]
  rw [hlen, List.drop_eq_nil_iff]
  constructor
  · intro hle
    cases chain with
    | nil => exact .inr rfl
    | cons r rs =>
        rw [List.length_cons] at hle
        omega
  · rintro (rfl | rfl)
    · simp
    · simp

/-- The tail is the tail of the chain, or nothing. -/
theorem getAudit_eq {d : Daemon ω} {world : ω} {s : Sink} {w : Weather} {t : AuditTable}
    {entries : List (NewEntry × UInt64)} (h : Holds entries s t)
    (hread : s.own = none → Readable entries) (hd : ReadsThrough d world s w t)
    (limit : Option Nat) :
    getAudit d limit world =
      if s.reads false w then tailJson (auditLimit limit) (recordsOf entries)
      else tailJson (auditLimit limit) [] := by
  by_cases hreads : s.reads false w = true
  · have hload := (hd _).mpr ((Sink.loadChain_ok h hread).mpr ⟨hreads, rfl⟩)
    rw [if_pos hreads]
    unfold getAudit auditRecords
    rw [hload]
    rfl
  · rw [if_neg hreads]
    unfold getAudit auditRecords
    cases hload : d.loadChain world with
    | error e => simp [tailJson]
    | ok rs => exact absurd ((Sink.loadChain_ok h hread).mp ((hd rs).mp hload)).1 hreads

/-- After any run the daemon shows the tail of the chain exactly when its sink can be
read without a mutable borrow, or there is nothing to show.  With the borrow the sink would
show the chain. -/
theorem audit_tail_exact [DecidableEq ι] (profile : Profile) (f : Fleet ι) (hfresh : f.Fresh)
    (calls : List (ι × Weather × Request))
    (hread : Readable (landed none (eventsOf (run (fleetStep profile) calls f).1)))
    (i : ι) (w : Weather) (d : Daemon ω) (world : ω) (limit : Option Nat)
    (hd : ReadsThrough d world ((run (fleetStep profile) calls f).2.sinks i) w
      (run (fleetStep profile) calls f).2.table) :
    let final := (run (fleetStep profile) calls f).2
    let entries := landed ((final.sinks i).log i) (eventsOf (run (fleetStep profile) calls f).1)
    (getAudit d limit world = tailJson (auditLimit limit) (recordsOf entries) ↔
      (final.sinks i).reads false w = true ∨ limit = some 0 ∨ entries = []) ∧
    ∀ rs, ((final.sinks i).loadChainMut w final.table).answer = .ok rs ↔
      (final.sinks i).reads true w = true ∧ rs = recordsOf entries := by
  intro final entries
  have hkeeps := (fleet_run profile hfresh hread).1
  have hreadable : (final.sinks i).own = none → Readable entries := by
    intro hown
    show Readable (landed ((final.sinks i).log i) _)
    unfold Sink.log
    rw [hown]
    exact hread
  have hnil : recordsOf entries = [] ↔ entries = [] := by
    rw [← List.length_eq_zero_iff, growing_recordsOf.length, List.length_eq_zero_iff]
  refine ⟨?_, fun rs => Sink.loadChainMut_ok (hkeeps.holds i) hreadable⟩
  rw [getAudit_eq (hkeeps.holds i) hreadable hd]
  by_cases hreads : (final.sinks i).reads false w = true
  · rw [if_pos hreads]
    exact ⟨fun _ => .inl hreads, fun _ => rfl⟩
  · rw [if_neg hreads, tailJson_eq_nil, auditLimit_eq_zero, hnil]
    simp [hreads]

/-- The daemon over its shared sink. -/
def daemonOverPg [Grant.Ed25519] : Daemon Unit :=
  { McpSession.accountsBackends with
    loadChain := fun _ => .error ⟨"audit sink backend error: " ++
      "PgSink::load_chain needs &mut; call load_chain_mut() / verify_mut()"⟩ }

omit [Sha256] in
theorem daemonOverPg_reads [Grant.Ed25519] (poisoned : Bool) (w : Weather) (t : AuditTable) :
    ReadsThrough daemonOverPg () (.sharedSink poisoned .pgSink) w t := by
  intro rs
  constructor
  · intro h
    cases h
  · intro h
    have hinner := (Sink.locked_ok.mp h).2
    cases hinner

omit [SerdeJson] [Sha256] in
/-- The proxy has recorded a statement, and the daemon shows none. -/
theorem audit_tail_exact_read :
    letI := twoTexts.toSerdeJson
    letI := Sha256.standard
    letI := GrantSingleUse.sharedBytes
    getAudit daemonOverPg none () ≠
      tailJson 50 (recordsOf (landed none (eventsOf (run (fleetStep .checked)
        [(false, .fair, .append selectOne 42)] proxyAndDaemon).1))) := by
  let _ := twoTexts.toSerdeJson
  let _ := Sha256.standard
  let _ := GrantSingleUse.sharedBytes
  intro heq
  rcases (audit_tail_exact .checked proxyAndDaemon proxyAndDaemon_fresh
    [(false, .fair, .append selectOne 42)] readable_selectOne true .fair daemonOverPg () none
    (daemonOverPg_reads false .fair _)).1.mp heq with h | h | h
  · cases h
  · cases h
  · cases h

end Tail

end PgBrakes.Ports.Audit
