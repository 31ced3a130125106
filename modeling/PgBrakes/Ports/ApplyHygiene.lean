import PgBrakes.Verified.History
import PgBrakes.Ports.ResidentClient
import PgBrakes.Ports.GrantSingleUse
import PgBrakes.Ports.SelfDetermined

/-!
# The session between two applies

Three parties have a view of whether a transaction is open: the engine, which rolls back
once `begin` has returned well, the adapter with its flag, and the server.  They agree
as long as `begin` fails at its `BEGIN` or not at all: when a statement behind the
`BEGIN` fails, the engine returns without a rollback and the flag is gone with the
adapter, while the session stays in the aborted transaction.  The next request then
meets it.

## Main results

* `Phases.run` — how the engine takes a connection from one phase to the next.
* `idle_iff_clean` — over any requests, the session is idle between them exactly when no
  failure left a transaction open.
* `baselineTimeout_blocks` — a timeout in `begin` makes the next request fail.
-/

namespace PgBrakes.Ports.Resident

open PgBrakes.Verified.Effect
open PgBrakes.Verified.Effect.Eff
open PgBrakes.Ports.KeyChecksum
open PgBrakes.Ports.BlastRecord
open PgBrakes.Ports.GuardedApply
open PgBrakes.Ports.GuardedApplyRun
open PgBrakes.Ports.GrantedApply
open PgBrakes.Ports.Grant
open PgBrakes.Ports.SqlAst
open PgBrakes.Ports.PgTable
open PgBrakes.Ports.PgConn
open PgBrakes.Ports.Wire (TransactionStatus)

/-! ## The phases of an apply -/

section Engine

variable {ω : Type} {idle opened left : ω → Prop}

/-- What each call of the engine makes of a connection: `idle` before a transaction,
`opened` inside one, `left` when the engine is done. -/
structure Phases (conn : ApplyConn ω) (idle opened left : ω → Prop) : Prop where
  untouched : ∀ w, idle w → left w
  fence : ∀ label, Triple idle (conn.createRestorePoint label) (fun _ => idle) idle
  begin : ∀ timeoutMs, Triple idle (conn.begin timeoutMs) (fun _ => opened) left
  forward : ∀ kind relation cascades, Keeps opened (conn.applyForward kind relation cascades)
  deltas : Keeps opened conn.xactTupleDeltas
  wal : Keeps opened conn.xactWalBytes
  commit : Triple opened conn.commit (fun _ => left) left
  rollback : Triple opened conn.rollback (fun _ => left) left

theorem Phases.fence_run {i : Invocation ω} (h : Phases i.conn idle opened left)
    (hclock : ∀ w, idle w → idle (i.clock.nowUnixMillis w).2) :
    Triple (fun s => idle s.world) (recoveryFence i.proposalId i.pitr i.conn i.clock)
      (fun _ s => idle s.world) (fun s => idle s.world) := by
  refine Triple.ite (fun _ => ?_) fun _ => Triple.pure fun _ hs => hs
  have hread : Triple (fun s => idle s.world)
      (consult i.clock.nowUnixMillis .clockRead : Apply ω Nat) (fun _ s => idle s.world)
      (fun s => idle s.world) := Triple.consult (Q := fun _ => idle) hclock
  refine hread.bind fun now => ?_
  exact (Triple.perform (h.fence _)).bind fun lsn => Triple.pure fun _ hs => hs

theorem Phases.body_run {i : Invocation ω} (h : Phases i.conn idle opened left)
    (hbarrier : ∀ label w, opened w → opened (i.barrier.pausePoint label w))
    (predicted : PredictedBlastRadius) :
    Triple (fun s => opened s.world)
      (guardedBody i.kind i.relation predicted i.cap i.conn i.barrier)
      (fun _ s => opened s.world) (fun s => opened s.world) := by
  have hcheck : ∀ r : Except ApplyError Unit,
      Triple (fun s : Logged ω ApplyCall => opened s.world) (Eff.lift r)
        (fun _ s => opened s.world) (fun s => opened s.world) :=
    fun r => (Keeps.lift r).self
  have hpause : Triple (fun s => opened s.world)
      (disturb (i.barrier.pausePoint "between dry_run and apply") : Apply ω Unit)
      (fun _ s => opened s.world) (fun s => opened s.world) := by
    intro s hs
    exact hbarrier _ _ hs
  refine hpause.bind fun _ => ?_
  refine (Triple.perform (h.forward _ _ _).self).bind fun forward => ?_
  refine (Triple.perform h.deltas.self).bind fun deltas => ?_
  refine (hcheck _).bind fun _ => (hcheck _).bind fun _ => ?_
  refine (Triple.perform h.wal.self).bind fun walBytes => ?_
  refine (hcheck _).bind fun _ => (hcheck _).bind fun _ => (hcheck _).bind fun _ => ?_
  exact Triple.pure fun _ hs => hs

/-- An apply from an idle connection leaves one that is `left`, however it ends. -/
theorem Phases.run [Sha256] {i : Invocation ω} (h : Phases i.conn idle opened left)
    (hclock : ∀ w, idle w → idle (i.clock.nowUnixMillis w).2)
    (hbarrier : ∀ label w, opened w → opened (i.barrier.pausePoint label w)) :
    Triple (fun s => idle s.world) i.run (fun _ s => left s.world) (fun s => left s.world) := by
  have hdone : ∀ s : Logged ω ApplyCall, idle s.world → left s.world :=
    fun s hs => h.untouched _ hs
  refine Triple.bind ((Keeps.lift _).triple (fun _ hs => hs) hdone) fun predicted => ?_
  refine ((h.fence_run hclock).stops hdone).bind fun fence => ?_
  refine (Triple.perform (h.begin _)).bind fun _ => ?_
  refine (h.body_run hbarrier predicted).attempt_bind (fun forward => ?_) fun e => ?_
  · refine (Triple.perform h.commit).bind fun _ => ?_
    exact Triple.bind (Keeps.lift _).self fun checksum => Triple.pure fun _ hs => hs
  · refine (Triple.perform h.rollback).attempt_bind (fun _ => ?_) fun _ => ?_
    · exact Triple.fail fun _ hs => hs
    · exact Triple.fail fun _ hs => hs

end Engine

/-! ## What a statement does to the session -/

variable {σ α : Type}

/-- The failure can leave a transaction behind: a statement of `begin` behind its
`BEGIN`, or a `COMMIT` or `ROLLBACK` that has not ended the transaction. -/
def Harmful : Sent → Bool
  | (_, none) => false
  | (stmt, some failure) => stmt.behindBegin || (stmt.ends && !failure.ended)

def Clean (sent : List Sent) : Prop := ∀ x ∈ sent, Harmful x = false

namespace Client

def Idle (c : Client σ) : Prop := c.status = .idle ∧ Clean c.sent

def Opened (c : Client σ) : Prop := c.status = .inTransaction ∧ Clean c.sent

/-- Inside a transaction, aborted or not. -/
def Busy (c : Client σ) : Prop := c.status ≠ .idle ∧ Clean c.sent

/-- When the engine is done: idle exactly without a harmful failure. -/
def Left (c : Client σ) : Prop := c.status = .idle ↔ Clean c.sent

theorem Idle.left {c : Client σ} (h : c.Idle) : c.Left := ⟨fun _ => h.2, fun _ => h.1⟩

theorem Opened.busy {c : Client σ} (h : c.Opened) : c.Busy := ⟨by rw [h.1]; decide, h.2⟩

end Client

theorem clean_afterSent {server : Server σ} {stmt : Statement} {c : Client σ}
    (h : Clean c.sent) :
    Clean (afterSent server stmt c).sent ↔
      Harmful (stmt, (outcome server stmt c).1) = false := by
  constructor
  · intro hclean
    exact hclean _ (by simp [afterSent])
  · intro hharmless x hx
    rcases List.mem_append.mp hx with hx | hx
    · exact h x hx
    · rw [List.mem_singleton.mp hx]
      exact hharmless

/-- The rule for one statement, by its outcome. -/
theorem exec_triple {server : Server σ} {stmt : Statement} {P Q E : Client σ → Prop}
    (hok : ∀ c, P c → (outcome server stmt c).1 = none → Q (afterSent server stmt c))
    (herror : ∀ c failure, P c → (outcome server stmt c).1 = some failure →
      E (afterSent server stmt c)) :
    Triple P (exec server stmt) (fun _ => Q) E := by
  intro c hc
  unfold exec
  rcases houtcome : (outcome server stmt c).1 with _ | failure
  · exact hok c hc houtcome
  · exact herror c failure hc houtcome

/-- A plain statement: neither part of `begin` nor the end of a transaction. -/
def Statement.Plain (stmt : Statement) : Prop :=
  stmt ≠ .beginXact ∧ stmt.behindBegin = false ∧ stmt.ends = false

theorem Statement.Plain.harmless {stmt : Statement} (h : stmt.Plain) (o : Option Failure) :
    Harmful (stmt, o) = false := by
  cases o with
  | none => rfl
  | some failure => simp [Harmful, h.2.1, h.2.2]

theorem exec_idle {server : Server σ} {stmt : Statement} (h : stmt.Plain) :
    Keeps Client.Idle (exec server stmt) := by
  have hafter : ∀ c, Client.Idle c → Client.Idle (afterSent server stmt c) := by
    intro c hc
    refine ⟨?_, (clean_afterSent hc.2).mpr (h.harmless _)⟩
    rcases ho : (outcome server stmt c).1 with _ | failure
    · simp [afterSent, nextStatus, ho, h.2.2, h.1, hc.1]
    · simp [afterSent, nextStatus, ho, hc.1]
  intro c hc
  exact Keeps.of_triple (exec_triple (fun c hc _ => hafter c hc) fun c _ hc _ => hafter c hc) hc

theorem exec_busy {server : Server σ} {stmt : Statement} (h : stmt.Plain) :
    Keeps Client.Busy (exec server stmt) := by
  have hafter : ∀ c, Client.Busy c → Client.Busy (afterSent server stmt c) := by
    intro c hc
    refine ⟨?_, (clean_afterSent hc.2).mpr (h.harmless _)⟩
    rcases ho : (outcome server stmt c).1 with _ | failure
    · simp [afterSent, nextStatus, ho, h.2.2, h.1, hc.1]
    · simp [afterSent, nextStatus, ho, h.2.2, hc.1]
  intro c hc
  exact Keeps.of_triple (exec_triple (fun c hc _ => hafter c hc) fun c _ hc _ => hafter c hc) hc

/-- A `BEGIN` that fails leaves the session idle. -/
theorem exec_begin {server : Server σ} :
    Triple Client.Idle (exec server .beginXact) (fun _ => Client.Opened) Client.Idle := by
  refine exec_triple ?_ ?_
  · intro c hc ho
    refine ⟨?_, (clean_afterSent hc.2).mpr (by rw [ho]; rfl)⟩
    simp [afterSent, nextStatus, ho, hc.1, Statement.ends]
  · intro c failure hc ho
    refine ⟨?_, (clean_afterSent hc.2).mpr (by rw [ho]; rfl)⟩
    simp [afterSent, nextStatus, ho, hc.1]

/-- A statement behind the `BEGIN` that fails leaves the transaction aborted. -/
theorem exec_behind {server : Server σ} {stmt : Statement} (h : stmt.behindBegin = true) :
    Triple Client.Opened (exec server stmt) (fun _ => Client.Opened) Client.Left := by
  have hends : stmt.ends = false := by cases stmt <;> first | rfl | cases h
  have hbegin : stmt ≠ .beginXact := by rintro rfl; cases h
  refine exec_triple ?_ ?_
  · intro c hc ho
    refine ⟨?_, (clean_afterSent hc.2).mpr (by rw [ho]; rfl)⟩
    simp [afterSent, nextStatus, ho, hc.1, hends, hbegin]
  · intro c failure hc ho
    have hstatus : (afterSent server stmt c).status = .failed := by
      simp [afterSent, nextStatus, ho, hc.1, hends]
    have hdirty : ¬ Clean (afterSent server stmt c).sent := by
      rw [clean_afterSent hc.2, ho]
      simp [Harmful, h]
    unfold Client.Left
    rw [hstatus]
    simp [hdirty]

/-- The end of a transaction, whatever came of it. -/
theorem exec_end {server : Server σ} {stmt : Statement} (h : stmt.ends = true) {c : Client σ}
    (hc : c.Busy) : (afterSent server stmt c).Left := by
  have hbehind : stmt.behindBegin = false := by cases stmt <;> first | rfl | cases h
  unfold Client.Left
  rw [clean_afterSent hc.2]
  rcases ho : (outcome server stmt c).1 with _ | failure
  · simp [afterSent, nextStatus, ho, h, Harmful]
  · simp [afterSent, nextStatus, ho, h, hc.1, hbehind, Harmful]

theorem select_triple {server : Server σ} {stmt : Statement} {reply : σ → α}
    {P Q E : Client σ → Prop} (h : Triple P (exec server stmt) (fun _ => Q) E) :
    Triple P (select server stmt reply) (fun _ => Q) E := by
  refine h.bind fun _ => ?_
  intro c hc
  exact hc

/-! ## The adapter -/

namespace ClientAdapter

def Idle (a : ClientAdapter σ) : Prop := a.client.Idle

def Opened (a : ClientAdapter σ) : Prop := a.client.Busy ∧ a.inTxn = true

def Left (a : ClientAdapter σ) : Prop := a.client.Left

end ClientAdapter

section Adapter

variable {server : Server σ} {g : ServerError → ApplyError} {m : Eff (Client σ) ServerError α}
  {P Q E : Client σ → Prop}

theorem onClient_triple (h : Triple P m (fun _ => Q) E) :
    Triple (fun a => P a.client) (onClient g m) (fun _ a => Q a.client) (fun a => E a.client) := by
  intro a ha
  have hrun := h a.client ha
  unfold onClient
  rcases hm : m a.client with ⟨r, c⟩
  rw [hm] at hrun
  cases r with
  | ok x => exact hrun
  | error e => exact hrun

/-- Using the client leaves the flag alone. -/
theorem onClient_flag (h : Triple P m (fun _ => Q) E) :
    Triple (fun a => P a.client ∧ a.inTxn = true) (onClient g m)
      (fun _ a => Q a.client ∧ a.inTxn = true) (fun a => E a.client ∧ a.inTxn = true) := by
  rintro a ⟨ha, hflag⟩
  have hrun := onClient_triple (g := g) h a ha
  rcases hm : onClient g m a with ⟨r, a'⟩
  have hkept : a'.inTxn = true := by
    have hsame : (onClient g m a).2.inTxn = a.inTxn := rfl
    rw [hm] at hsame
    exact hsame.trans hflag
  rw [hm] at hrun
  cases r with
  | ok x => exact ⟨hrun, hkept⟩
  | error e => exact ⟨hrun, hkept⟩

theorem classified_flag (h : Triple P m (fun _ => Q) E) :
    Triple (fun a => P a.client ∧ a.inTxn = true) (classified m)
      (fun _ a => Q a.client ∧ a.inTxn = true) (fun a => E a.client ∧ a.inTxn = true) :=
  fun a => onClient_flag h a

/-- The counters, read inside a transaction. -/
theorem readXactRaw_flag {stmt : Statement} (h : Triple P (exec server stmt) (fun _ => Q) E) :
    Triple (fun a => P a.client ∧ a.inTxn = true) (readXactRaw server stmt)
      (fun _ a => Q a.client ∧ a.inTxn = true) (fun a => E a.client ∧ a.inTxn = true) :=
  (classified_flag (select_triple h)).bind fun _ => Triple.pure fun _ ha => ha

/-- A plain statement leaves an open transaction open. -/
theorem onClient_opened {stmt : Statement} (h : stmt.Plain) (reply : σ → α) :
    Triple ClientAdapter.Opened (onClient g (select server stmt reply))
      (fun _ => ClientAdapter.Opened) ClientAdapter.Opened :=
  onClient_flag (select_triple (exec_busy h).self)

theorem classified_opened {stmt : Statement} (h : stmt.Plain) (reply : σ → α) :
    Triple ClientAdapter.Opened (classified (select server stmt reply))
      (fun _ => ClientAdapter.Opened) ClientAdapter.Opened :=
  classified_flag (select_triple (exec_busy h).self)

end Adapter

theorem store_triple {P Q E : ClientAdapter σ → Prop} {f : ClientAdapter σ → ClientAdapter σ}
    (h : ∀ a, P a → Q (f a)) : Triple P (store f) (fun _ => Q) E := h

/-- `begin` opens a transaction, or fails and leaves what its failure left. -/
theorem begin_triple (server : Server σ) (timeoutMs : Nat) :
    Triple ClientAdapter.Idle (begin server timeoutMs) (fun _ => ClientAdapter.Opened)
      ClientAdapter.Left := by
  refine ((onClient_triple exec_begin).stops fun _ ha => ha.left).bind fun _ => ?_
  refine (onClient_triple (exec_behind rfl)).bind fun _ => ?_
  refine Triple.bind (Q := fun _ a => a.client.Opened ∧ a.inTxn = true) ?_ fun _ => ?_
  · exact store_triple fun a ha => ⟨ha, rfl⟩
  refine ((readXactRaw_flag (exec_behind rfl)).stops fun _ ha => ha.1).bind fun baseline => ?_
  refine Triple.bind (Q := fun _ a => a.client.Opened ∧ a.inTxn = true) ?_ fun _ => ?_
  · exact store_triple fun a ha => ha
  refine ((onClient_flag (select_triple (exec_behind rfl))).stops fun _ ha => ha.1).bind
    fun lsn => ?_
  exact store_triple fun a ha => ⟨ha.1.busy, ha.2⟩

theorem walBytes_opened (server : Server σ) : Keeps ClientAdapter.Opened (walBytes server) := by
  intro a ha
  unfold walBytes
  cases a.walBaselineLsn with
  | none => exact ha
  | some before =>
      refine Keeps.of_triple ?_ ha
      refine (classified_opened ⟨by simp, rfl, rfl⟩ _).bind fun after => ?_
      refine (onClient_opened ⟨by simp, rfl, rfl⟩ _).bind fun bytes => ?_
      exact Triple.pure fun _ ha => ha

theorem tupleDeltas_opened (server : Server σ) :
    Keeps ClientAdapter.Opened (tupleDeltas server) := by
  have hplain : Statement.Plain .xactCounts := ⟨by simp, rfl, rfl⟩
  intro a ha
  show ClientAdapter.Opened ((readXactRaw server .xactCounts >>= fun after => pure _) a).2
  refine Keeps.of_triple ?_ ha
  refine (readXactRaw_flag (exec_busy hplain).self).bind fun after => ?_
  exact Triple.pure fun _ ha => ha

theorem forward_opened [Sql] (server : Server σ) (forwardSql whereSql : String)
    (kind : WriteKind) (relation : String) :
    Keeps ClientAdapter.Opened (forward server forwardSql whereSql kind relation) := by
  have hcolumns : Triple ClientAdapter.Opened (imageCols server forwardSql kind relation)
      (fun _ => ClientAdapter.Opened) ClientAdapter.Opened := by
    cases kind with
    | update => exact (Keeps.lift _).self
    | delete => exact onClient_opened ⟨by simp, rfl, rfl⟩ _
  intro a ha
  refine Keeps.of_triple ?_ ha
  refine hcolumns.bind fun cols => ?_
  refine (classified_opened ⟨by simp, rfl, rfl⟩ _).bind fun rows => ?_
  refine Triple.bind (Keeps.lift _).self fun preimage => ?_
  refine (classified_opened ⟨by simp, rfl, rfl⟩ _).bind fun returned => ?_
  refine Triple.bind (Keeps.lift _).self fun written => ?_
  exact Triple.pure fun _ ha => ha

theorem commit_triple (server : Server σ) :
    Triple ClientAdapter.Opened (commit server) (fun _ => ClientAdapter.Left)
      ClientAdapter.Left := by
  have hend : Triple Client.Busy (exec server .commit) (fun _ => Client.Left) Client.Left :=
    exec_triple (fun c hc _ => exec_end rfl hc) fun c _ hc _ => exec_end rfl hc
  refine Triple.bind ((onClient_triple hend).conseq (fun a ha => ha.1) fun _ _ ha => ha) fun _ => ?_
  exact store_triple fun a ha => ha

theorem rollback_triple (server : Server σ) :
    Triple ClientAdapter.Opened (rollback server) (fun _ => ClientAdapter.Left)
      ClientAdapter.Left := by
  rintro a ⟨hbusy, hflag⟩
  have hafter : (exec server .rollback a.client).2 = afterSent server .rollback a.client := by
    unfold exec
    split
    · rfl
    · rfl
  unfold rollback
  rw [if_pos hflag, hafter]
  exact exec_end rfl hbusy

/-- The adapter of the resident client goes through the phases of the engine. -/
theorem phases_clientConn [Sql] (server : Server σ) (forwardSql whereSql : String) :
    Phases (clientConn server forwardSql whereSql) ClientAdapter.Idle ClientAdapter.Opened
      ClientAdapter.Left where
  untouched _ ha := Client.Idle.left ha
  fence _ := onClient_triple (select_triple (exec_idle ⟨by simp, rfl, rfl⟩).self)
  begin timeoutMs := begin_triple server timeoutMs
  forward kind relation _ := forward_opened server forwardSql whereSql kind relation
  deltas := tupleDeltas_opened server
  wal := walBytes_opened server
  commit := commit_triple server
  rollback := rollback_triple server

/-! ## One request -/

theorem pkColumn_idle (server : Server σ) (relation : String) {a : ClientAdapter σ}
    (h : a.Idle) : (pkColumn server relation a).2.Idle := by
  have hplain : Statement.Plain (.primaryKey relation) := ⟨by simp, rfl, rfl⟩
  have hafter : (select server (.primaryKey relation) (server.primaryKey relation)
      a.client).2.Idle :=
    Keeps.of_triple (select_triple (exec_idle hplain).self) h
  unfold pkColumn
  split
  · next heq =>
      rw [heq] at hafter
      exact hafter
  · next heq =>
      rw [heq] at hafter
      exact hafter

section Requests

variable [Sha256] [Ed25519] [Sql]

/-- A request that meets an idle session leaves it idle exactly when none of its
failures was harmful. -/
theorem serve_left (server : Server σ) (clock : Clock σ) (r : ApplyRequest)
    {s : NonceStore × Client σ} (h : s.2.status = .idle) :
    (serve server clock r s).1.leftIn = .idle ↔ Clean (serve server clock r s).1.sent := by
  show (r.run server clock s).2.calls.world.Left
  have hstart : (ClientAdapter.new { s.2 with sent := [] }).Idle :=
    ⟨h, by simp [Clean, ClientAdapter.new]⟩
  have hpk := pkColumn_idle server r.relation hstart
  unfold ApplyRequest.run
  rcases run_granted_cases (r.call server clock)
    ⟨s.1, ⟨.new { s.2 with sent := [] }, []⟩⟩ with ⟨e, s', hrefused⟩ | hgranted
  · rw [hrefused.run]
    rcases hrefused.calls with hcalls | hcalls
    · rw [hcalls]
      exact Client.Idle.left hpk
    · rw [hcalls]
      exact Client.Idle.left hpk
  · rw [hgranted.run]
    refine Keeps.of_triple (Phases.run (phases_clientConn server r.forwardSql r.whereSql)
      (fun _ ha => ha) fun _ _ ha => ha) ?_
    exact hpk

/-! ## Any requests -/

/-- The requests served one after the other, from a client that was just connected. -/
def servedAll (server : Server σ) (clock : Clock σ) (requests : List ApplyRequest)
    (nonces : NonceStore) (start : σ) : List Served :=
  (PgBrakes.Verified.History.run (serve server clock) requests (nonces, ⟨.idle, start, []⟩)).1

/-- Whatever fails, the session is idle when a request starts and when it returns,
exactly when no failure of any request was harmful. -/
theorem idle_iff_clean (server : Server σ) (clock : Clock σ) (requests : List ApplyRequest)
    (nonces : NonceStore) (start : σ) :
    (∀ r ∈ servedAll server clock requests nonces start,
        r.startedIn = .idle ∧ r.leftIn = .idle) ↔
      ∀ r ∈ servedAll server clock requests nonces start, Clean r.sent := by
  -- From any idle session, by the number of requests.
  suffices hgeneral : ∀ s : NonceStore × Client σ, s.2.status = .idle →
      ((∀ r ∈ (PgBrakes.Verified.History.run (serve server clock) requests s).1,
        r.startedIn = .idle ∧ r.leftIn = .idle) ↔
      ∀ r ∈ (PgBrakes.Verified.History.run (serve server clock) requests s).1, Clean r.sent) from
    hgeneral _ rfl
  induction requests with
  | nil =>
      intro s hs
      simp [PgBrakes.Verified.History.run]
  | cons request requests ih =>
      intro s hs
      have hone := serve_left server clock request hs
      simp only [PgBrakes.Verified.History.run, List.forall_mem_cons]
      constructor
      · rintro ⟨⟨-, hleft⟩, hrest⟩
        exact ⟨hone.mp hleft, (ih _ hleft).mp hrest⟩
      · rintro ⟨hclean, hrest⟩
        have hleft := hone.mpr hclean
        exact ⟨⟨hs, hleft⟩, (ih _ hleft).mpr hrest⟩

end Requests

/-! ## A timeout in `begin` -/

/-- A dry run that found one row to delete. -/
def keyRadius : BlastRadius :=
  { GuardedApplyAtomicity.twoRowRadius with
    affected :=
      { byTable := .ofList [("public.accounts", 1)]
        cascadeByTable := ∅
        pkSetChecksum := .ofList [("public.accounts", "sha256:00")]
        effectByTable := .ofList [("public.accounts", (⟨0, 0, 1⟩ : OpCounts))]
        totalRows := 1 }
    inverseKind := .forDelete }

def keyBinding (nonce : String) : GrantBinding :=
  { statementText := SelfDetermined.keyText
    normalizedParams := []
    role := "app"
    sessionId := "agent"
    proposalId := "p1"
    dryRunLsn := "0/1"
    cap := { maxRows := 1, maxWalBytes := 0 }
    nonce := nonce
    expiryUnixMillis := 1000 }

/-- A request to delete that row, under a grant of its own. -/
def keyRequest [Sha256] [Ed25519] (nonce : String) : ApplyRequest :=
  { forwardSql := SelfDetermined.keyText
    whereSql := "id = 1"
    policy := { cloneProvider := .dblab, pitrEnabled := false }
    grant := .sign (keyBinding nonce) GrantSingleUse.approverKey
    live :=
      { statementText := SelfDetermined.keyText
        normalizedParams := []
        role := "app"
        sessionId := "agent"
        proposalId := "p1" }
    verifyingKey := Ed25519.verifyingKey GrantSingleUse.approverKey
    kind := .delete
    relation := "public.accounts"
    blastRadius := keyRadius }

/-- A server on which the first read of the statistics times out. -/
def slowStatistics : Server Bool where
  attempt stmt slowed :=
    if stmt = .baselineCounts ∧ slowed = false then (some ⟨.queryCanceled, false⟩, true)
    else (none, slowed)
  primaryKey _ _ := ["id"]
  restorePoint _ _ := "0/1"
  counts _ := []
  lsn _ := "0/1"
  lsnDiff _ _ _ := 0
  columns _ _ := ["id", "owner"]
  rows _ _ _ _ := []
  returned _ _ := []

/-- The first request times out behind its `BEGIN` and returns from an aborted
transaction; the second one, with nothing wrong about it, is refused because of that. -/
theorem baselineTimeout_blocks :
    letI := Sha256.standard
    letI := GrantSingleUse.sharedBytes
    letI := SelfDetermined.deleteSql
    let served := servedAll slowStatistics ⟨fun s => (0, s), fun s => (0, s)⟩
      [keyRequest "n1", keyRequest "n2"] .new false
    (¬ ∀ r ∈ served, r.startedIn = .idle ∧ r.leftIn = .idle) ∧
      served.map (·.result) = [.error (.apply (.timeout 1000)),
        .error (.apply (.backend abortedXact.toString))] := by
  let _ := Sha256.standard
  let _ := GrantSingleUse.sharedBytes
  let _ := SelfDetermined.deleteSql
  intro served
  have hserved : served.map (fun r => (r.leftIn, r.result)) =
      [(.failed, .error (.apply (.timeout 1000))),
        (.failed, .error (.apply (.backend abortedXact.toString)))] := by
    decide +kernel
  constructor
  · intro hidle
    have hleft : ∀ x ∈ served.map (fun r => (r.leftIn, r.result)), x.1 = .idle := by
      intro x hx
      obtain ⟨r, hr, rfl⟩ := List.mem_map.mp hx
      exact (hidle r hr).2
    rw [hserved] at hleft
    cases hleft _ List.mem_cons_self
  · have hresults := congrArg (List.map Prod.snd) hserved
    rwa [List.map_map] at hresults

end PgBrakes.Ports.Resident
