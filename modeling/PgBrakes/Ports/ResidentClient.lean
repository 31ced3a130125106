import PgBrakes.Ports.GrantedApply
import PgBrakes.Ports.PgConn
import PgBrakes.Ports.WireCodec

/-!
# The resident client and its session

The daemon serves every apply over one client, `apply_client` in
`crates/applyd/src/main.rs`, and makes a fresh `PgApplyConn` for each request
(`crates/clone-orchestrator/src/conn.rs`).  Here the client is the server's session as a
statement sees it: idle, inside a transaction, or inside an aborted one.  Any statement
may fail, with any error; what a statement does to the data and what it replies is the
server's own affair.

A statement that fails inside a transaction aborts it, and in an aborted transaction
every statement is refused but `COMMIT` and `ROLLBACK`, which end it.  Whether these end
it also when they fail is left open.  Every statement is recorded with its outcome.
-/

namespace PgBrakes.Ports.Resident

open PgBrakes.Verified.Effect
open PgBrakes.Ports.KeyChecksum
open PgBrakes.Ports.BlastRecord
open PgBrakes.Ports.GuardedApply
open PgBrakes.Ports.GrantedApply
open PgBrakes.Ports.Grant
open PgBrakes.Ports.SqlAst
open PgBrakes.Ports.PgTable
open PgBrakes.Ports.PgConn
open PgBrakes.Ports.PgRehearsal
open PgBrakes.Ports.Wire (TransactionStatus)

/-! ## Statements -/

/-- The statements of `PgApplyConn`.  The counters and the WAL position are read twice:
by `begin`, and for the deltas. -/
inductive Statement where
  | primaryKey (relation : String)
  | createRestorePoint (label : String)
  | beginXact
  | setLocalTimeout (timeoutMs : Nat)
  | baselineCounts
  | baselineLsn
  | allColumns (relation : String)
  | selectForUpdate (columns : List String) (relation whereSql : String)
  | forward (sql : String)
  | xactCounts
  | currentLsn
  | lsnDiff (after before : String)
  | commit
  | rollback
deriving DecidableEq

namespace Statement

/-- It ends a transaction. -/
def ends : Statement → Bool
  | .commit | .rollback => true
  | _ => false

/-- `begin` sends it behind the `BEGIN`. -/
def behindBegin : Statement → Bool
  | .setLocalTimeout _ | .baselineCounts | .baselineLsn => true
  | _ => false

end Statement

/-- A failed statement: its error, and whether a `COMMIT` or `ROLLBACK` that failed has
ended the transaction all the same. -/
structure Failure where
  error : ServerError
  ended : Bool
deriving DecidableEq

/-- What the server makes of the statements: which fail, and what the others reply. -/
structure Server (σ : Type) where
  attempt : Statement → σ → Option Failure × σ
  primaryKey : String → σ → List String
  restorePoint : String → σ → String
  counts : σ → List (String × OpCounts)
  lsn : σ → String
  lsnDiff : String → String → σ → Int
  columns : String → σ → List String
  rows : List String → String → String → σ → List (List Cell)
  returned : String → σ → List (Option Int)

/-- A statement with its outcome. -/
abbrev Sent := Statement × Option Failure

/-- The client: the status of its session, and what was sent. -/
structure Client (σ : Type) where
  status : TransactionStatus
  server : σ
  sent : List Sent

variable {σ α : Type}

/-- SQLSTATE 25P02. -/
def abortedXact : ServerError :=
  .other "current transaction is aborted, commands ignored until end of transaction block"

/-- The outcome of a statement.  In an aborted transaction the server does not look at
it, unless it ends the transaction. -/
def outcome (server : Server σ) (stmt : Statement) (c : Client σ) : Option Failure × σ :=
  if c.status = .failed ∧ stmt.ends = false then (some ⟨abortedXact, false⟩, c.server)
  else server.attempt stmt c.server

/-- The session after a statement. -/
def nextStatus (status : TransactionStatus) (stmt : Statement) :
    Option Failure → TransactionStatus
  | none =>
      if stmt.ends then .idle
      else if stmt = .beginXact ∧ status = .idle then .inTransaction
      else status
  | some failure =>
      if status = .idle then .idle
      else if stmt.ends ∧ failure.ended then .idle
      else .failed

/-- The client after a statement. -/
def afterSent (server : Server σ) (stmt : Statement) (c : Client σ) : Client σ :=
  { status := nextStatus c.status stmt (outcome server stmt c).1
    server := (outcome server stmt c).2
    sent := c.sent ++ [(stmt, (outcome server stmt c).1)] }

/-- Send a statement. -/
def exec (server : Server σ) (stmt : Statement) : Eff (Client σ) ServerError Unit := fun c =>
  match (outcome server stmt c).1 with
  | none => (.ok (), afterSent server stmt c)
  | some failure => (.error failure.error, afterSent server stmt c)

/-- Send a statement and read its reply. -/
def select (server : Server σ) (stmt : Statement) (reply : σ → α) :
    Eff (Client σ) ServerError α := do
  exec server stmt
  fun c => (.ok (reply c.server), c)

/-! ## The adapter -/

/-- `PgApplyConn`, without the two texts it is made for. -/
structure ClientAdapter (σ : Type) where
  client : Client σ
  xactBaseline : Std.TreeMap String OpCounts
  walBaselineLsn : Option String
  inTxn : Bool
  statementTimeoutMs : Nat

def ClientAdapter.new (client : Client σ) : ClientAdapter σ := ⟨client, ∅, none, false, 0⟩

/-- Use the client of the adapter. -/
def onClient (g : ServerError → ApplyError) (m : Eff (Client σ) ServerError α) :
    Eff (ClientAdapter σ) ApplyError α := fun a =>
  ((m a.client).1.mapError g, { a with client := (m a.client).2 })

/-- Use it with errors classified by the timeout of the transaction. -/
def classified (m : Eff (Client σ) ServerError α) : Eff (ClientAdapter σ) ApplyError α := fun a =>
  onClient (classifyApply a.statementTimeoutMs) m a

/-- Set fields of the adapter. -/
def store (f : ClientAdapter σ → ClientAdapter σ) : Eff (ClientAdapter σ) ApplyError Unit :=
  fun a => (.ok (), f a)

/-- `read_xact_raw`, sent as `stmt`. -/
def readXactRaw (server : Server σ) (stmt : Statement) :
    Eff (ClientAdapter σ) ApplyError (Std.TreeMap String OpCounts) := do
  let rows ← classified (select server stmt server.counts)
  pure (Std.TreeMap.ofList rows)

/-- `begin`: the batch of `BEGIN` and `SET LOCAL`, then the two baselines. -/
def begin (server : Server σ) (timeoutMs : Nat) : Eff (ClientAdapter σ) ApplyError Unit := do
  onClient (classifyApply timeoutMs) (exec server .beginXact)
  onClient (classifyApply timeoutMs) (exec server (.setLocalTimeout timeoutMs))
  store fun a => { a with inTxn := true, statementTimeoutMs := timeoutMs }
  let baseline ← readXactRaw server .baselineCounts
  store fun a => { a with xactBaseline := baseline }
  let lsn ← onClient (classifyApply timeoutMs) (select server .baselineLsn server.lsn)
  store fun a => { a with walBaselineLsn := some lsn }

/-- `xact_wal_bytes`. -/
def walBytes (server : Server σ) : Eff (ClientAdapter σ) ApplyError Nat := fun a =>
  match a.walBaselineLsn with
  | none => (.error (.backend "WAL baseline not captured (begin not called)"), a)
  | some before =>
      (do
        let after ← classified (select server .currentLsn server.lsn)
        let bytes ← onClient backendError
          (select server (.lsnDiff after before) (server.lsnDiff after before))
        pure bytes.toNat : Eff (ClientAdapter σ) ApplyError Nat) a

/-- `self_determined_pk_column`: the key column where there is one; a failure is none. -/
def pkColumn (server : Server σ) (relation : String) (a : ClientAdapter σ) :
    Option String × ClientAdapter σ :=
  match select server (.primaryKey relation) (server.primaryKey relation) a.client with
  | (.ok [single], client) => (some single, { a with client := client })
  | (_, client) => (none, { a with client := client })

/-- The columns whose pre-image is captured. -/
def imageCols [Sql] (server : Server σ) (forwardSql : String) (kind : WriteKind)
    (relation : String) : Eff (ClientAdapter σ) ApplyError (List String) :=
  match kind with
  | .update => Eff.lift ((updateSetColumns forwardSql).mapError fun e =>
      .backend ("cannot determine the UPDATE SET-clause columns to capture a reversible " ++
        "pre-image (fail-closed; S5 #75): " ++ e))
  | .delete => onClient backendError
      (select server (.allColumns relation) (server.columns relation))

/-- `apply_forward`. -/
def forward [Sql] (server : Server σ) (forwardSql whereSql : String) (kind : WriteKind)
    (relation : String) : Eff (ClientAdapter σ) ApplyError ForwardResult := do
  let imageCols ← imageCols server forwardSql kind relation
  let columns := selectColumns imageCols
  let rows ← classified (select server (.selectForUpdate columns relation whereSql)
    (server.rows columns relation whereSql))
  let preimage ← Eff.lift (collectPreimages relation columns ∅ rows)
  let sql := sentText forwardSql
  let returned ← classified (select server (.forward sql) (server.returned sql))
  let written ← Eff.lift (captureWritten relation preimage returned)
  pure (declareColumns kind written imageCols)

/-- `xact_tuple_deltas`. -/
def tupleDeltas (server : Server σ) : Eff (ClientAdapter σ) ApplyError (List RelationChange) :=
  fun a =>
    (do
      let after ← readXactRaw server .xactCounts
      pure (after.toList.filterMap fun entry =>
        let before := a.xactBaseline.getD entry.1 {}
        let change : RelationChange :=
          { relation := entry.1
            ins := entry.2.ins - before.ins
            upd := entry.2.upd - before.upd
            del := entry.2.del - before.del }
        if change.ins + change.upd + change.del = 0 then none else some change) :
      Eff (ClientAdapter σ) ApplyError (List RelationChange)) a

def commit (server : Server σ) : Eff (ClientAdapter σ) ApplyError Unit := do
  onClient backendError (exec server .commit)
  store fun a => { a with inTxn := false }

/-- `rollback`: sent only where `begin` went past its batch, and its error is dropped. -/
def rollback (server : Server σ) : Eff (ClientAdapter σ) ApplyError Unit := fun a =>
  if a.inTxn then
    (.ok (), { a with client := (exec server .rollback a.client).2, inTxn := false })
  else (.ok (), a)

/-- `PgApplyConn::new(client, forward_sql, where_sql)` as the engine's seam. -/
def clientConn [Sql] (server : Server σ) (forwardSql whereSql : String) :
    ApplyConn (ClientAdapter σ) where
  createRestorePoint label := onClient backendError
    (select server (.createRestorePoint label) (server.restorePoint label))
  begin := begin server
  xactWalBytes := walBytes server
  selfDeterminedPkColumn := pkColumn server
  applyForward kind relation _ := forward server forwardSql whereSql kind relation
  xactTupleDeltas := tupleDeltas server
  commit := commit server
  rollback := rollback server

/-! ## Requests -/

/-- A clock beside the server. -/
def besideClient (clock : Clock σ) : Clock (ClientAdapter σ) where
  nowUnixMillis a := ((clock.nowUnixMillis a.client.server).1,
    { a with client := { a.client with server := (clock.nowUnixMillis a.client.server).2 } })
  monotonicMillis a := ((clock.monotonicMillis a.client.server).1,
    { a with client := { a.client with server := (clock.monotonicMillis a.client.server).2 } })

/-- A request to apply, with the stored statement it is about. -/
structure ApplyRequest where
  forwardSql : String
  whereSql : String
  policy : PolicyConfig
  grant : GrantToken
  live : LiveRequest
  verifyingKey : VerifyingKey
  kind : WriteKind
  relation : String
  blastRadius : BlastRadius

/-- The apply of a request, over a fresh `PgApplyConn` of the resident client and with
the barrier of production. -/
def ApplyRequest.call [Sql] (server : Server σ) (clock : Clock σ) (r : ApplyRequest) :
    GrantCall (ClientAdapter σ) :=
  { policy := r.policy
    grant := r.grant
    live := r.live
    verifyingKey := r.verifyingKey
    kind := r.kind
    relation := r.relation
    blastRadius := r.blastRadius
    conn := clientConn server r.forwardSql r.whereSql
    barrier := .noop
    clock := besideClient clock }

/-- What a request found and left of the session, and what it sent. -/
structure Served where
  startedIn : TransactionStatus
  leftIn : TransactionStatus
  sent : List Sent
  result : Except GrantedApplyError (AppliedWrite × BridgedApplyConfig)

/-- The call of a request, from the nonces and the client of the daemon. -/
def ApplyRequest.run [Sha256] [Ed25519] [Sql] (server : Server σ) (clock : Clock σ)
    (r : ApplyRequest) (s : NonceStore × Client σ) :=
  (r.call server clock).run ⟨s.1, ⟨.new { s.2 with sent := [] }, []⟩⟩

/-- Serve a request. -/
def serve [Sha256] [Ed25519] [Sql] (server : Server σ) (clock : Clock σ) (r : ApplyRequest)
    (s : NonceStore × Client σ) : Served × (NonceStore × Client σ) :=
  let run := r.run server clock s
  ({ startedIn := s.2.status
     leftIn := run.2.calls.world.client.status
     sent := run.2.calls.world.client.sent
     result := run.1 },
    (run.2.nonces, run.2.calls.world.client))

end PgBrakes.Ports.Resident
