import PgBrakes.Ports.ExplainGate
import PgBrakes.Ports.ProxyBudget
import PgBrakes.Ports.ReadGate
import PgBrakes.Ports.WireBackend
import PgBrakes.Ports.WireFrontend
import PgBrakes.Verified.History

/-!
# The session of an agent

The proxy reads one frame of the agent at a time.  It decodes it, asks the gate,
plans a statement on the backend before it lets the agent prepare it, and passes
the frame on as it came.  A refused frame puts the session into a mode in which
everything up to the next `Sync` is swallowed.  At a `Sync` the answers of the
backend are relayed under the meters.

Everything outside is an arbitrary `Outside`: what the backend answers to a frame,
whether a write to the agent or an append to the audit trail succeeds, and what
the clock reads.  Answers wait in the inbox until the session reads them; each is
marked with the frame it answers.  The session keeps a log of what it did, and a
step of the session is one turn of the loop.
-/

namespace PgBrakes.Ports.Proxy

open PgBrakes.Ports.ExplainGate
open PgBrakes.Ports.ReadAst (Parser)
open PgBrakes.Ports.ReadGate
open PgBrakes.Ports.Wire
open PgBrakes.Verified.Effect
open PgBrakes.Verified

/-! ## The gate -/

inductive RejectReason where
  | simpleQuery
  | copy
deriving DecidableEq

/-- The tags refused whatever the frame holds. -/
def classifyFrontendTag (tag : UInt8) : Except RejectReason Unit :=
  if tag = tagQuery then .error .simpleQuery
  else if tag = tagCopyData ∨ tag = tagCopyDone ∨ tag = tagCopyFail then .error .copy
  else .ok ()

/-- The verdict on a frame. -/
inductive GateDecision where
  | allow (sql : Option String)
  | reject (kind : RejectReason) (code message : String)
  | block (sql code message : String)
deriving DecidableEq

def simpleQueryMessage : String :=
  "simple query protocol is not permitted for agent connections; use the extended protocol " ++
    "(Parse/Bind/Execute) — this blocks statement-stacking such as `COMMIT; DROP SCHEMA …`"

def copyMessage : String :=
  "COPY is not permitted for agent connections (no per-statement gate; COPY … PROGRAM is an " ++
    "RCE vector)"

/-- The code and the message of a statement that is no read. -/
def notReadMessage : Option NotReadReason → String × String
  | some .multipleStatements =>
      ("stacked_statement",
        "multiple statements in one Parse are not permitted (statement-stacking); send exactly " ++
          "one read statement")
  | some .parseError =>
      ("parse_failed",
        "statement could not be parsed; the read-only gate fails closed and refuses anything it " ++
          "cannot prove is a single read")
  | some .empty => ("empty_statement", "empty statement is not a read")
  | _ =>
      ("write_on_readonly",
        "only read-only statements are permitted on the agent read path " ++
          "(writes/DDL/utility/COPY are blocked)")

section
variable [Parser]

def gateSql (sql : String) : GateDecision :=
  match classifyWithReason sql with
  | (.read, _) => .allow (some sql)
  | (.notRead, reason) => .block sql (notReadMessage reason).1 (notReadMessage reason).2

/-- The tag is judged first; of the frames that pass, only a `Parse` carries a
statement. -/
def gate (msg : FrontendMessage) : GateDecision :=
  match classifyFrontendTag msg.tag with
  | .error .simpleQuery => .reject .simpleQuery "simple_query_rejected" simpleQueryMessage
  | .error .copy => .reject .copy "copy_rejected" copyMessage
  | .ok () =>
      match msg with
      | .parse _ sql _ => gateSql sql
      | _ => .allow none

end

/-! ## The world -/

inductive Decision where
  | allow
  | block
  | reject
deriving DecidableEq

/-- An entry of the audit trail. -/
structure AuditEntry where
  statementText : String
  decision : Decision
  reasonCode : String
  reason : Option String
deriving DecidableEq

/-- The backend, the agent's socket, the audit trail and the clock.  `tick` is
whatever happens outside between two frames of the agent. -/
class Outside (σ : Type) where
  tick : σ → σ
  toBackend : σ → RawFrame → Option (σ × List RawFrame)
  toAgent : σ → RawFrame → Option σ
  append : σ → AuditEntry → Except String σ
  clock : σ → Nat × σ

/-- A frame from the backend and the number of the frame it answers. -/
structure Reply where
  frame : RawFrame
  answers : Nat
deriving DecidableEq

/-- The state a session works on: what is outside, the answers not read yet, the
number of frames sent to the backend, the frames of the agent that no `Sync` has
followed to the backend, and the meter of the window. -/
structure World (σ : Type) where
  outside : σ
  inbox : List Reply
  sent : Nat
  unsynced : List RawFrame
  window : WindowMeter

/-- What a session does. -/
inductive Event (F : Type) where
  | forwarded (serial : Nat) (frame : RawFrame)
  | own (serial : Nat) (msg : FrontendMessage)
  | drained (reply : Reply)
  | planLine (reply : Reply)
  | estimated (sql : String) (decision : EstimateDecision F)
  | relayed (reply : Reply)
  | toAgent (frame : RawFrame)
  | audited (entry : AuditEntry)

inductive SessionError where
  | protocol (e : ProtocolError)
  | audit (reason : String)
  | backend (reason : String)
  | panicked

/-- A program of the session. -/
abbrev Session (σ F α : Type) := Eff (Logged (World σ) (Event F)) SessionError α

/-- The role the session runs under. -/
structure Config (F : Type) where
  budget : RoleBudget
  ceiling : ExplainCeiling F

/-- A refusal that waits for the next `Sync`. -/
structure PendingError where
  code : String
  message : String
deriving DecidableEq

/-! ## Single calls -/

section
variable {σ F : Type} [Outside σ]

/-- Send a frame to the backend; its answers join the inbox. -/
def sendBackend (frame : RawFrame) (event : Nat → Event F) (unsynced : List RawFrame) :
    Session σ F Unit := fun s =>
  match Outside.toBackend s.world.outside frame with
  | none => (.error (.protocol .io), s)
  | some (outside, frames) =>
      (.ok (),
        ⟨{ s.world with
            outside := outside
            inbox := s.world.inbox ++ frames.map (⟨·, s.world.sent⟩)
            sent := s.world.sent + 1
            unsynced := unsynced },
          s.log ++ [event s.world.sent]⟩)

/-- Pass a frame of the agent on as it came. -/
def forwardFrame (frame : RawFrame) : Session σ F Unit := fun s =>
  sendBackend frame (.forwarded · frame)
    (if frame.tag = tagSync then [] else s.world.unsynced ++ [frame]) s

/-- Send a message of the proxy's own. -/
def sendOwn (msg : FrontendMessage) : Session σ F Unit := fun s =>
  sendBackend msg.encode (.own · msg)
    (if msg = .sync then [] else s.world.unsynced) s

/-- Take the first answer off the inbox. -/
def takeReply (rest : List Reply) (event : Event F) : Session σ F Unit := fun s =>
  (.ok (), ⟨{ s.world with inbox := rest }, s.log ++ [event]⟩)

def readInbox : Session σ F (List Reply) := fun s => (.ok s.world.inbox, s)

/-- A decision, noted in the log. -/
def note (event : Event F) : Session σ F Unit := fun s => (.ok (), ⟨s.world, s.log ++ [event]⟩)

/-- Write a frame to the agent. -/
def deliver (frame : RawFrame) : Session σ F Unit := fun s =>
  match Outside.toAgent s.world.outside frame with
  | none => (.error (.protocol .io), s)
  | some outside =>
      (.ok (), ⟨{ s.world with outside := outside }, s.log ++ [.toAgent frame]⟩)

/-- Append an entry to the audit trail; a failed append ends the session. -/
def record (entry : AuditEntry) : Session σ F Unit := fun s =>
  match Outside.append s.world.outside entry with
  | .error reason => (.error (.audit reason), s)
  | .ok outside =>
      (.ok (), ⟨{ s.world with outside := outside }, s.log ++ [.audited entry]⟩)

/-- Read the clock and charge a row to the window. -/
def chargeWindow (bytes rows : Nat) : Session σ F WindowOutcome := fun s =>
  let (now, outside) := Outside.clock s.world.outside
  let (outcome, window) := s.world.window.charge bytes rows now
  (.ok outcome, ⟨{ s.world with outside := outside, window := window }, s.log⟩)

def sendErrorThenReady (code message : String) : Session σ F Unit := do
  deliver (errorResponse code message)
  deliver (readyForQuery .idle)

/-! ## Planning a statement on the backend -/

/-- One statement as `Parse`, `Bind`, `Execute` and `Sync`, on the unnamed statement
and portal. -/
def sendExtendedUnit (sql : String) : Session σ F Unit := do
  sendOwn (.parse "" sql [])
  sendOwn (.bind "" "" [0, 0, 0, 0, 0, 0])
  sendOwn (.execute "" 0)
  sendOwn .sync

/-- Read answers up to `ReadyForQuery`.  The first column of the first row is the
plan line; an error makes the plan fail. -/
def drainExplain : List Reply → Option String → Option String →
    Session σ F (Except String (Option String))
  | [], _, _ => Eff.fail (.backend "backend closed during EXPLAIN")
  | reply :: rest, firstLine, explainError => do
      takeReply rest (.drained reply)
      if reply.frame.tag = tagDataRow ∧ firstLine = none ∧ explainError = none then
        match (readDataRow reply.frame.body).1 with
        | .ok (some bytes :: _) => do
            note (.planLine reply)
            drainExplain rest (some (fromUtf8Lossy bytes)) explainError
        | _ => drainExplain rest firstLine explainError
      else if reply.frame.tag = tagErrorResponse then
        match (readDiagnostics reply.frame.body).1 with
        | .ok fields => drainExplain rest firstLine (some (diag fields))
        | .error _ => drainExplain rest firstLine explainError
      else if reply.frame.tag = tagReadyForQuery then
        match explainError with
        | some reason => pure (.error reason)
        | none => pure (.ok firstLine)
      else drainExplain rest firstLine explainError

def runExplainOnBackend (sql : String) : Session σ F (Except String (Option String)) := do
  sendExtendedUnit (explainWrap sql)
  let inbox ← readInbox
  drainExplain inbox none none

variable [Runtime F]

/-- The message of an estimate over the ceiling. -/
def exceededMessage (ceiling : ExplainCeiling F) (dim : EstimateDim) (estimate : PlanEstimate F) :
    String :=
  "read blocked before execution by the EXPLAIN-cost gate: estimated " ++
    (match dim with
      | .cost => "plan cost"
      | .rows => "row count") ++
    " (cost=" ++ Runtime.display estimate.totalCost ++ ", rows=" ++ toString estimate.rows ++
    ") exceeds the role ceiling (cost=" ++ Runtime.display ceiling.maxCost ++ ", rows=" ++
    toString ceiling.maxRows ++ ") — advisory pre-flight gate"

/-- The verdict on the outcome of the plan, or a panic. -/
def estimateDecision (ceiling : ExplainCeiling F) :
    Except String (Option String) → Except SessionError (EstimateDecision F)
  | .error reason =>
      .ok (.failClosed ("EXPLAIN failed on the backend (fail-closed): " ++ reason))
  | .ok none => .ok (.failClosed "EXPLAIN returned no plan row (fail-closed)")
  | .ok (some line) =>
      match decidePlanLine ceiling line with
      | some decision => .ok decision
      | none => .error .panicked

variable [Parser]

/-- Plan a read before it is prepared.  A statement that is itself an `EXPLAIN` is
not planned; a plan over the ceiling, or none, refuses the read. -/
def explainPreflight (ceiling : ExplainCeiling F) (sql : String) :
    Session σ F (Option PendingError) :=
  if isExplain sql then pure none
  else do
    let outcome ← runExplainOnBackend sql
    let decision ← Eff.lift (estimateDecision ceiling outcome)
    note (.estimated sql decision)
    match decision with
    | .within _ => pure none
    | .exceeded dim estimate => do
        record ⟨sql, .block, dim.code, some (exceededMessage ceiling dim estimate)⟩
        pure (some ⟨"53400", exceededMessage ceiling dim estimate⟩)
    | .failClosed reason => do
        record ⟨sql, .block, explainFailClosedCode, some reason⟩
        pure (some ⟨"42501", reason⟩)

end

/-! ## Relaying the answers -/

def cutoffMessage (cap : Cap) (bytes rows : Nat) : String :=
  "result cut off at the " ++
    (match cap with
      | .bytes => "byte"
      | .rows => "row") ++
    " budget after " ++ toString rows ++ " rows / " ++ toString bytes ++
    " bytes (single-shot cap exceeded)"

def windowCutoffMessage (cap : WindowCap) (bytes rows : Nat) : String :=
  "result stream cut off at the cumulative per-window " ++
    (match cap with
      | .bytes => "byte"
      | .rows => "row") ++
    " budget after " ++ toString rows ++ " rows / " ++ toString bytes ++
    " bytes streamed in the window (slow-drip volume limit)"

/-- The frame carries a row, of a result or of a COPY. -/
def isPayload (frame : RawFrame) : Bool :=
  frame.tag = tagDataRow || frame.tag = tagBackendCopyData

section
variable {σ F : Type} [Outside σ]

/-- Pass a frame on unless the stream was cut off. -/
def deliverUnless (cutOff : Bool) (frame : RawFrame) : Session σ F Unit :=
  if cutOff then pure () else deliver frame

/-- Relay answers up to `ReadyForQuery`.  A row is charged to the budget of the
statement and then to the window.  Over the budget the stream is cut off, and in a
COPY the session ends; over the window the session ends. -/
def relayLoop : List Reply → Budget → Bool → Bool → Session σ F Unit
  | [], _, _, _ => Eff.fail (.backend "backend closed mid-result")
  | reply :: rest, budget, cutOff, inCopy => do
      takeReply rest (.relayed reply)
      if backendStartsCopy reply.frame then do
        deliverUnless cutOff reply.frame
        relayLoop rest budget cutOff true
      else if reply.frame.tag = tagReadyForQuery then
        deliver reply.frame
      else if reply.frame.tag = tagBackendCopyDone ∧ inCopy then do
        deliverUnless cutOff reply.frame
        relayLoop rest budget cutOff false
      else if isPayload reply.frame ∧ ¬ cutOff then
        match budget.chargeRow reply.frame.body.length with
        | (.exceeded cap bytes rows, budget) => do
            record ⟨"<result stream>", .block, cap.code, some (cutoffMessage cap bytes rows)⟩
            deliver (errorResponse "53400" (cutoffMessage cap bytes rows))
            if inCopy then
              Eff.fail (.backend ("backend COPY-out cut off at the budget: " ++
                cutoffMessage cap bytes rows))
            else relayLoop rest budget true inCopy
        | (.within _ _, budget) => do
            let outcome ← chargeWindow reply.frame.body.length 1
            match outcome with
            | .within _ _ => do
                deliver reply.frame
                relayLoop rest budget cutOff inCopy
            | .exceeded cap bytes rows => do
                record ⟨"<result stream>", .block, cap.code,
                  some (windowCutoffMessage cap bytes rows)⟩
                deliver (errorResponse "53400" (windowCutoffMessage cap bytes rows))
                Eff.fail (.backend ("cumulative per-window volume budget exceeded — session " ++
                  "killed (anti slow-drip): " ++ windowCutoffMessage cap bytes rows))
      else if (isPayload reply.frame ∨ reply.frame.tag = tagCommandComplete) ∧ cutOff then
        relayLoop rest budget cutOff inCopy
      else do
        deliver reply.frame
        relayLoop rest budget cutOff inCopy

def relayUntilReady (cfg : Config F) : Session σ F Unit := do
  let inbox ← readInbox
  relayLoop inbox (Budget.forRole cfg.budget) false false

/-! ## The loop -/

def protocolErrorText : ProtocolError → String
  | .io => "io error"
  | .invalidLength len => "invalid frame length: " ++ toString len
  | .malformed what => "malformed message body: " ++ what
  | .unterminatedCString => "unterminated cstring"
  | .invalidUtf8 => "invalid utf-8 in protocol string"
  | .unknownTag tag => "unknown message tag: " ++ toString tag

/-- The text a rejected frame is recorded under. -/
def rejectedText (frame : RawFrame) : FrontendMessage → String
  | .query sql => sql
  | _ => "<" ++ String.singleton (Char.ofNat frame.tag.toNat) ++ " frame>"

variable [Runtime F] [Parser]

/-- What stands before an allowed frame is passed on: a statement is planned, and
recorded where the plan passes. -/
def clearStatement (cfg : Config F) : Option String → Session σ F (Option PendingError)
  | none => pure none
  | some sql => do
      let refused ← explainPreflight cfg.ceiling sql
      match refused with
      | some err => pure (some err)
      | none => do
          record ⟨sql, .allow, "ok", none⟩
          pure none

/-- Pass an allowed frame on, and relay the answers where it is a `Sync`. -/
def passOn (cfg : Config F) (frame : RawFrame) (msg : FrontendMessage) : Session σ F Unit := do
  forwardFrame frame
  if msg = .sync then relayUntilReady cfg else pure ()

/-- A message outside of the skipping mode, with the refusal it leaves behind. -/
def handleMessage (cfg : Config F) (frame : RawFrame) (msg : FrontendMessage) :
    Session σ F (Option PendingError) :=
  match gate msg with
  | .allow sql => do
      let refused ← clearStatement cfg sql
      match refused with
      | some err => pure (some err)
      | none => do
          passOn cfg frame msg
          pure none
  | .block sql code message => do
      record ⟨sql, .block, code, some message⟩
      pure (some ⟨"42501", message⟩)
  | .reject kind code message => do
      record ⟨rejectedText frame msg, .reject, code, some message⟩
      match kind with
      | .simpleQuery => do
          sendErrorThenReady "0A000" message
          pure none
      | .copy => pure (some ⟨"0A000", message⟩)

/-- One turn of the loop.  It ends with the refusal that waits from then on, or with
nothing where the agent has taken its leave. -/
def handleFrame (cfg : Config F) (frame : RawFrame) (pending : Option PendingError) :
    Session σ F (Option (Option PendingError)) :=
  match FrontendMessage.decode frame with
  | .error e =>
      match pending with
      | none => do
          record ⟨"<undecodable frame>", .reject, "malformed_frame", some (protocolErrorText e)⟩
          pure (some (some ⟨"08P01", "malformed protocol frame"⟩))
      | some err => pure (some (some err))
  | .ok .terminate => pure none
  | .ok msg =>
      match pending with
      | some err =>
          if msg = .sync then do
            sendErrorThenReady err.code err.message
            pure (some none)
          else pure (some (some err))
      | none => do
          let refused ← handleMessage cfg frame msg
          pure (some refused)

/-- The loop between two frames. -/
structure Loop (σ : Type) where
  world : World σ
  pending : Option PendingError
  ended : Bool

/-- The record of one turn. -/
structure Turn (σ F : Type) where
  frame : RawFrame
  before : Loop σ
  events : List (Event F)
  after : Loop σ

/-- The world at the start of a turn. -/
def Loop.awake (s : Loop σ) : World σ := { s.world with outside := Outside.tick s.world.outside }

/-- Where a turn ends. -/
def Loop.next (s : Loop σ) (run : Except SessionError (Option (Option PendingError)) ×
    Logged (World σ) (Event F)) : Loop σ :=
  match run.1 with
  | .ok (some pending) => ⟨run.2.world, pending, false⟩
  | .ok none => ⟨run.2.world, s.pending, true⟩
  | .error _ => ⟨run.2.world, s.pending, true⟩

/-- One turn; after the end of the session nothing happens any more. -/
def turn (cfg : Config F) (frame : RawFrame) (s : Loop σ) : Turn σ F × Loop σ :=
  if s.ended then (⟨frame, s, [], s⟩, s)
  else
    let run := handleFrame cfg frame s.pending ⟨s.awake, []⟩
    (⟨frame, s, run.2.log, s.next run⟩, s.next run)

/-- Whether a turn ends the loop, and with what. -/
def turnEnd (cfg : Config F) (frame : RawFrame) (s : Loop σ) : Option (Except SessionError Unit) :=
  match (handleFrame cfg frame s.pending ⟨s.awake, []⟩ :
      Except SessionError (Option (Option PendingError)) × Logged (World σ) (Event F)).1 with
  | .ok (some _) => none
  | .ok none => some (.ok ())
  | .error e => some (.error e)

/-- The loop of the source: a turn for each frame up to the one that ends it.  Behind the
last frame, `atEnd` is what reading on says. -/
def runQueryLoop (cfg : Config F) (atEnd : Except SessionError Unit) :
    List RawFrame → Loop σ → Except SessionError Unit × List (Turn σ F) × Loop σ
  | [], s => (atEnd, [], s)
  | frame :: rest, s =>
      match turnEnd cfg frame s with
      | some result => (result, [(turn cfg frame s).1], (turn cfg frame s).2)
      | none =>
          let later := runQueryLoop cfg atEnd rest (turn cfg frame s).2
          (later.1, (turn cfg frame s).1 :: later.2.1, later.2.2)

/-- A session over the frames of the agent, the turns it takes and where it ends; the
frames behind its end get a turn in which nothing happens. -/
def queryLoop (cfg : Config F) (frames : List RawFrame) (s : Loop σ) : List (Turn σ F) × Loop σ :=
  History.run (turn cfg) frames s

/-- The start of a session over an outside and the answers that wait already. -/
def Loop.start (cfg : Config F) (outside : σ) (inbox : List Reply) : Loop σ :=
  ⟨⟨outside, inbox, 0, [], WindowMeter.forWindow cfg.budget.perWindow⟩, none, false⟩

end

/-! ## The three modes of a turn -/

section
variable {σ F : Type} [Outside σ] [Runtime F] [Parser] {frame : RawFrame} {msg : FrontendMessage}

theorem handleFrame_malformed (cfg : Config F) {e : ProtocolError}
    (hdecode : FrontendMessage.decode frame = .error e) :
    (handleFrame cfg frame none : Session σ F _) =
      (record ⟨"<undecodable frame>", .reject, "malformed_frame", some (protocolErrorText e)⟩ >>=
        fun _ => pure (some (some ⟨"08P01", "malformed protocol frame"⟩))) := by
  unfold handleFrame
  rw [hdecode]

/-- While a refusal waits, every frame but a `Sync` is swallowed. -/
theorem handleFrame_skips (cfg : Config F) (err : PendingError)
    (hdecode : FrontendMessage.decode frame = .ok msg) (hleave : msg ≠ .terminate) :
    (handleFrame cfg frame (some err) : Session σ F _) =
      if msg = .sync then (sendErrorThenReady err.code err.message >>= fun _ => pure (some none))
      else pure (some (some err)) := by
  unfold handleFrame
  rw [hdecode]
  cases msg with
  | terminate => exact absurd rfl hleave
  | _ => rfl

/-- Where no refusal waits, the message is judged. -/
theorem handleFrame_judges (cfg : Config F)
    (hdecode : FrontendMessage.decode frame = .ok msg) (hleave : msg ≠ .terminate) :
    (handleFrame cfg frame none : Session σ F _) =
      (handleMessage cfg frame msg >>= fun refused => pure (some refused)) := by
  unfold handleFrame
  rw [hdecode]
  cases msg with
  | terminate => exact absurd rfl hleave
  | _ => rfl

/-! ## The record of a turn -/

@[simp] theorem turn_frame (cfg : Config F) (frame : RawFrame) (s : Loop σ) :
    (turn cfg frame s).1.frame = frame := by
  unfold turn
  split
  · rfl
  · rfl

@[simp] theorem turn_before (cfg : Config F) (frame : RawFrame) (s : Loop σ) :
    (turn cfg frame s).1.before = s := by
  unfold turn
  split
  · rfl
  · rfl

@[simp] theorem turn_after (cfg : Config F) (frame : RawFrame) (s : Loop σ) :
    (turn cfg frame s).1.after = (turn cfg frame s).2 := by
  unfold turn
  split
  · rfl
  · rfl

/-- After the end nothing happens. -/
theorem turn_ended (cfg : Config F) (frame : RawFrame) {s : Loop σ} (hended : s.ended = true) :
    turn cfg frame s = (⟨frame, s, [], s⟩, s) := by
  rw [turn, if_pos hended]

theorem turn_running (cfg : Config F) (frame : RawFrame) {s : Loop σ} (hrun : s.ended = false) :
    turn cfg frame s =
      (⟨frame, s, (handleFrame cfg frame s.pending ⟨s.awake, []⟩).2.log,
        s.next (handleFrame cfg frame s.pending ⟨s.awake, []⟩)⟩,
        s.next (handleFrame cfg frame s.pending ⟨s.awake, []⟩)) := by
  rw [turn, if_neg (by rw [hrun]; exact Bool.false_ne_true)]

/-- A turn after which the session still runs has handled its frame to the end. -/
theorem turn_finished (cfg : Config F) (frame : RawFrame) {s : Loop σ} (hrun : s.ended = false)
    (hrunning : (turn cfg frame s).2.ended = false) :
    ∃ refused s', handleFrame cfg frame s.pending ⟨s.awake, []⟩ = (.ok (some refused), s') ∧
      (turn cfg frame s).1.events = s'.log ∧
      (turn cfg frame s).2 = ⟨s'.world, refused, false⟩ := by
  rw [turn_running cfg frame hrun] at hrunning ⊢
  rcases hframe : handleFrame cfg frame s.pending ⟨s.awake, []⟩ with ⟨next, s'⟩
  rw [hframe] at hrunning
  cases next with
  | error e => cases hrunning
  | ok next =>
      cases next with
      | none => cases hrunning
      | some refused => exact ⟨refused, s', rfl, rfl, rfl⟩

/-! ## The end of the loop -/

/-- A turn ends the loop exactly where it has an outcome for it. -/
theorem ended_iff_turnEnd (cfg : Config F) (frame : RawFrame) {s : Loop σ}
    (hrun : s.ended = false) :
    (turn cfg frame s).2.ended = (turnEnd (F := F) cfg frame s).isSome := by
  rw [turn_running cfg frame hrun]
  unfold turnEnd Loop.next
  rcases (handleFrame cfg frame s.pending ⟨s.awake, []⟩).1 with e | _ | pending
  · rfl
  · rfl
  · rfl

/-- The loop of the source is the session over the frames it has read. -/
theorem runQueryLoop_eq (cfg : Config F) (atEnd : Except SessionError Unit)
    (frames : List RawFrame) (s : Loop σ) :
    ∃ served rest, frames = served ++ rest ∧
      (runQueryLoop cfg atEnd frames s).2 = queryLoop cfg served s := by
  induction frames generalizing s with
  | nil => exact ⟨[], [], rfl, rfl⟩
  | cons frame frames ih =>
      cases hend : turnEnd cfg frame s with
      | some result =>
          refine ⟨[frame], frames, rfl, ?_⟩
          simp only [runQueryLoop, hend]
          rfl
      | none =>
          obtain ⟨served, rest, rfl, hserved⟩ := ih (turn cfg frame s).2
          refine ⟨frame :: served, rest, rfl, ?_⟩
          simp only [runQueryLoop, hend, hserved]
          rfl

/-- Only the last turn may end the loop; where none does, every frame had its turn and the
loop ends with what reading on says. -/
theorem runQueryLoop_ends (cfg : Config F) (atEnd : Except SessionError Unit)
    (frames : List RawFrame) {s : Loop σ} (hrun : s.ended = false) :
    (∀ before t after, (runQueryLoop cfg atEnd frames s).2.1 = before ++ t :: after →
        t.after.ended = true → after = []) ∧
      ((∀ t ∈ (runQueryLoop cfg atEnd frames s).2.1, t.after.ended = false) →
        (runQueryLoop cfg atEnd frames s).2.1.map Turn.frame = frames ∧
          (runQueryLoop cfg atEnd frames s).1 = atEnd) := by
  induction frames generalizing s with
  | nil => exact ⟨fun before t after h => by simp [runQueryLoop] at h, fun _ => ⟨rfl, rfl⟩⟩
  | cons frame frames ih =>
      have hended := ended_iff_turnEnd cfg frame hrun
      rw [← turn_after cfg frame s] at hended
      cases hend : turnEnd cfg frame s with
      | some result =>
          rw [hend] at hended
          simp only [runQueryLoop, hend]
          refine ⟨fun before t after h _ => ?_, fun h => ?_⟩
          · have hlength := congrArg List.length h
            simp only [List.length_cons, List.length_nil, List.length_append] at hlength
            exact List.eq_nil_of_length_eq_zero (by omega)
          · rw [h _ List.mem_cons_self] at hended
            cases hended
      | none =>
          rw [hend] at hended
          have hnext : (turn cfg frame s).2.ended = false := by
            rw [← turn_after cfg frame s]
            exact hended
          obtain ⟨hlast, hwhole⟩ := ih hnext
          simp only [runQueryLoop, hend]
          refine ⟨fun before t after h hafter => ?_, fun h => ?_⟩
          · cases before with
            | nil =>
                obtain ⟨rfl, -⟩ := List.cons.inj h
                rw [hended] at hafter
                cases hafter
            | cons first before => exact hlast before t after (List.cons.inj h).2 hafter
          · obtain ⟨hframes, hresult⟩ := hwhole fun t ht => h t (List.mem_cons_of_mem _ ht)
            exact ⟨by rw [List.map_cons, turn_frame, hframes], hresult⟩

end

/-! ## Invariants of the two readers

What every call of a reader keeps, the reader keeps. -/

section
variable {σ F : Type} {J : Logged (World σ) (Event F) → Prop}

/-- The calls of the reader at the end of a preflight keep `J`, on answers that satisfy
`R`. -/
structure DrainKeeps (R : Reply → Prop) (J : Logged (World σ) (Event F) → Prop) : Prop where
  drained : ∀ rest reply, R reply →
    Eff.Keeps J (takeReply rest (.drained reply) : Session σ F Unit)
  planLine : ∀ reply, R reply → Eff.Keeps J (note (.planLine reply) : Session σ F Unit)

theorem drainExplain_keeps {R : Reply → Prop} (h : DrainKeeps R J) {replies : List Reply}
    (hreplies : ∀ r ∈ replies, R r) (firstLine explainError : Option String) :
    Eff.Keeps J (drainExplain replies firstLine explainError :
      Session σ F (Except String (Option String))) := by
  induction replies generalizing firstLine explainError with
  | nil => exact .fail _
  | cons reply rest ih =>
      obtain ⟨hreply, hrest⟩ := List.forall_mem_cons.mp hreplies
      refine .bind (h.drained rest reply hreply) fun _ => .ite ?_ (.ite ?_ (.ite ?_ (ih hrest _ _)))
      · split
        · exact .bind (h.planLine reply hreply) fun _ => ih hrest _ _
        · exact ih hrest _ _
      · split
        · exact ih hrest _ _
        · exact ih hrest _ _
      · split
        · exact .pure _
        · exact .pure _

variable [Outside σ]

theorem runExplainOnBackend_keeps (h : DrainKeeps (fun _ => True) J)
    (hown : ∀ msg, Eff.Keeps J (sendOwn msg : Session σ F Unit)) (sql : String) :
    Eff.Keeps J (runExplainOnBackend sql : Session σ F (Except String (Option String))) :=
  .bind (.bind (hown _) fun _ => .bind (hown _) fun _ => .bind (hown _) fun _ => hown _) fun _ =>
    .bind (fun _ hs => hs) fun _ => drainExplain_keeps h (fun _ _ => trivial) none none

/-- The calls of the reader at a `Sync` keep `J`. -/
structure RelayKeeps (J : Logged (World σ) (Event F) → Prop) : Prop where
  relayed : ∀ rest reply, Eff.Keeps J (takeReply rest (.relayed reply) : Session σ F Unit)
  deliver : ∀ frame, Eff.Keeps J (deliver frame : Session σ F Unit)
  record : ∀ entry, Eff.Keeps J (record entry : Session σ F Unit)
  charge : ∀ bytes rows, Eff.Keeps J (chargeWindow bytes rows : Session σ F WindowOutcome)

theorem relayLoop_keeps (h : RelayKeeps J) (replies : List Reply) (b : Budget)
    (cutOff inCopy : Bool) :
    Eff.Keeps J (relayLoop replies b cutOff inCopy : Session σ F Unit) := by
  have hunless (cutOff : Bool) (frame : RawFrame) :
      Eff.Keeps J (deliverUnless cutOff frame : Session σ F Unit) :=
    .ite (.pure _) (h.deliver frame)
  induction replies generalizing b cutOff inCopy with
  | nil => exact .fail _
  | cons reply rest ih =>
      refine .bind (h.relayed rest reply) fun _ => .ite ?_ (.ite (h.deliver _) (.ite ?_ (.ite ?_
        (.ite (ih _ _ _) ?_))))
      · exact .bind (hunless _ _) fun _ => ih _ _ _
      · exact .bind (hunless _ _) fun _ => ih _ _ _
      · split
        · exact .bind (h.record _) fun _ => .bind (h.deliver _) fun _ => .ite (.fail _) (ih _ _ _)
        · refine .bind (h.charge _ _) fun outcome => ?_
          cases outcome with
          | within bytes rows => exact .bind (h.deliver _) fun _ => ih _ _ _
          | exceeded cap bytes rows =>
              exact .bind (h.record _) fun _ => .bind (h.deliver _) fun _ => .fail _
      · exact .bind (h.deliver _) fun _ => ih _ _ _

theorem relayUntilReady_keeps (h : RelayKeeps J) (cfg : Config F) :
    Eff.Keeps J (relayUntilReady cfg : Session σ F Unit) :=
  .bind (fun _ hs => hs) fun inbox => relayLoop_keeps h inbox _ _ _

/-- Every call of a session keeps `J`. -/
structure SessionKeeps (J : Logged (World σ) (Event F) → Prop) : Prop extends
    DrainKeeps (fun _ => True) J, RelayKeeps J where
  own : ∀ msg, Eff.Keeps J (sendOwn msg : Session σ F Unit)
  forward : ∀ frame, Eff.Keeps J (forwardFrame frame : Session σ F Unit)
  estimated : ∀ sql decision, Eff.Keeps J (note (.estimated sql decision) : Session σ F Unit)

variable [Runtime F] [Parser]

theorem handleMessage_keeps (h : SessionKeeps J) (cfg : Config F) (frame : RawFrame)
    (msg : FrontendMessage) :
    Eff.Keeps J (handleMessage cfg frame msg : Session σ F (Option PendingError)) := by
  have hpreflight (sql : String) :
      Eff.Keeps J (explainPreflight cfg.ceiling sql : Session σ F (Option PendingError)) := by
    refine .ite (.pure _) (.bind (runExplainOnBackend_keeps h.toDrainKeeps h.own sql) fun _ =>
      .bind (.lift _) fun decision => .bind (h.estimated sql decision) fun _ => ?_)
    cases decision with
    | within estimate => exact .pure _
    | exceeded dim estimate => exact .bind (h.record _) fun _ => .pure _
    | failClosed reason => exact .bind (h.record _) fun _ => .pure _
  have hclear (statement : Option String) :
      Eff.Keeps J (clearStatement cfg statement : Session σ F (Option PendingError)) := by
    cases statement with
    | none => exact .pure _
    | some sql =>
        refine .bind (hpreflight sql) fun refused => ?_
        cases refused with
        | some err => exact .pure _
        | none => exact .bind (h.record _) fun _ => .pure _
  unfold handleMessage
  split
  · refine .bind (hclear _) fun refused => ?_
    cases refused with
    | some err => exact .pure _
    | none =>
        exact .bind (.bind (h.forward frame) fun _ =>
          .ite (relayUntilReady_keeps h.toRelayKeeps cfg) (.pure _)) fun _ => .pure _
  · exact .bind (h.record _) fun _ => .pure _
  · refine .bind (h.record _) fun _ => ?_
    split
    · exact .bind (.bind (h.deliver _) fun _ => h.deliver _) fun _ => .pure _
    · exact .pure _

theorem handleFrame_keeps (h : SessionKeeps J) (cfg : Config F) (frame : RawFrame)
    (pending : Option PendingError) :
    Eff.Keeps J (handleFrame cfg frame pending : Session σ F (Option (Option PendingError))) := by
  unfold handleFrame
  split
  · split
    · exact .bind (h.record _) fun _ => .pure _
    · exact .pure _
  · exact .pure _
  · split
    · exact .ite (.bind (.bind (h.deliver _) fun _ => h.deliver _) fun _ => .pure _) (.pure _)
    · exact .bind (handleMessage_keeps h cfg frame _) fun _ => .pure _

end

/-! ## The calls of a session

Each call adds one event, or fails and adds none.  Only a charge touches the
window. -/

section
variable {σ F : Type} {J : WindowMeter → Prop}

/-- A property of the meter of the window. -/
def OnWindow (J : WindowMeter → Prop) (w : World σ) : Prop := J w.window

theorem takeReply_emits (rest : List Reply) (e : Event F) :
    Emits (OnWindow J) (· = e) (takeReply rest e : Session σ F Unit) :=
  fun _ hs => .inr ⟨(), e, _, rfl, rfl, hs⟩

theorem note_emits (e : Event F) : Emits (OnWindow J) (· = e) (note e : Session σ F Unit) :=
  fun _ hs => .inr ⟨(), e, _, rfl, rfl, hs⟩

variable [Outside σ]

theorem sendBackend_emits (frame : RawFrame) (event : Nat → Event F) (unsynced : List RawFrame) :
    Emits (OnWindow J) (fun e => ∃ n, e = event n)
      (sendBackend frame event unsynced : Session σ F Unit) := by
  intro s hs
  unfold sendBackend
  cases Outside.toBackend s.world.outside frame with
  | none => exact .inl ⟨_, rfl⟩
  | some answer => exact .inr ⟨(), _, _, rfl, ⟨_, rfl⟩, hs⟩

theorem forwardFrame_emits (frame : RawFrame) :
    Emits (OnWindow J) (fun e => ∃ n, e = .forwarded n frame)
      (forwardFrame frame : Session σ F Unit) :=
  fun s hs => sendBackend_emits frame _ _ s hs

theorem sendOwn_emits (msg : FrontendMessage) :
    Emits (OnWindow J) (fun e => ∃ n, e = .own n msg) (sendOwn msg : Session σ F Unit) :=
  fun s hs => sendBackend_emits msg.encode _ _ s hs

theorem deliver_emits (frame : RawFrame) :
    Emits (OnWindow J) (· = .toAgent frame) (deliver frame : Session σ F Unit) := by
  intro s hs
  unfold deliver
  cases Outside.toAgent s.world.outside frame with
  | none => exact .inl ⟨_, rfl⟩
  | some outside => exact .inr ⟨(), _, _, rfl, rfl, hs⟩

theorem record_emits (entry : AuditEntry) :
    Emits (OnWindow J) (· = .audited entry) (record entry : Session σ F Unit) := by
  intro s hs
  unfold record
  cases Outside.append s.world.outside entry with
  | error reason => exact .inl ⟨_, rfl⟩
  | ok outside => exact .inr ⟨(), _, _, rfl, rfl, hs⟩

end

end PgBrakes.Ports.Proxy
