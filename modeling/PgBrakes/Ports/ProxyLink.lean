import PgBrakes.Ports.ProxyGating

/-!
# What waits on the link to the backend

A backend that follows the protocol answers a `Sync` with one `ReadyForQuery`, the
last of its answers to it, and no other frame with one.  The session reads the answers
in two places, at the end of a preflight and at a `Sync` of the agent, and both times
up to a `ReadyForQuery`.  So between two turns no `ReadyForQuery` waits on the link, and
nothing at all waits when every frame has been followed by a `Sync`.

## Main results

* `turn_link` — what one turn of a running session does to the link.
-/

namespace PgBrakes.Ports.Proxy

open PgBrakes.Ports.ExplainGate
open PgBrakes.Ports.ReadAst (Parser)
open PgBrakes.Ports.ReadGate
open PgBrakes.Ports.Wire
open PgBrakes.Verified.Effect
open PgBrakes.Verified.Effect.Eff (Triple)
open PgBrakes.Verified

variable {σ F : Type}

/-! ## Answers that follow the protocol -/

/-- None of the frames is a `ReadyForQuery`. -/
def NoReady (frames : List RawFrame) : Prop := ∀ f ∈ frames, f.tag ≠ tagReadyForQuery

/-- The last of the frames is a `ReadyForQuery`, and no other. -/
def EndsReady (frames : List RawFrame) : Prop :=
  ∃ init last, frames = init ++ [last] ∧ NoReady init ∧ last.tag = tagReadyForQuery

/-- The backend answers a `Sync` with one `ReadyForQuery` at the end, and no other frame
with one. -/
def FollowsProtocol (σ : Type) [Outside σ] : Prop :=
  ∀ (outside outside' : σ) (frame : RawFrame) (answers : List RawFrame),
    Outside.toBackend outside frame = some (outside', answers) →
      (frame.tag = tagSync → EndsReady answers) ∧ (frame.tag ≠ tagSync → NoReady answers)

theorem noReady_append {frames more : List RawFrame} (h : NoReady frames) (hmore : NoReady more) :
    NoReady (frames ++ more) :=
  List.forall_mem_append.mpr ⟨h, hmore⟩

theorem endsReady_append {frames more : List RawFrame} (h : NoReady frames)
    (hmore : EndsReady more) : EndsReady (frames ++ more) := by
  obtain ⟨init, last, rfl, hinit, hlast⟩ := hmore
  exact ⟨frames ++ init, last, by rw [List.append_assoc], noReady_append h hinit, hlast⟩

theorem not_endsReady_nil : ¬ EndsReady [] := by
  rintro ⟨init, last, h, -⟩
  simp at h

/-- The first of the frames is the last where it is a `ReadyForQuery`; otherwise the
others still end with one. -/
theorem endsReady_cons {frame : RawFrame} {rest : List RawFrame}
    (h : EndsReady (frame :: rest)) :
    (frame.tag = tagReadyForQuery → rest = []) ∧
      (frame.tag ≠ tagReadyForQuery → EndsReady rest) := by
  obtain ⟨init, last, heq, hinit, hlast⟩ := h
  cases init with
  | nil =>
      simp only [List.nil_append, List.cons.injEq] at heq
      refine ⟨fun _ => heq.2, fun hframe => ?_⟩
      rw [heq.1] at hframe
      exact absurd hlast hframe
  | cons first init =>
      simp only [List.cons_append, List.cons.injEq] at heq
      refine ⟨fun hframe => ?_, fun _ => ⟨init, last, heq.2, ?_, hlast⟩⟩
      · rw [heq.1] at hframe
        exact absurd hframe (hinit first (by simp))
      · exact fun f hf => hinit f (by simp [hf])

/-! ## The link during a turn -/

/-- The answers that wait. -/
def World.unread (w : World σ) : List RawFrame := w.inbox.map Reply.frame

/-- How often the agent was told that the backend is ready. -/
def readyCount (es : List (Event F)) : Nat :=
  es.countP fun e =>
    match e with
    | .toAgent frame => decide (frame.tag = tagReadyForQuery)
    | _ => false

/-- The answers that wait satisfy `unread`, these frames wait for a `Sync`, and the agent
was told this often that the backend is ready. -/
def At (unread : List RawFrame → Prop) (unsynced : List RawFrame) (readies : Nat)
    (s : Logged (World σ) (Event F)) : Prop :=
  unread s.world.unread ∧ s.world.unsynced = unsynced ∧ readyCount s.log = readies

/-- Anywhere. -/
abbrev Anywhere {ω : Type} : ω → Prop := fun _ => True

variable {unread : List RawFrame → Prop} {unsynced : List RawFrame} {n : Nat}

theorem readyCount_append_single {es : List (Event F)} {e : Event F}
    (h : ∀ frame, e = .toAgent frame → frame.tag ≠ tagReadyForQuery) :
    readyCount (es ++ [e]) = readyCount es := by
  cases e with
  | toAgent frame => simp [readyCount, h frame rfl]
  | _ => simp [readyCount]

theorem takeReply_at {P : List RawFrame → Prop} (rest : List Reply) {e : Event F}
    (h : ∀ frame, e ≠ .toAgent frame) :
    Triple (At P unsynced n) (takeReply rest e : Session σ F Unit)
      (fun _ => At (· = rest.map Reply.frame) unsynced n) Anywhere := by
  rintro s ⟨-, hunsynced, hcount⟩
  exact ⟨rfl, hunsynced, by rw [readyCount_append_single fun f hf => absurd hf (h f), hcount]⟩

theorem note_at {e : Event F} (h : ∀ frame, e ≠ .toAgent frame) :
    Triple (At unread unsynced n) (note e : Session σ F Unit)
      (fun _ => At unread unsynced n) Anywhere := by
  rintro s ⟨hunread, hunsynced, hcount⟩
  exact ⟨hunread, hunsynced, by rw [readyCount_append_single fun f hf => absurd hf (h f), hcount]⟩

theorem errorResponse_tag_ne (code message : String) :
    (errorResponse code message).tag ≠ tagReadyForQuery := by
  show tagErrorResponse ≠ tagReadyForQuery
  decide

/-- The answers as they wait, handed to what reads them. -/
theorem readInbox_bind_at {α : Type} {k : List Reply → Session σ F α}
    {Q : α → Logged (World σ) (Event F) → Prop}
    (hk : ∀ inbox, unread (inbox.map Reply.frame) →
      Triple (At Anywhere unsynced n) (k inbox) Q Anywhere) :
    Triple (At unread unsynced n) (readInbox >>= k : Session σ F α) Q Anywhere :=
  fun s hs => hk s.world.inbox hs.1 s ⟨trivial, hs.2⟩

section
variable [Outside σ]

theorem record_at (entry : AuditEntry) :
    Triple (At unread unsynced n) (record entry : Session σ F Unit)
      (fun _ => At unread unsynced n) Anywhere := by
  rintro s ⟨hunread, hunsynced, hcount⟩
  unfold record
  cases Outside.append s.world.outside entry with
  | error reason => trivial
  | ok outside =>
      exact ⟨hunread, hunsynced, by rw [readyCount_append_single (fun f hf => by cases hf), hcount]⟩

theorem chargeWindow_at (bytes rows : Nat) :
    Triple (At unread unsynced n) (chargeWindow bytes rows : Session σ F WindowOutcome)
      (fun _ => At unread unsynced n) Anywhere :=
  fun _ hs => hs

theorem deliver_at {frame : RawFrame} (h : frame.tag ≠ tagReadyForQuery) :
    Triple (At unread unsynced n) (deliver frame : Session σ F Unit)
      (fun _ => At unread unsynced n) Anywhere := by
  rintro s ⟨hunread, hunsynced, hcount⟩
  unfold deliver
  cases Outside.toAgent s.world.outside frame with
  | none => trivial
  | some outside =>
      refine ⟨hunread, hunsynced, ?_⟩
      rw [readyCount_append_single (fun f hf => by cases hf; exact h), hcount]

theorem deliver_ready {frame : RawFrame} (h : frame.tag = tagReadyForQuery) :
    Triple (At unread unsynced n) (deliver frame : Session σ F Unit)
      (fun _ => At unread unsynced (n + 1)) Anywhere := by
  rintro s ⟨hunread, hunsynced, hcount⟩
  unfold deliver
  cases Outside.toAgent s.world.outside frame with
  | none => trivial
  | some outside =>
      refine ⟨hunread, hunsynced, ?_⟩
      rw [← hcount]
      simp [readyCount, h]

/-- A send adds the answers to what waits. -/
theorem sendBackend_at {unread' : List RawFrame → Prop} {frame : RawFrame} {event : Nat → Event F}
    {waiting : List RawFrame}
    (hanswers : ∀ (outside outside' : σ) answers,
      Outside.toBackend outside frame = some (outside', answers) →
        ∀ old, unread old → unread' (old ++ answers))
    (hevent : ∀ serial f, event serial ≠ .toAgent f) :
    Triple (At unread unsynced n) (sendBackend frame event waiting : Session σ F Unit)
      (fun _ => At unread' waiting n) Anywhere := by
  intro s hs
  unfold sendBackend
  cases hanswer : Outside.toBackend s.world.outside frame with
  | none => trivial
  | some answer =>
      refine ⟨?_, rfl, ?_⟩
      · have hmap : (answer.2.map fun f => (⟨f, s.world.sent⟩ : Reply)).map Reply.frame =
            answer.2 := by simp [Function.comp_def]
        rw [World.unread, List.map_append, hmap]
        exact hanswers s.world.outside answer.1 answer.2 hanswer s.world.unread hs.1
      · rw [readyCount_append_single fun f hf => absurd hf (hevent _ f), hs.2.2]

theorem forwardFrame_sync (hprotocol : FollowsProtocol σ) {frame : RawFrame}
    (hsync : frame.tag = tagSync) :
    Triple (At NoReady unsynced n) (forwardFrame frame : Session σ F Unit)
      (fun _ => At EndsReady [] n) Anywhere := by
  intro s hs
  unfold forwardFrame
  rw [if_pos hsync]
  exact sendBackend_at (fun _ _ _ hanswer _ hold =>
    endsReady_append hold ((hprotocol _ _ _ _ hanswer).1 hsync)) (fun _ _ h => by cases h) s hs

theorem forwardFrame_other (hprotocol : FollowsProtocol σ) {frame : RawFrame}
    (hother : frame.tag ≠ tagSync) :
    Triple (At NoReady unsynced n) (forwardFrame frame : Session σ F Unit)
      (fun _ => At NoReady (unsynced ++ [frame]) n) Anywhere := by
  intro s hs
  unfold forwardFrame
  rw [if_neg hother, hs.2.1]
  exact sendBackend_at (fun _ _ _ hanswer _ hold =>
    noReady_append hold ((hprotocol _ _ _ _ hanswer).2 hother)) (fun _ _ h => by cases h) s hs

theorem sendOwn_sync (hprotocol : FollowsProtocol σ) :
    Triple (At NoReady unsynced n) (sendOwn .sync : Session σ F Unit)
      (fun _ => At EndsReady [] n) Anywhere := by
  intro s hs
  have hsync : FrontendMessage.sync.encode.tag = tagSync := rfl
  unfold sendOwn
  rw [if_pos rfl]
  exact sendBackend_at (fun _ _ _ hanswer _ hold =>
    endsReady_append hold ((hprotocol _ _ _ _ hanswer).1 hsync)) (fun _ _ h => by cases h) s hs

theorem sendOwn_other (hprotocol : FollowsProtocol σ) {msg : FrontendMessage}
    (hother : msg ≠ .sync) :
    Triple (At NoReady unsynced n) (sendOwn msg : Session σ F Unit)
      (fun _ => At NoReady unsynced n) Anywhere := by
  intro s hs
  have htag : msg.encode.tag ≠ tagSync := fun h => hother (tag_eq_sync.mp h)
  unfold sendOwn
  rw [if_neg hother, hs.2.1]
  exact sendBackend_at (fun _ _ _ hanswer _ hold =>
    noReady_append hold ((hprotocol _ _ _ _ hanswer).2 htag)) (fun _ _ h => by cases h) s hs

/-! ## Reading up to `ReadyForQuery` -/

omit [Outside σ] in
/-- The end of a preflight reads everything that waits. -/
theorem drainExplain_at {replies : List Reply} (hends : EndsReady (replies.map Reply.frame))
    (firstLine explainError : Option String) :
    Triple (At unread unsynced n)
      (drainExplain replies firstLine explainError : Session σ F (Except String (Option String)))
      (fun _ => At (· = []) unsynced n) Anywhere := by
  induction replies generalizing unread firstLine explainError with
  | nil => exact absurd hends not_endsReady_nil
  | cons reply rest ih =>
      obtain ⟨hlast, hmore⟩ := endsReady_cons hends
      refine .bind (takeReply_at rest (fun _ => nofun)) fun _ => .ite (fun h => ?_) fun _ =>
        .ite (fun h => ?_) fun _ => .ite (fun h => ?_) fun h => ih (hmore h) _ _
      · have hrest := hmore (by rw [h.1]; decide)
        split
        · exact .bind (note_at fun _ => nofun) fun _ => ih hrest _ _
        · exact ih hrest _ _
      · have hrest := hmore (by rw [h]; decide)
        split
        · exact ih hrest _ _
        · exact ih hrest _ _
      · -- The last of the answers: nothing is left.
        have hnil : rest.map Reply.frame = [] := hlast h
        rw [hnil]
        split
        · exact .pure fun _ hs => hs
        · exact .pure fun _ hs => hs

theorem deliverUnless_at (cutOff : Bool) {frame : RawFrame} (h : frame.tag ≠ tagReadyForQuery) :
    Triple (At unread unsynced n) (deliverUnless cutOff frame : Session σ F Unit)
      (fun _ => At unread unsynced n) Anywhere :=
  .ite (fun _ => .pure fun _ hs => hs) fun _ => deliver_at h

/-- A relay that comes to its end has read everything that waits, and has told the agent
once that the backend is ready. -/
theorem relayLoop_at {replies : List Reply} (hends : EndsReady (replies.map Reply.frame))
    (b : Budget) (cutOff inCopy : Bool) :
    Triple (At unread unsynced n) (relayLoop replies b cutOff inCopy : Session σ F Unit)
      (fun _ => At (· = []) unsynced (n + 1)) Anywhere := by
  induction replies generalizing unread b cutOff inCopy with
  | nil => exact absurd hends not_endsReady_nil
  | cons reply rest ih =>
      obtain ⟨hlast, hmore⟩ := endsReady_cons hends
      refine .bind (takeReply_at rest (fun _ => nofun)) fun _ => .ite (fun h => ?_) fun _ =>
        .ite (fun h => ?_) fun hready => ?_
      · have hother : reply.frame.tag ≠ tagReadyForQuery := by
          intro htag
          rw [backendStartsCopy, htag] at h
          exact absurd h (by decide)
        exact .bind (deliverUnless_at cutOff hother) fun _ => ih (hmore hother) _ _ _
      · have hnil : rest.map Reply.frame = [] := hlast h
        rw [hnil]
        exact deliver_ready h
      · have hrest := hmore hready
        refine .ite (fun _ => .bind (deliverUnless_at cutOff hready) fun _ => ih hrest _ _ _)
          fun _ => .ite (fun _ => ?_) fun _ => .ite (fun _ => ih hrest _ _ _) fun _ =>
            .bind (deliver_at hready) fun _ => ih hrest _ _ _
        split
        · exact .bind (record_at _) fun _ => .bind (deliver_at (errorResponse_tag_ne _ _)) fun _ =>
            .ite (fun _ => .fail fun _ _ => trivial) fun _ => ih hrest _ _ _
        · refine .bind (chargeWindow_at _ _) fun outcome => ?_
          cases outcome with
          | within bytes rows => exact .bind (deliver_at hready) fun _ => ih hrest _ _ _
          | exceeded cap bytes rows =>
              exact .bind (record_at _) fun _ =>
                .bind (deliver_at (errorResponse_tag_ne _ _)) fun _ => .fail fun _ _ => trivial

/-! ## A turn -/

/-- Between two turns no `ReadyForQuery` waits, and nothing waits where every frame was
followed by a `Sync`. -/
def World.Clean (w : World σ) : Prop := NoReady w.unread ∧ (w.unsynced = [] → w.unread = [])

/-- Nothing is unread, and every frame was followed by a `Sync`. -/
def World.Idle (w : World σ) : Prop := w.unread = [] ∧ w.unsynced = []

theorem runExplainOnBackend_at (hprotocol : FollowsProtocol σ) (sql : String) :
    Triple (At NoReady unsynced n)
      (runExplainOnBackend sql : Session σ F (Except String (Option String)))
      (fun _ => At (· = []) [] n) Anywhere :=
  .bind
    (.bind (sendOwn_other hprotocol nofun) fun _ => .bind (sendOwn_other hprotocol nofun) fun _ =>
      .bind (sendOwn_other hprotocol nofun) fun _ => sendOwn_sync hprotocol)
    fun _ => readInbox_bind_at fun _ hends => drainExplain_at hends none none

omit [Outside σ] in
theorem at_nil_noReady {s : Logged (World σ) (Event F)} (h : At (· = []) unsynced n s) :
    At NoReady unsynced n s := by
  refine ⟨?_, h.2⟩
  rw [h.1]
  exact List.forall_mem_nil _

variable [Runtime F] [Parser]

/-- A statement is refused only after its plan was read, and then nothing is left on the
link. -/
theorem explainPreflight_at (hprotocol : FollowsProtocol σ) (ceiling : ExplainCeiling F)
    (sql : String) :
    Triple (At NoReady unsynced n)
      (explainPreflight ceiling sql : Session σ F (Option PendingError))
      (fun refused s => (refused.isSome → At (· = []) [] n s) ∧ ∃ waiting, At NoReady waiting n s)
      Anywhere := by
  refine .ite (fun _ => .pure fun s hs => ⟨nofun, unsynced, hs⟩) fun _ => ?_
  refine .bind (runExplainOnBackend_at hprotocol sql) fun outcome =>
    .bind (.lift (fun _ _ hs => hs) fun _ _ => trivial) fun decision =>
      .bind (note_at fun _ => nofun) fun _ => ?_
  have hleft : ∀ (refused : Option PendingError) (s : Logged (World σ) (Event F)),
      At (· = []) [] n s →
        (refused.isSome → At (· = []) [] n s) ∧ ∃ waiting, At NoReady waiting n s :=
    fun _ _ hs => ⟨fun _ => hs, [], at_nil_noReady hs⟩
  cases decision with
  | within estimate => exact .pure (hleft _)
  | exceeded dim estimate => exact .bind (record_at _) fun _ => .pure (hleft _)
  | failClosed reason => exact .bind (record_at _) fun _ => .pure (hleft _)

theorem clearStatement_at (hprotocol : FollowsProtocol σ) (cfg : Config F)
    (statement : Option String) :
    Triple (At NoReady unsynced n)
      (clearStatement cfg statement : Session σ F (Option PendingError))
      (fun refused s => (refused.isSome → At (· = []) [] n s) ∧ ∃ waiting, At NoReady waiting n s)
      Anywhere := by
  cases statement with
  | none => exact .pure fun s hs => ⟨nofun, unsynced, hs⟩
  | some sql =>
      refine .bind (explainPreflight_at hprotocol cfg.ceiling sql) fun refused => ?_
      cases refused with
      | some err => exact .pure fun _ hs => hs
      | none =>
          refine .bind (Q := fun _ s => ∃ waiting, At NoReady waiting n s)
            (.conseq (.exists_pre fun waiting => .conseq (record_at _) (fun _ hs => hs)
              fun _ _ hs => ⟨waiting, hs⟩) (fun _ hs => hs.2) fun _ _ hs => hs)
            fun _ => .pure fun _ hs => ⟨nofun, hs⟩

omit [Runtime F] [Parser] in
/-- A frame other than a `Sync` waits for one. -/
theorem passOn_other (hprotocol : FollowsProtocol σ) (cfg : Config F) {frame : RawFrame}
    {msg : FrontendMessage} (hdecode : FrontendMessage.decode frame = .ok msg)
    (hother : msg ≠ .sync) :
    Triple (At NoReady unsynced n) (passOn cfg frame msg : Session σ F Unit)
      (fun _ => At NoReady (unsynced ++ [frame]) n) Anywhere := by
  have htag : frame.tag ≠ tagSync := by
    rw [decode_tag hdecode]
    exact fun h => hother (tag_eq_sync.mp h)
  unfold passOn
  rw [if_neg hother]
  exact .bind (forwardFrame_other hprotocol htag) fun _ => .pure fun _ hs => hs

omit [Runtime F] [Parser] in
/-- A `Sync` leaves nothing behind, and tells the agent once that the backend is ready. -/
theorem passOn_sync (hprotocol : FollowsProtocol σ) (cfg : Config F) {frame : RawFrame}
    (hdecode : FrontendMessage.decode frame = .ok .sync) :
    Triple (At NoReady unsynced n) (passOn cfg frame .sync : Session σ F Unit)
      (fun _ => At (· = []) [] (n + 1)) Anywhere := by
  have htag : frame.tag = tagSync := decode_tag hdecode
  unfold passOn
  rw [if_pos rfl]
  exact .bind (forwardFrame_sync hprotocol htag) fun _ =>
    readInbox_bind_at fun _ hends => relayLoop_at hends _ _ _

/-- What a turn leaves on the link, by the refusal that waited before it and the one that
waits after it. -/
structure Linked (frame : RawFrame) (pending : Option PendingError) (unsynced : List RawFrame)
    (refused : Option PendingError) (s : Logged (World σ) (Event F)) : Prop where
  clean : s.world.Clean
  planned : pending = none → blockedByGate frame = false → refused.isSome → s.world.unsynced = []
  held : pending.isSome ∨ blockedByGate frame = true → s.world.unsynced = unsynced
  ready : FrontendMessage.decode frame = .ok .sync → readyCount s.log = 1
  relayed : FrontendMessage.decode frame = .ok .sync → pending = none → s.world.Idle

/-- What may wait between two turns. -/
def CleanAt (unsynced : List RawFrame) (frames : List RawFrame) : Prop :=
  NoReady frames ∧ (unsynced = [] → frames = [])

omit [Outside σ] [Runtime F] [Parser] in
theorem clean_of_at {s : Logged (World σ) (Event F)} (h : At (CleanAt unsynced) unsynced n s) :
    s.world.Clean := by
  refine ⟨h.1.1, fun hnil => h.1.2 ?_⟩
  rw [← h.2.1]
  exact hnil

omit [Outside σ] [Runtime F] [Parser] in
theorem at_noReady {s : Logged (World σ) (Event F)} (h : At (CleanAt unsynced) unsynced n s) :
    At NoReady unsynced n s :=
  ⟨h.1.1, h.2⟩

omit [Outside σ] [Runtime F] [Parser] in
theorem idle_of_at {s : Logged (World σ) (Event F)} (h : At (· = []) [] n s) : s.world.Idle :=
  ⟨h.1, h.2.1⟩

omit [Outside σ] [Runtime F] [Parser] in
theorem World.Idle.clean {w : World σ} (h : w.Idle) : w.Clean := by
  refine ⟨?_, fun _ => h.1⟩
  rw [h.1]
  exact List.forall_mem_nil _

omit [Runtime F] [Parser] in
theorem sendErrorThenReady_at (code message : String) :
    Triple (At unread unsynced n) (sendErrorThenReady code message : Session σ F Unit)
      (fun _ => At unread unsynced (n + 1)) Anywhere :=
  .bind (deliver_at (errorResponse_tag_ne _ _)) fun _ => deliver_ready rfl

/-- A message that the gate does not allow leaves the link alone. -/
theorem handleMessage_refused (cfg : Config F) {frame : RawFrame} {msg : FrontendMessage}
    (hdecode : FrontendMessage.decode frame = .ok msg)
    (hgate : ∀ statement, gate msg ≠ .allow statement) :
    Triple (At unread unsynced n) (handleMessage cfg frame msg : Session σ F (Option PendingError))
      (fun refused s => (blockedByGate frame = false → refused = none) ∧
        ∃ count, At unread unsynced count s) Anywhere := by
  unfold handleMessage
  cases hmsg : gate msg with
  | allow statement => exact absurd hmsg (hgate statement)
  | block sql code message =>
      have hblocked : blockedByGate frame = true := by simp only [blockedByGate, hdecode, hmsg]
      refine .bind (record_at _) fun _ => .pure fun _ hs => ⟨fun hfree => ?_, n, hs⟩
      simp [hblocked] at hfree
  | reject kind code message =>
      refine .bind (record_at _) fun _ => ?_
      cases kind with
      | copy =>
          have hblocked : blockedByGate frame = true := by simp only [blockedByGate, hdecode, hmsg]
          refine .pure fun _ hs => ⟨fun hfree => ?_, n, hs⟩
          simp [hblocked] at hfree
      | simpleQuery =>
          exact .bind (sendErrorThenReady_at _ _) fun _ => .pure fun _ hs =>
            ⟨fun _ => rfl, n + 1, hs⟩

/-- A message that is refused for its plan leaves nothing on the link, and one that is
passed on waits for its `Sync`. -/
theorem handleMessage_allowed (hprotocol : FollowsProtocol σ) (cfg : Config F) {frame : RawFrame}
    {msg : FrontendMessage} (hdecode : FrontendMessage.decode frame = .ok msg)
    (hother : msg ≠ .sync) {statement : Option String} (hgate : gate msg = .allow statement) :
    Triple (At NoReady unsynced n) (handleMessage cfg frame msg : Session σ F (Option PendingError))
      (fun refused s => s.world.Clean ∧ (refused.isSome → s.world.unsynced = [])) Anywhere := by
  unfold handleMessage
  rw [hgate]
  refine .bind (clearStatement_at hprotocol cfg statement) fun refused => ?_
  cases refused with
  | some err =>
      refine .pure fun s hs => ?_
      have hidle := idle_of_at (hs.1 rfl)
      exact ⟨hidle.clean, fun _ => hidle.2⟩
  | none =>
      refine .conseq (A := fun s => ∃ waiting, At NoReady waiting n s) (.exists_pre fun waiting =>
        .bind (passOn_other hprotocol cfg hdecode hother) fun _ => .pure fun s hs => ?_)
        (fun _ hs => hs.2) fun _ _ hs => hs
      refine ⟨⟨hs.1, fun hnil => ?_⟩, nofun⟩
      rw [hs.2.1] at hnil
      simp at hnil

theorem handleMessage_sync (hprotocol : FollowsProtocol σ) (cfg : Config F) {frame : RawFrame}
    (hdecode : FrontendMessage.decode frame = .ok .sync) :
    Triple (At NoReady unsynced n)
      (handleMessage cfg frame .sync : Session σ F (Option PendingError))
      (fun refused s => refused = none ∧ At (· = []) [] (n + 1) s) Anywhere := by
  have hrun : (handleMessage cfg frame .sync : Session σ F (Option PendingError)) =
      (passOn cfg frame .sync >>= fun _ => pure none) := rfl
  rw [hrun]
  exact .bind (passOn_sync hprotocol cfg hdecode) fun _ => .pure fun _ hs => ⟨rfl, hs⟩

omit [Outside σ] [Runtime F] in
/-- A turn that leaves the link as it was. -/
theorem linked_of_at {frame : RawFrame} {pending refused : Option PendingError}
    {s : Logged (World σ) (Event F)} (h : At (CleanAt unsynced) unsynced n s)
    (hplanned : pending = none → blockedByGate frame = false → refused = none)
    (hsync : FrontendMessage.decode frame = .ok .sync → n = 1 ∧ pending.isSome) :
    Linked frame pending unsynced refused s where
  clean := clean_of_at h
  planned := by
    intro hpending hfree hrefused
    rw [hplanned hpending hfree] at hrefused
    cases hrefused
  held := fun _ => h.2.1
  ready := fun hdecode => h.2.2.trans (hsync hdecode).1
  relayed := by
    intro hdecode hpending
    rw [hpending] at hsync
    cases (hsync hdecode).2

theorem handleFrame_link (hprotocol : FollowsProtocol σ) (cfg : Config F) (frame : RawFrame)
    (pending : Option PendingError) :
    Triple (At (CleanAt unsynced) unsynced 0)
      (handleFrame cfg frame pending : Session σ F (Option (Option PendingError)))
      (fun next s => ∀ refused, next = some refused → Linked frame pending unsynced refused s)
      Anywhere := by
  cases hdecode : FrontendMessage.decode frame with
  | error e =>
      have hblocked : blockedByGate frame = true := by simp only [blockedByGate, hdecode]
      have hnoSync : FrontendMessage.decode frame ≠ .ok .sync := by simp [hdecode]
      cases pending with
      | none =>
          rw [handleFrame_malformed cfg hdecode]
          refine .bind (record_at _) fun _ => .pure fun s hs refused _ => ?_
          exact linked_of_at hs (fun _ hfree => by simp [hblocked] at hfree)
            fun hsync => absurd hsync hnoSync
      | some err =>
          unfold handleFrame
          rw [hdecode]
          exact .pure fun s hs refused _ =>
            linked_of_at hs (fun h => by cases h) fun hsync => absurd hsync hnoSync
  | ok msg =>
      by_cases hleave : msg = .terminate
      · unfold handleFrame
        rw [hdecode, hleave]
        exact .pure fun _ _ _ hnext => by cases hnext
      cases pending with
      | some err =>
          rw [handleFrame_skips cfg err hdecode hleave]
          refine .ite (fun hsync => ?_) fun hother => .pure fun s hs refused _ => ?_
          · refine .bind (sendErrorThenReady_at _ _) fun _ => .pure fun s hs refused _ => ?_
            exact linked_of_at hs (fun h => by cases h) fun _ => ⟨rfl, rfl⟩
          · refine linked_of_at hs (fun h => by cases h) fun hsync => ?_
            rw [hdecode] at hsync
            cases hsync
            exact absurd rfl hother
      | none =>
          rw [handleFrame_judges cfg hdecode hleave]
          by_cases hsync : msg = .sync
          · subst hsync
            refine .conseq (.bind (handleMessage_sync hprotocol cfg hdecode) fun refused =>
              .pure fun s hs refused' hnext => ?_) (fun _ hs => at_noReady hs) fun _ _ hs => hs
            obtain ⟨rfl, hat⟩ := hs
            cases hnext
            have hfree : blockedByGate frame = false := by
              rw [blockedByGate, hdecode]
              rfl
            have hidle := idle_of_at hat
            exact
              { clean := hidle.clean
                planned := fun _ _ h => by cases h
                held := fun h => by simp [hfree] at h
                ready := fun _ => hat.2.2
                relayed := fun _ _ => hidle }
          · have hnoSync : FrontendMessage.decode frame ≠ .ok .sync := by simp [hdecode, hsync]
            by_cases hgate : ∃ statement, gate msg = .allow statement
            · obtain ⟨statement, hgate⟩ := hgate
              have hfree : blockedByGate frame = false := by
                simp only [blockedByGate, hdecode, hgate]
              refine .conseq (.bind (handleMessage_allowed hprotocol cfg hdecode hsync hgate)
                fun refused => .pure fun s hs refused' hnext => ?_) (fun _ hs => at_noReady hs)
                fun _ _ hs => hs
              cases hnext
              exact
                { clean := hs.1
                  planned := fun _ _ hrefused => hs.2 hrefused
                  held := fun h => by simp [hfree] at h
                  ready := fun h => absurd h hnoSync
                  relayed := fun h => absurd h hnoSync }
            · have hgate' : ∀ statement, gate msg ≠ .allow statement :=
                fun statement h => hgate ⟨statement, h⟩
              refine .bind (handleMessage_refused cfg hdecode hgate') fun refused =>
                .pure fun s hs refused' hnext => ?_
              cases hnext
              obtain ⟨hcalm, count, hat⟩ := hs
              exact linked_of_at hat (fun _ hfree => hcalm hfree) fun h => absurd h hnoSync

/-- What a running turn does to the link. -/
theorem turn_link (hprotocol : FollowsProtocol σ) (cfg : Config F) (frame : RawFrame)
    {s : Loop σ} (hrun : s.ended = false) (hclean : s.world.Clean)
    (hrunning : (turn cfg frame s).2.ended = false) :
    Linked frame s.pending s.world.unsynced (turn cfg frame s).2.pending
      ⟨(turn cfg frame s).2.world, (turn cfg frame s).1.events⟩ := by
  have hstart : At (CleanAt s.world.unsynced) s.world.unsynced 0
      (⟨s.awake, []⟩ : Logged (World σ) (Event F)) := ⟨hclean, rfl, rfl⟩
  obtain ⟨refused, s', hframe, hevents, hafter⟩ := turn_finished cfg frame hrun hrunning
  rw [hevents, hafter]
  exact (handleFrame_link hprotocol cfg frame s.pending).of_ok hstart hframe refused rfl

omit [Outside σ] [Runtime F] [Parser] in
/-- A session starts on an idle link. -/
theorem start_clean (cfg : Config F) (outside : σ) : (Loop.start cfg outside []).world.Clean :=
  ⟨List.forall_mem_nil _, fun _ => rfl⟩

end

end PgBrakes.Ports.Proxy
