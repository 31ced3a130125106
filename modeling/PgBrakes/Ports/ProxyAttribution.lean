import PgBrakes.Ports.PgSession

/-!
# Whose answers a preflight reads

A preflight sends an `EXPLAIN` of its own down the link the agent's frames went down
before, and reads answers up to `ReadyForQuery`.  Each answer carries the number of the
frame it answers, so that one can ask whose answers it read.

What it reads are the answers to its own messages, behind whatever waited on the link
when it began.  Nothing waits when every frame passed on has been followed by a `Sync`;
an agent that sends the next `Parse` earlier has the answers to its frames taken for the
plan.

## Main results

* `queryLoop_attributed` — where every planned `Parse` finds the link idle, a preflight
  reads answers to its own `EXPLAIN` and nothing else.
* `queryLoop_misattributed` — a second `Parse` before the `Sync`.
-/

namespace PgBrakes.Ports.Proxy

open PgBrakes.Ports.ExplainGate
open PgBrakes.Ports.ReadAst (Parser)
open PgBrakes.Ports.ReadGate
open PgBrakes.Ports.Wire
open PgBrakes.Verified.Effect
open PgBrakes.Verified.Effect.Eff (Keeps Triple)
open PgBrakes.Verified

variable {σ F : Type}

/-! ## The numbers of the frames -/

/-- The number of the frame an event sends. -/
def Event.serial : Event F → Option Nat
  | .forwarded n _ => some n
  | .own n _ => some n
  | _ => none

/-- The frames sent since number `base` have consecutive numbers. -/
def Numbered (base : Nat) (s : Logged (World σ) (Event F)) : Prop :=
  ∃ count, s.world.sent = base + count ∧ s.log.filterMap Event.serial = List.range' base count

theorem numbered_note {base : Nat} {s : Logged (World σ) (Event F)} {w : World σ} {e : Event F}
    (hs : Numbered base s) (hsent : w.sent = s.world.sent) (he : e.serial = none) :
    Numbered base ⟨w, s.log ++ [e]⟩ := by
  obtain ⟨count, hcount, hlog⟩ := hs
  refine ⟨count, hsent.trans hcount, ?_⟩
  simp [hlog, he]

section
variable [Outside σ]

theorem sendBackend_numbered (base : Nat) (frame : RawFrame) {event : Nat → Event F}
    (hevent : ∀ n, (event n).serial = some n) (unsynced : List RawFrame) :
    Keeps (Numbered base) (sendBackend frame event unsynced : Session σ F Unit) := by
  rintro s ⟨count, hcount, hlog⟩
  unfold sendBackend
  cases Outside.toBackend s.world.outside frame with
  | none => exact ⟨count, hcount, hlog⟩
  | some answer =>
      refine ⟨count + 1, ?_, ?_⟩
      · show s.world.sent + 1 = base + (count + 1)
        omega
      · rw [List.filterMap_append, hlog, List.range'_1_concat, ← hcount]
        simp [hevent]

/-- Every call of a session keeps the numbers in order. -/
theorem sessionKeeps_numbered (base : Nat) :
    SessionKeeps (Numbered base : Logged (World σ) (Event F) → Prop) where
  drained := fun _ _ _ _ hs => numbered_note hs rfl rfl
  planLine := fun _ _ _ hs => numbered_note hs rfl rfl
  relayed := fun _ _ _ hs => numbered_note hs rfl rfl
  deliver := by
    intro frame s hs
    unfold deliver
    cases Outside.toAgent s.world.outside frame with
    | none => exact hs
    | some outside => exact numbered_note hs rfl rfl
  record := by
    intro entry s hs
    unfold record
    cases Outside.append s.world.outside entry with
    | error reason => exact hs
    | ok outside => exact numbered_note hs rfl rfl
  charge := fun _ _ _ hs => hs
  own := fun msg s hs => sendBackend_numbered base msg.encode (fun _ => rfl) _ s hs
  forward := fun frame s hs => sendBackend_numbered base frame (fun _ => rfl) _ s hs
  estimated := fun _ _ _ hs => numbered_note hs rfl rfl

end

/-- The events of a whole history. -/
def allEvents (history : List (Turn σ F)) : List (Event F) := history.flatMap (·.events)

/-- The frames of a session have been numbered one after the other. -/
def AllNumbered (history : List (Turn σ F)) (s : Loop σ) : Prop :=
  (allEvents history).filterMap Event.serial = List.range' 0 s.world.sent

section
variable [Outside σ] [Runtime F] [Parser]

theorem turn_numbered (cfg : Config F) {history : List (Turn σ F)} {s : Loop σ} (frame : RawFrame)
    (hs : AllNumbered history s) :
    AllNumbered (history ++ [(turn cfg frame s).1]) (turn cfg frame s).2 := by
  by_cases hended : s.ended = true
  · rw [turn_ended cfg frame hended]
    simpa [AllNumbered, allEvents] using hs
  have hrun : s.ended = false := by simpa using hended
  obtain ⟨count, hcount, hlog⟩ := handleFrame_keeps (sessionKeeps_numbered s.world.sent) cfg frame
    s.pending ⟨s.awake, []⟩ ⟨0, rfl, rfl⟩
  have hsent : (turn cfg frame s).2.world.sent = s.world.sent + count := by
    rw [turn_running cfg frame hrun, ← hcount]
    unfold Loop.next
    split
    · rfl
    · rfl
    · rfl
  have hevents : (turn cfg frame s).1.events.filterMap Event.serial =
      List.range' s.world.sent count := by
    rw [turn_running cfg frame hrun]
    exact hlog
  have hsplit : allEvents (history ++ [(turn cfg frame s).1]) =
      allEvents history ++ (turn cfg frame s).1.events := by simp [allEvents]
  rw [AllNumbered, hsplit, List.filterMap_append, hs, hevents, hsent]
  have happend := List.range'_append_1 (s := 0) (m := s.world.sent) (n := count)
  rwa [Nat.zero_add] at happend

end

/-- A number belongs to one event only. -/
theorem serial_unique {es : List (Event F)} {base count n : Nat} {e e' : Event F}
    (hes : es.filterMap Event.serial = List.range' base count) (he : e ∈ es) (he' : e' ∈ es)
    (hn : e.serial = some n) (hn' : e'.serial = some n) : e = e' := by
  have hnodup : (es.filterMap Event.serial).Nodup := by
    rw [hes]
    exact List.nodup_range'
  clear hes
  induction es with
  | nil => cases he
  | cons first rest ih =>
      -- The event in front sends number `n`, and then none behind it does, or it does not.
      by_cases hfirst : first.serial = some n
      · rw [List.filterMap_cons_some hfirst, List.nodup_cons] at hnodup
        have honly (e : Event F) (he : e ∈ first :: rest) (hn : e.serial = some n) : e = first := by
          rcases List.mem_cons.mp he with rfl | hmem
          · rfl
          · exact absurd (List.mem_filterMap.mpr ⟨e, hmem, hn⟩) hnodup.1
        rw [honly e he hn, honly e' he' hn']
      · have hrest (e : Event F) (he : e ∈ first :: rest) (hn : e.serial = some n) : e ∈ rest := by
          rcases List.mem_cons.mp he with rfl | hmem
          · exact absurd hn hfirst
          · exact hmem
        refine ih (hrest e he hn) (hrest e' he' hn') ?_
        cases hserial : first.serial with
        | none => rwa [List.filterMap_cons_none hserial] at hnodup
        | some m =>
            rw [List.filterMap_cons_some hserial, List.nodup_cons] at hnodup
            exact hnodup.2

/-! ## What a preflight reads -/

/-- The messages that plan a statement. -/
def explainUnit (sql : String) : List FrontendMessage :=
  [.parse "" (explainWrap sql) [], .bind "" "" [0, 0, 0, 0, 0, 0], .execute "" 0, .sync]

/-- The messages that plan the statement of a frame. -/
def explainUnitOf (frame : RawFrame) : List FrontendMessage :=
  match FrontendMessage.decode frame with
  | .ok (.parse _ sql _) => explainUnit sql
  | _ => []

/-- The answer a preflight takes off the link, or takes for the plan. -/
def Event.reads : Event F → Option Reply
  | .drained reply => some reply
  | .planLine reply => some reply
  | _ => none

/-- The answer waited before, or it answers one of these messages. -/
def Answers (old : List Reply) (unit : List FrontendMessage) (es : List (Event F))
    (r : Reply) : Prop :=
  r ∈ old ∨ ∃ msg ∈ unit, .own r.answers msg ∈ es

/-- An answer is read only where `c` holds, and then it waited before or answers one of
these messages. -/
def ReadsOnly (c : Prop) (old : List Reply) (unit : List FrontendMessage)
    (s : Logged (World σ) (Event F)) : Prop :=
  ∀ e ∈ s.log, ∀ r, e.reads = some r → c ∧ Answers old unit s.log r

/-- The same, and what waits also waited before or answers one of these messages. -/
def WaitsOnly (c : Prop) (old : List Reply) (unit : List FrontendMessage)
    (s : Logged (World σ) (Event F)) : Prop :=
  ReadsOnly c old unit s ∧ ∀ r ∈ s.world.inbox, Answers old unit s.log r

variable {c : Prop} {old : List Reply} {unit : List FrontendMessage}

theorem Answers.append {es fs : List (Event F)} {r : Reply} (h : Answers old unit es r) :
    Answers old unit (es ++ fs) r := by
  rcases h with h | ⟨msg, hmsg, hown⟩
  · exact .inl h
  · exact .inr ⟨msg, hmsg, List.mem_append_left _ hown⟩

/-- Events that read nothing. -/
theorem ReadsOnly.append {s : Logged (World σ) (Event F)} {w : World σ} {es : List (Event F)}
    (h : ReadsOnly c old unit s)
    (hes : ∀ e ∈ es, ∀ r, e.reads = some r → c ∧ Answers old unit s.log r) :
    ReadsOnly c old unit ⟨w, s.log ++ es⟩ := by
  intro e he r hr
  rcases List.mem_append.mp he with hmem | hmem
  · exact ⟨(h e hmem r hr).1, (h e hmem r hr).2.append⟩
  · exact ⟨(hes e hmem r hr).1, (hes e hmem r hr).2.append⟩

theorem ReadsOnly.snoc {s : Logged (World σ) (Event F)} {w : World σ} {e : Event F}
    (h : ReadsOnly c old unit s) (he : e.reads = none) :
    ReadsOnly c old unit ⟨w, s.log ++ [e]⟩ := by
  refine h.append fun e' he' r hr => ?_
  rw [List.mem_singleton.mp he', he] at hr
  cases hr

/-- A call that reads nothing. -/
theorem readsOnly_of_emits {α : Type} {E : Event F → Prop} {m : Session σ F α}
    (hm : Emits (OnWindow fun _ => True) E m) (h : ∀ e, E e → e.reads = none) :
    Keeps (ReadsOnly c old unit) m := by
  intro s hs
  rcases hm s trivial with ⟨err, hrun⟩ | ⟨a, e, w, hrun, he, -⟩
  · rw [hrun]
    exact hs
  · rw [hrun]
    exact hs.snoc (h e he)

section
variable [Outside σ]

theorem relayKeeps_readsOnly :
    RelayKeeps (ReadsOnly c old unit : Logged (World σ) (Event F) → Prop) where
  relayed := fun rest _ => readsOnly_of_emits (takeReply_emits rest _) fun _ he => he ▸ rfl
  deliver := fun frame => readsOnly_of_emits (deliver_emits frame) fun _ he => he ▸ rfl
  record := fun entry => readsOnly_of_emits (record_emits entry) fun _ he => he ▸ rfl
  charge := fun _ _ _ hs => hs

/-- The answers to a message of the preflight wait for it. -/
theorem sendOwn_waitsOnly {msg : FrontendMessage} (hmsg : msg ∈ unit) :
    Keeps (WaitsOnly c old unit) (sendOwn msg : Session σ F Unit) := by
  rintro s ⟨hreads, hwaits⟩
  unfold sendOwn sendBackend
  cases Outside.toBackend s.world.outside msg.encode with
  | none => exact ⟨hreads, hwaits⟩
  | some answer =>
      refine ⟨hreads.snoc rfl, ?_⟩
      intro r hr
      rcases List.mem_append.mp hr with hold | hnew
      · exact (hwaits r hold).append
      · obtain ⟨frame, -, rfl⟩ := List.mem_map.mp hnew
        exact .inr ⟨msg, hmsg, by simp⟩

omit [Outside σ] in
/-- The reader at the end of a preflight reads what waits. -/
theorem drainExplain_readsOnly (hc : c) {replies : List Reply} {log : List (Event F)}
    (hreplies : ∀ r ∈ replies, Answers old unit log r) (firstLine explainError : Option String) :
    Keeps (fun s => (∃ es, s.log = log ++ es) ∧ ReadsOnly c old unit s)
      (drainExplain replies firstLine explainError :
        Session σ F (Except String (Option String))) := by
  -- One event that reads an answer behind the log.
  have hread {s : Logged (World σ) (Event F)} {w : World σ} {e : Event F} {r : Reply}
      (he : e.reads = some r) (hr : Answers old unit log r)
      (hs : (∃ es, s.log = log ++ es) ∧ ReadsOnly c old unit s) :
      (∃ es, s.log ++ [e] = log ++ es) ∧ ReadsOnly c old unit ⟨w, s.log ++ [e]⟩ := by
    obtain ⟨⟨es, hlog⟩, hreads⟩ := hs
    refine ⟨⟨es ++ [e], by rw [hlog, List.append_assoc]⟩, hreads.append fun e' he' r' hr' => ?_⟩
    rw [List.mem_singleton.mp he', he] at hr'
    cases hr'
    rw [hlog]
    exact ⟨hc, hr.append⟩
  exact drainExplain_keeps ⟨fun rest reply hr s hs => hread rfl hr hs,
    fun reply hr s hs => hread rfl hr hs⟩ hreplies firstLine explainError

theorem runExplainOnBackend_readsOnly (hc : c) (sql : String) (s : Logged (World σ) (Event F))
    (hs : WaitsOnly c old (explainUnit sql) s) :
    ReadsOnly c old (explainUnit sql)
      ((runExplainOnBackend sql : Session σ F (Except String (Option String))) s).2 := by
  have hunit : Keeps (WaitsOnly c old (explainUnit sql))
      (sendExtendedUnit (explainWrap sql) : Session σ F Unit) :=
    .bind (sendOwn_waitsOnly (by simp [explainUnit])) fun _ =>
      .bind (sendOwn_waitsOnly (by simp [explainUnit])) fun _ =>
        .bind (sendOwn_waitsOnly (by simp [explainUnit])) fun _ =>
          sendOwn_waitsOnly (by simp [explainUnit])
  have hsent := hunit s hs
  unfold runExplainOnBackend
  rw [Eff.bind_apply]
  rcases hrun : sendExtendedUnit (explainWrap sql) s with ⟨r, s'⟩
  rw [hrun] at hsent
  cases r with
  | error e => exact hsent.1
  | ok u =>
      exact (drainExplain_readsOnly hc hsent.2 none none s' ⟨⟨[], by simp⟩, hsent.1⟩).2

theorem passOn_readsOnly (cfg : Config F) (frame : RawFrame) (msg : FrontendMessage) :
    Keeps (ReadsOnly c old unit) (passOn cfg frame msg : Session σ F Unit) :=
  .bind (readsOnly_of_emits (forwardFrame_emits frame) fun _ ⟨_, he⟩ => he ▸ rfl) fun _ =>
    .ite (relayUntilReady_keeps relayKeeps_readsOnly cfg) (.pure _)

variable [Runtime F] [Parser]

theorem explainPreflight_readsOnly (ceiling : ExplainCeiling F) {sql : String}
    (hc : isExplain sql = false → c) :
    Triple (WaitsOnly c old (explainUnit sql))
      (explainPreflight ceiling sql : Session σ F (Option PendingError))
      (fun _ => ReadsOnly c old (explainUnit sql)) (ReadsOnly c old (explainUnit sql)) := by
  refine .ite (fun _ => .pure fun s hs => hs.1) fun hplain => ?_
  have hrun : ∀ s, WaitsOnly c old (explainUnit sql) s → ReadsOnly c old (explainUnit sql)
      ((runExplainOnBackend sql : Session σ F (Except String (Option String))) s).2 :=
    runExplainOnBackend_readsOnly (hc (by simpa using hplain)) sql
  refine .bind (Keeps.triple_of hrun) fun _ => .bind (Keeps.self (.lift _)) fun decision =>
    .bind (Keeps.self (readsOnly_of_emits (note_emits _) fun _ he => he ▸ rfl)) fun _ => ?_
  cases decision with
  | within estimate => exact Keeps.self (.pure _)
  | exceeded dim estimate =>
      exact Keeps.self (.bind (relayKeeps_readsOnly.record _) fun _ => .pure _)
  | failClosed reason =>
      exact Keeps.self (.bind (relayKeeps_readsOnly.record _) fun _ => .pure _)

/-- The frame is a `Parse` whose statement is planned. -/
def planned (frame : RawFrame) : Bool :=
  match FrontendMessage.decode frame with
  | .ok (.parse _ sql _) =>
      match gateSql sql with
      | .allow _ => !isExplain sql
      | _ => false
  | _ => false

omit [Outside σ] [Runtime F] in
/-- Only a `Parse` has a statement to plan. -/
theorem gate_allow_some {msg : FrontendMessage} {sql : String} (h : gate msg = .allow (some sql)) :
    ∃ statement paramTypes, msg = .parse statement sql paramTypes ∧
      gateSql sql = .allow (some sql) := by
  unfold gate at h
  split at h
  · cases h
  · cases h
  · split at h
    · rename_i statement sql' paramTypes _
      have hgate : gate (.parse statement sql' paramTypes) = .allow (some sql) := h
      have hsql : some sql = some sql' := (gate_allow_parse hgate rfl).1
      cases hsql
      exact ⟨statement, paramTypes, rfl, h⟩
    · cases h

theorem handleMessage_readsOnly (cfg : Config F) {frame : RawFrame} {msg : FrontendMessage}
    (hdecode : FrontendMessage.decode frame = .ok msg) (hc : planned frame = true → c) :
    Triple (WaitsOnly c old (explainUnitOf frame))
      (handleMessage cfg frame msg : Session σ F (Option PendingError))
      (fun _ => ReadsOnly c old (explainUnitOf frame))
      (ReadsOnly c old (explainUnitOf frame)) := by
  have hrecord (entry : AuditEntry) : Keeps (ReadsOnly c old (explainUnitOf frame))
      (record entry : Session σ F Unit) := relayKeeps_readsOnly.record entry
  unfold handleMessage
  cases hgate : gate msg with
  | allow statement =>
      have hclear : Triple (WaitsOnly c old (explainUnitOf frame))
          (clearStatement cfg statement : Session σ F (Option PendingError))
          (fun _ => ReadsOnly c old (explainUnitOf frame))
          (ReadsOnly c old (explainUnitOf frame)) := by
        cases statement with
        | none => exact .pure fun s hs => hs.1
        | some sql =>
            obtain ⟨name, paramTypes, rfl, hsql⟩ := gate_allow_some hgate
            have hunit : explainUnitOf frame = explainUnit sql := by
              simp only [explainUnitOf, hdecode]
            rw [hunit] at hrecord ⊢
            refine .bind (explainPreflight_readsOnly cfg.ceiling fun hplain => hc ?_)
              fun refused => ?_
            · simp only [planned, hdecode, hsql, hplain, Bool.not_false]
            · cases refused with
              | some err => exact Keeps.self (.pure _)
              | none => exact Keeps.self (.bind (hrecord _) fun _ => .pure _)
      refine .bind hclear fun refused => ?_
      cases refused with
      | some err => exact Keeps.self (.pure _)
      | none => exact Keeps.self (.bind (passOn_readsOnly cfg frame msg) fun _ => .pure _)
  | block sql code message =>
      exact Keeps.triple (.bind (hrecord _) fun _ => .pure _) (fun _ hs => hs.1) fun _ hs => hs
  | reject kind code message =>
      refine Keeps.triple (.bind (hrecord _) fun _ => ?_) (fun _ hs => hs.1) fun _ hs => hs
      cases kind with
      | copy => exact .pure _
      | simpleQuery =>
          exact .bind (.bind (relayKeeps_readsOnly.deliver _) fun _ =>
            relayKeeps_readsOnly.deliver _) fun _ => .pure _

theorem handleFrame_readsOnly (cfg : Config F) (frame : RawFrame) (pending : Option PendingError)
    (hc : pending = none → planned frame = true → c) :
    Triple (WaitsOnly c old (explainUnitOf frame))
      (handleFrame cfg frame pending : Session σ F (Option (Option PendingError)))
      (fun _ => ReadsOnly c old (explainUnitOf frame))
      (ReadsOnly c old (explainUnitOf frame)) := by
  have hquiet {m : Session σ F (Option (Option PendingError))}
      (hm : Keeps (ReadsOnly c old (explainUnitOf frame)) m) :
      Triple (WaitsOnly c old (explainUnitOf frame)) m
        (fun _ => ReadsOnly c old (explainUnitOf frame))
        (ReadsOnly c old (explainUnitOf frame)) :=
    hm.triple (fun _ hs => hs.1) fun _ hs => hs
  cases hdecode : FrontendMessage.decode frame with
  | error e =>
      cases pending with
      | none =>
          rw [handleFrame_malformed cfg hdecode]
          exact hquiet (.bind (relayKeeps_readsOnly.record _) fun _ => .pure _)
      | some err =>
          unfold handleFrame
          rw [hdecode]
          exact hquiet (.pure _)
  | ok msg =>
      by_cases hleave : msg = .terminate
      · unfold handleFrame
        rw [hdecode, hleave]
        exact hquiet (.pure _)
      cases pending with
      | some err =>
          rw [handleFrame_skips cfg err hdecode hleave]
          exact hquiet (.ite (.bind (.bind (relayKeeps_readsOnly.deliver _) fun _ =>
            relayKeeps_readsOnly.deliver _) fun _ => .pure _) (.pure _))
      | none =>
          rw [handleFrame_judges cfg hdecode hleave]
          exact .bind (handleMessage_readsOnly cfg hdecode (hc rfl)) fun _ => Keeps.self (.pure _)

/-! ## The whole session -/

/-- A turn plans its statement. -/
def Turn.Plans (t : Turn σ F) : Prop :=
  t.before.ended = false ∧ t.before.pending = none ∧ planned t.frame = true

/-- Where the statement is planned, every frame passed on before has been followed by a
`Sync`. -/
def Turn.PlansBetweenUnits (t : Turn σ F) : Prop := t.Plans → t.before.world.unsynced = []

/-- What a turn reads, by what waited before it. -/
theorem turn_readsOnly (cfg : Config F) (frame : RawFrame) (s : Loop σ) {e : Event F}
    (he : e ∈ (turn cfg frame s).1.events) {r : Reply} (hr : e.reads = some r) :
    (turn cfg frame s).1.Plans ∧
      Answers s.world.inbox (explainUnitOf frame) (turn cfg frame s).1.events r := by
  by_cases hended : s.ended = true
  · rw [turn_ended cfg frame hended] at he
    cases he
  have hrun : s.ended = false := by simpa using hended
  have hstart : WaitsOnly (turn cfg frame s).1.Plans s.world.inbox (explainUnitOf frame)
      (⟨s.awake, []⟩ : Logged (World σ) (Event F)) :=
    ⟨fun _ he => (by cases he), fun _ hr => .inl hr⟩
  have hplans (hpending : s.pending = none) (hplanned : planned frame = true) :
      (turn cfg frame s).1.Plans :=
    ⟨by rw [turn_before, hrun], by rw [turn_before, hpending], by rw [turn_frame, hplanned]⟩
  have hreads := Keeps.of_triple (handleFrame_readsOnly cfg frame s.pending hplans) hstart
  have hevents : (turn cfg frame s).1.events =
      (handleFrame cfg frame s.pending ⟨s.awake, []⟩).2.log := by
    rw [turn_running cfg frame hrun]
  rw [hevents] at he ⊢
  exact hreads e he r hr

/-- Whatever the turn reads off the link answers the `EXPLAIN` it has sent for its own
statement, and no frame of the agent. -/
def TurnAttributed (history : List (Turn σ F)) (t : Turn σ F) : Prop :=
  ∀ e ∈ t.events, ∀ r, e.reads = some r →
    (∃ msg ∈ explainUnitOf t.frame, .own r.answers msg ∈ t.events) ∧
      ∀ n frame, .forwarded n frame ∈ allEvents (history ++ [t]) → n ≠ r.answers

/-- Between two turns: the link is clean and the frames are numbered. -/
def AttributionInv (history : List (Turn σ F)) (s : Loop σ) : Prop :=
  (s.ended = false → s.world.Clean) ∧ AllNumbered history s

theorem turn_attributed (hprotocol : FollowsProtocol σ) (cfg : Config F)
    (history : List (Turn σ F)) (s : Loop σ) (frame : RawFrame)
    (hmet : (turn cfg frame s).1.PlansBetweenUnits) (hinv : AttributionInv history s) :
    TurnAttributed history (turn cfg frame s).1 ∧
      AttributionInv (history ++ [(turn cfg frame s).1]) (turn cfg frame s).2 := by
  have hnumbered := turn_numbered cfg frame hinv.2
  refine ⟨fun e he r hr => ?_, fun hrunning => ?_, hnumbered⟩
  · obtain ⟨hplans, hanswers⟩ := turn_readsOnly cfg frame s he hr
    have hrun : s.ended = false := by
      have h := hplans.1
      rwa [turn_before] at h
    -- Nothing waited: every frame had been followed by a `Sync`.
    have hinbox : s.world.inbox = [] := by
      have hsynced := hmet hplans
      rw [turn_before] at hsynced
      exact List.map_eq_nil_iff.mp ((hinv.1 hrun).2 hsynced)
    rw [hinbox] at hanswers
    obtain ⟨msg, hmsg, hown⟩ := hanswers.resolve_left List.not_mem_nil
    rw [turn_frame]
    refine ⟨⟨msg, hmsg, hown⟩, fun n frame' hforwarded hn => ?_⟩
    have hown' : .own r.answers msg ∈ allEvents (history ++ [(turn cfg frame s).1]) := by
      simp [allEvents, hown]
    have hsame : (.forwarded n frame' : Event F) = .own r.answers msg :=
      serial_unique hnumbered hforwarded hown' rfl (by rw [hn]; rfl)
    cases hsame
  · by_cases hended : s.ended = true
    · rw [turn_ended cfg frame hended] at hrunning
      exact absurd (hended.symm.trans hrunning) (by decide)
    have hrun : s.ended = false := by simpa using hended
    exact (turn_link hprotocol cfg frame hrun (hinv.1 hrun) hrunning).clean

/-- Over every session in which a `Parse` is planned only between two units, a preflight
reads the answers to its own `EXPLAIN` and nothing else. -/
theorem queryLoop_attributed (hprotocol : FollowsProtocol σ) (cfg : Config F)
    (frames : List RawFrame) (outside : σ)
    (hmet : ∀ t ∈ (queryLoop cfg frames (Loop.start cfg outside [])).1, t.PlansBetweenUnits) :
    History.EveryStep TurnAttributed (queryLoop cfg frames (Loop.start cfg outside [])).1 := by
  have hstart : AttributionInv ([] : List (Turn σ F)) (Loop.start cfg outside []) :=
    ⟨fun _ => start_clean cfg outside, rfl⟩
  have hsteps : History.EveryStep (fun _ t => t.PlansBetweenUnits)
      (History.run (turn cfg) frames (Loop.start cfg outside [])).1 :=
    History.everyStep_iff_forall.mpr hmet
  exact (History.run_rule_where (turn cfg) AttributionInv (fun _ => True)
    (fun _ t => t.PlansBetweenUnits) TurnAttributed
    (fun history s frame _ hmet hinv => turn_attributed hprotocol cfg history s frame hmet hinv)
    hstart (fun _ _ => trivial) hsteps).2

end

/-! ## Two sessions over the small backend -/

/-- Two statements, each in a unit of its own. -/
def unitsApart : List RawFrame :=
  [parseFrame "" "SELECT 1", bindFrame "" "", executeFrame "", syncFrame,
    parseFrame "s" "SELECT 2", syncFrame]

/-- A second statement before the `Sync` of the first. -/
def unitPipelined : List RawFrame :=
  [parseFrame "" "SELECT 1", bindFrame "" "", executeFrame "", parseFrame "s" "SELECT 2", syncFrame]

/-- Each statement is planned after a `Sync`, and so from its own plan. -/
theorem queryLoop_attributed_small :
    History.EveryStep TurnAttributed (smallRun unitsApart) := by
  let _ := Outside.still
  let _ := Database.oneRow
  let _ := Runtime.hundredths
  let _ := Parser.small
  have hmet : ∀ t ∈ smallRun unitsApart, t.PlansBetweenUnits := by
    unfold Turn.PlansBetweenUnits Turn.Plans
    decide +kernel
  exact queryLoop_attributed (followsProtocol_pg Unit) Config.small unitsApart (PgSession.start, ())
    hmet

/-- The event takes an answer for the plan that answers no message of these events. -/
def Event.misreads (es : List (Event F)) : Event F → Bool
  | .planLine r =>
      !es.any fun e =>
        match e with
        | .own n _ => n == r.answers
        | _ => false
  | _ => false

/-- The row the first statement returned is taken for the plan of the second. -/
theorem queryLoop_misattributed :
    letI := Outside.still
    letI := Database.oneRow
    FollowsProtocol (PgSession × Unit) ∧
      ¬ History.EveryStep TurnAttributed (smallRun unitPipelined) := by
  let _ := Outside.still
  let _ := Database.oneRow
  refine ⟨followsProtocol_pg Unit, fun h => ?_⟩
  have hmisread : ∃ t ∈ smallRun unitPipelined, ∃ e ∈ t.events, e.misreads t.events = true := by
    decide +kernel
  obtain ⟨t, ht, e, he, hmisread⟩ := hmisread
  obtain ⟨history, rest, hrun⟩ := List.append_of_mem ht
  cases e with
  | planLine r =>
      obtain ⟨⟨msg, -, hown⟩, -⟩ := h history t rest hrun _ he r rfl
      simp only [Event.misreads, Bool.not_eq_true', List.any_eq_false] at hmisread
      have hnone := hmisread _ hown
      simp at hnone
  | _ => cases hmisread

end PgBrakes.Ports.Proxy
