import PgBrakes.Ports.ProxyPreflight

/-!
# Nothing reaches the backend past the gate

A frame of the agent is passed on in one place only.  Before it gets there it has
been decoded, its tag and its statement have been judged, the statement has been
planned within the ceiling and recorded as allowed.  A frame that is blocked leaves
a refusal behind, and while one waits nothing is passed on.  Of its own the proxy sends
the `EXPLAIN` of a statement, and only of one that the gate takes for a read.

## Main results

* `queryLoop_gated` — both, over every session: whatever the agent sends, whatever the
  backend answers, and wherever the session ends.
* `turn_sends` — what the proxy sends of its own in a turn.
-/

namespace PgBrakes.Ports.Proxy

open PgBrakes.Ports.ExplainGate
open PgBrakes.Ports.ReadAst (Parser)
open PgBrakes.Ports.ReadGate
open PgBrakes.Ports.Wire
open PgBrakes.Verified.Effect
open PgBrakes.Verified

variable {σ F : Type}

/-! ## Events that matter to the gate -/

/-- The event passes a frame of the agent on. -/
def Event.forwards : Event F → Bool
  | .forwarded _ _ => true
  | _ => false

/-- The event is a verdict against a statement. -/
def Event.refuses : Event F → Bool
  | .estimated _ (.within _) => false
  | .estimated _ _ => true
  | _ => false

/-- The event passes no frame on, is no verdict against a statement, and sends nothing of
the proxy's own. -/
def Event.Plain (e : Event F) : Prop :=
  e.forwards = false ∧ e.refuses = false ∧ e.own? = none

/-- Nothing is passed on. -/
def NoForward (es : List (Event F)) : Prop := ∀ e ∈ es, e.forwards = false

/-- No verdict is against a statement. -/
def NoRefusal (es : List (Event F)) : Prop := ∀ e ∈ es, e.refuses = false

theorem noForward_nil : NoForward ([] : List (Event F)) := List.forall_mem_nil _

theorem noForward_cons {e : Event F} {es : List (Event F)} (he : e.forwards = false)
    (hes : NoForward es) : NoForward (e :: es) :=
  List.forall_mem_cons.mpr ⟨he, hes⟩

theorem noForward_append {es fs : List (Event F)} (hes : NoForward es) (hfs : NoForward fs) :
    NoForward (es ++ fs) :=
  List.forall_mem_append.mpr ⟨hes, hfs⟩

theorem noRefusal_cons {e : Event F} {es : List (Event F)} (he : e.refuses = false)
    (hes : NoRefusal es) : NoRefusal (e :: es) :=
  List.forall_mem_cons.mpr ⟨he, hes⟩

theorem noRefusal_nil : NoRefusal ([] : List (Event F)) := List.forall_mem_nil _

theorem noRefusal_append {es fs : List (Event F)} (hes : NoRefusal es) (hfs : NoRefusal fs) :
    NoRefusal (es ++ fs) :=
  List.forall_mem_append.mpr ⟨hes, hfs⟩

/-- The only place a frame is passed on. -/
theorem forwarded_unique {es pre post pre' post' : List (Event F)} {n n' : Nat}
    {frame frame' : RawFrame} (heq : es = pre ++ .forwarded n frame :: post)
    (hpre : NoForward pre) (hpost : NoForward post)
    (heq' : es = pre' ++ .forwarded n' frame' :: post') : pre' = pre ∧ frame' = frame := by
  have hsplit : pre ++ .forwarded n frame :: post = pre' ++ .forwarded n' frame' :: post' :=
    heq.symm.trans heq'
  rcases List.append_eq_append_iff.mp hsplit with ⟨mid, hmid, htail⟩ | ⟨mid, hmid, htail⟩
  · cases mid with
    | nil =>
        simp only [List.append_nil] at hmid
        cases htail
        exact ⟨hmid, rfl⟩
    | cons e mid =>
        have hmem : (.forwarded n' frame' : Event F) ∈ post := by
          have htail' := (List.cons.inj htail).2
          rw [htail']
          simp
        exact absurd (hpost _ hmem) (by simp [Event.forwards])
  · cases mid with
    | nil =>
        simp only [List.append_nil] at hmid
        cases htail
        exact ⟨hmid.symm, rfl⟩
    | cons e mid =>
        have hmem : (.forwarded n' frame' : Event F) ∈ pre := by
          rw [hmid, (List.cons.inj htail).1]
          simp
        exact absurd (hpre _ hmem) (by simp [Event.forwards])

/-! ## The parts of a turn -/

theorem emits_plain {α : Type} {E : Event F → Prop} {m : Session σ F α}
    (hm : Emits (OnWindow fun _ => True) E m) (h : ∀ e, E e → e.Plain) : Appends Event.Plain m :=
  hm.appends (fun _ => trivial) h

section
variable [Outside σ]

omit [Outside σ] in
theorem takeReply_plain (rest : List Reply) {e : Event F} (h : e.Plain) :
    Appends Event.Plain (takeReply rest e : Session σ F Unit) :=
  emits_plain (takeReply_emits rest e) fun _ he => he ▸ h

theorem deliver_plain (frame : RawFrame) :
    Appends Event.Plain (deliver frame : Session σ F Unit) :=
  emits_plain (deliver_emits frame) fun _ he => he ▸ ⟨rfl, rfl, rfl⟩

theorem record_plain (entry : AuditEntry) :
    Appends Event.Plain (record entry : Session σ F Unit) :=
  emits_plain (record_emits entry) fun _ he => he ▸ ⟨rfl, rfl, rfl⟩

theorem relayUntilReady_plain (cfg : Config F) :
    Appends Event.Plain (relayUntilReady cfg : Session σ F Unit) := by
  refine Appends.iff_keeps.mpr fun log => relayUntilReady_keeps
    { relayed := fun rest reply => ?_
      deliver := fun frame => Appends.iff_keeps.mp (deliver_plain frame) log
      record := fun entry => Appends.iff_keeps.mp (record_plain entry) log
      charge := fun bytes rows _ hs => hs } cfg
  exact Appends.iff_keeps.mp (takeReply_plain rest ⟨rfl, rfl, rfl⟩) log

theorem noForward_of_plain {es : List (Event F)} (h : ∀ e ∈ es, e.Plain) : NoForward es :=
  fun e he => (h e he).1

theorem noRefusal_of_plain {es : List (Event F)} (h : ∀ e ∈ es, e.Plain) : NoRefusal es :=
  fun e he => (h e he).2.1

theorem ownMessages_of_plain {es : List (Event F)} (h : ∀ e ∈ es, e.Plain) :
    ownMessages es = [] :=
  List.filterMap_eq_nil_iff.mpr fun e he => (h e he).2.2

theorem ownMessages_append (es fs : List (Event F)) :
    ownMessages (es ++ fs) = ownMessages es ++ ownMessages fs :=
  List.filterMap_append

/-- A plan passes nothing on, and is itself no verdict. -/
theorem calm_of_plan {sql : String} {es : List (Event F)}
    (h : ∀ e ∈ es, SentOf sql e ∨ e.ReadsPlan) : NoForward es ∧ NoRefusal es := by
  refine ⟨fun e he => ?_, fun e he => ?_⟩
  · rcases h e he with ⟨n, msg, -, rfl⟩ | ⟨reply, rfl⟩ | ⟨reply, rfl⟩
    · rfl
    · rfl
    · rfl
  · rcases h e he with ⟨n, msg, -, rfl⟩ | ⟨reply, rfl⟩ | ⟨reply, rfl⟩
    · rfl
    · rfl
    · rfl

theorem passOn_traces (cfg : Config F) (frame : RawFrame) (msg : FrontendMessage) :
    Traces (fun _ => True)
      (fun _ es => es = [] ∨ ∃ n post, es = .forwarded n frame :: post ∧ ∀ e ∈ post, e.Plain)
      (passOn cfg frame msg : Session σ F Unit) := by
  refine .emit_bind (forwardFrame_emits (J := fun _ => True) frame) (fun _ => .inl rfl)
    fun _ e he => ?_
  obtain ⟨n, rfl⟩ := he
  refine .ite (fun _ => ?_) fun _ => .pure (.inr ⟨n, [], rfl, List.forall_mem_nil _⟩)
  exact (Traces.of_appends (relayUntilReady_plain cfg)).mono
    fun _ post hpost => .inr ⟨n, post, rfl, hpost⟩

variable [Runtime F] [Parser]

/-- A preflight passes nothing on and sends no more than the `EXPLAIN` of the statement; one
that lets the statement pass has found it to be an `EXPLAIN` itself or planned it within the
ceiling, and no verdict was against it. -/
structure Preflighted (ceiling : ExplainCeiling F) (sql : String)
    (r : Except SessionError (Option PendingError)) (es : List (Event F)) : Prop where
  held : NoForward es
  sent : ownMessages es = [] ∨
    isExplain sql = false ∧ ownMessages es <+: extendedUnit (explainWrap sql)
  passed : r = .ok none →
    NoRefusal es ∧ (isExplain sql = true ∧ es = [] ∨ Planned ceiling sql es)

theorem explainPreflight_traces (ceiling : ExplainCeiling F) (sql : String) :
    Traces (fun _ => True) (Preflighted ceiling sql)
      (explainPreflight ceiling sql : Session σ F (Option PendingError)) := by
  refine .ite (fun hexplain => .pure ⟨noForward_nil, .inl rfl, fun _ => ⟨noRefusal_nil,
    .inl ⟨hexplain, rfl⟩⟩⟩) fun hexplain => ?_
  have hstatement : isExplain sql = false := by simpa using hexplain
  -- Behind the plan nothing more is sent.
  have hsent {es fs : List (Event F)} (hes : ownMessages es <+: extendedUnit (explainWrap sql))
      (hfs : ownMessages fs = []) : ownMessages (es ++ fs) = [] ∨
        isExplain sql = false ∧ ownMessages (es ++ fs) <+: extendedUnit (explainWrap sql) := by
    refine .inr ⟨hstatement, ?_⟩
    rw [ownMessages_append, hfs, List.append_nil]
    exact hes
  refine .bind (runExplainOnBackend_traces sql) (fun _ es hes =>
    ⟨(calm_of_plan hes.1).1, .inr ⟨hstatement, hes.2.1⟩, fun h => by cases h⟩)
    fun outcome es hes => ?_
  obtain ⟨hplan, hunit, houtcome⟩ := hes
  obtain ⟨hquiet, hcalm⟩ := calm_of_plan hplan
  refine .bind (P := fun r fs => fs = [] ∧ r = estimateDecision ceiling outcome) (.lift ⟨rfl, rfl⟩)
    (fun _ fs hfs => ?_) fun decision fs hfs => ?_
  · obtain ⟨rfl, -⟩ := hfs
    exact ⟨by rw [List.append_nil]; exact hquiet, hsent hunit rfl, fun h => by cases h⟩
  obtain ⟨rfl, hdecision⟩ := hfs
  refine .emit_bind (note_emits (J := fun _ => True) _)
    (fun _ => ⟨by simpa using hquiet, hsent hunit rfl, fun h => by cases h⟩) fun _ e he => ?_
  subst he
  have hnoted : NoForward (es ++ ([] ++ [.estimated sql decision])) :=
    noForward_append hquiet (noForward_cons rfl noForward_nil)
  -- A refusal is put on record and handed on.
  have hrefused (entry : AuditEntry) (err : PendingError) :
      Traces (fun _ => True)
        (fun r fs => Preflighted ceiling sql r (es ++ ([] ++ .estimated sql decision :: fs)))
        (record entry >>= fun _ => pure (some err) : Session σ F (Option PendingError)) := by
    refine .emit_bind (record_emits (J := fun _ => True) _)
      (fun _ => ⟨hnoted, hsent hunit rfl, fun h => by cases h⟩) fun _ e he => ?_
    subst he
    exact .pure ⟨noForward_append hquiet (noForward_cons rfl (noForward_cons rfl noForward_nil)),
      hsent hunit rfl, fun h => by cases h⟩
  cases decision with
  | within estimate =>
      refine .pure ⟨hnoted, hsent hunit rfl, fun _ =>
        ⟨noRefusal_append hcalm (noRefusal_cons rfl noRefusal_nil), .inr ?_⟩⟩
      obtain ⟨asked, answers, rfl, hasked, hreads, hready, rfl⟩ := houtcome outcome rfl
      exact ⟨asked, answers, estimate, by simp, hasked, hreads, hready, hdecision.symm,
        inside_of_decision hdecision.symm⟩
  | exceeded dim estimate => exact hrefused _ _
  | failClosed reason => exact hrefused _ _

/-- The statement is an `EXPLAIN` that only plans. -/
def PlanOnlyExplain (sql : String) : Prop :=
  ∃ options inner, Parser.parseSql sql = .ok [.explain false options inner] ∧
    explainOptionsPlanOnly options = true

omit [Outside σ] [Runtime F] in
/-- An `EXPLAIN` among the reads only plans. -/
theorem planOnlyExplain_of_read {sql : String} (hread : classify sql = .read)
    (hexplain : isExplain sql = true) : PlanOnlyExplain sql := by
  obtain ⟨stmt, hparse, hstmt⟩ := classify_read hread
  rw [isExplain, hparse] at hexplain
  cases stmt with
  | query q => simp at hexplain
  | refused kind nodes => simp [isReadStatement] at hstmt
  | explain analyze options inner =>
      simp only [isReadStatement, Bool.and_eq_true, Bool.not_eq_true'] at hstmt
      rw [hstmt.2.1] at hparse
      exact ⟨options, inner, hparse, hstmt.2.2.1⟩

/-- What was done for a statement before its `Parse` is passed on: nothing but to plan it,
unless it only plans itself, and to put it on record. -/
def Cleared (ceiling : ExplainCeiling F) (sql : String) (es : List (Event F)) : Prop :=
  ∃ planned, es = planned ++ [.audited ⟨sql, .allow, "ok", none⟩] ∧
    (isExplain sql = true ∧ planned = [] ∨ Planned ceiling sql planned)

/-- Nothing was sent of the proxy's own but the `EXPLAIN` of the statement. -/
def SendsPlanOf (statement : Option String) (es : List (Event F)) : Prop :=
  ownMessages es = [] ∨ ∃ sql, statement = some sql ∧ isExplain sql = false ∧
    ownMessages es <+: extendedUnit (explainWrap sql)

omit [Outside σ] [Runtime F] in
theorem SendsPlanOf.append {statement : Option String} {es fs : List (Event F)}
    (h : SendsPlanOf statement es) (hfs : ownMessages fs = []) :
    SendsPlanOf statement (es ++ fs) := by
  unfold SendsPlanOf
  rw [ownMessages_append, hfs, List.append_nil]
  exact h

theorem clearStatement_traces (cfg : Config F) (statement : Option String) :
    Traces (fun _ => True)
      (fun r es => NoForward es ∧ SendsPlanOf statement es ∧
        (r = .ok none → NoRefusal es ∧ ∀ sql, statement = some sql → Cleared cfg.ceiling sql es))
      (clearStatement cfg statement : Session σ F (Option PendingError)) := by
  cases statement with
  | none => exact .pure ⟨noForward_nil, .inl rfl, fun _ => ⟨noRefusal_nil, fun sql h => by cases h⟩⟩
  | some sql =>
      have hplan {r : Except SessionError (Option PendingError)} {es : List (Event F)}
          (hes : Preflighted cfg.ceiling sql r es) : SendsPlanOf (some sql) es :=
        hes.sent.imp_right fun hsent => ⟨sql, rfl, hsent⟩
      refine .bind (explainPreflight_traces cfg.ceiling sql)
        (fun _ _ hes => ⟨hes.held, hplan hes, fun h => by cases h⟩) fun refused es hes => ?_
      cases refused with
      | some err =>
          refine .pure ⟨?_, ?_, fun h => by cases h⟩
          · rw [List.append_nil]
            exact hes.held
          · rw [List.append_nil]
            exact hplan hes
      | none =>
          have hplanned := hes.passed rfl
          refine .emit_bind (record_emits (J := fun _ => True) _)
            (fun _ => ⟨?_, ?_, fun h => by cases h⟩) fun _ e he => ?_
          · rw [List.append_nil]
            exact hes.held
          · rw [List.append_nil]
            exact hplan hes
          subst he
          refine .pure ⟨?_, ?_, fun _ => ⟨?_, ?_⟩⟩
          · exact noForward_append hes.held (noForward_cons rfl noForward_nil)
          · exact (hplan hes).append rfl
          · exact noRefusal_append hplanned.1 (noRefusal_cons rfl noRefusal_nil)
          · intro sql' hsql
            cases hsql
            exact ⟨es, rfl, hplanned.2⟩

/-! ## A turn -/

/-- The frame is refused for what it is, before anything is planned. -/
def blockedByGate (frame : RawFrame) : Bool :=
  match FrontendMessage.decode frame with
  | .error _ => true
  | .ok msg =>
      match gate msg with
      | .allow _ => false
      | .block _ _ _ => true
      | .reject .copy _ _ => true
      | .reject .simpleQuery _ _ => false

/-- What has happened in the turn before a frame is passed on.  It decodes, its tag is not
one of the refused ones, and the statement of a `Parse` is a read.  Its turn has begun with
the plan of the statement on the backend, within the ceiling, unless the statement only
plans itself, and the entry of the audit trail that allows it comes last. -/
def PassedGate (ceiling : ExplainCeiling F) (frame : RawFrame) (before : List (Event F)) : Prop :=
  ∃ msg, FrontendMessage.decode frame = .ok msg ∧
    frame.tag ∉ [tagQuery, tagCopyData, tagCopyDone, tagCopyFail] ∧
    ∀ statement sql paramTypes, msg = .parse statement sql paramTypes →
      gate msg = .allow (some sql) ∧ classify sql = .read ∧
        ∃ planned, before = planned ++ [.audited ⟨sql, .allow, "ok", none⟩] ∧
          (PlanOnlyExplain sql ∧ planned = [] ∨ Planned ceiling sql planned)

/-- The frame is passed on once, past the gate. -/
def Passed (ceiling : ExplainCeiling F) (frame : RawFrame) (es : List (Event F)) : Prop :=
  ∃ pre n post, es = pre ++ .forwarded n frame :: post ∧ NoForward pre ∧ NoForward post ∧
    NoRefusal es ∧ blockedByGate frame = false ∧ PassedGate ceiling frame pre

/-- Of the proxy's own nothing was sent in the turn of a frame but the `EXPLAIN` of its
statement, and that only where the gate takes the statement for a read and it is no `EXPLAIN`
itself. -/
def SendsPlan (frame : RawFrame) (es : List (Event F)) : Prop :=
  ownMessages es = [] ∨ ∃ statement sql paramTypes,
    FrontendMessage.decode frame = .ok (.parse statement sql paramTypes) ∧
      classify sql = .read ∧ isExplain sql = false ∧
      ownMessages es <+: extendedUnit (explainWrap sql)

omit [Outside σ] [Runtime F] in
/-- The tag of an allowed message is none of the refused ones. -/
theorem gate_allow_tag {msg : FrontendMessage} {statement : Option String}
    (h : gate msg = .allow statement) :
    msg.tag ∉ [tagQuery, tagCopyData, tagCopyDone, tagCopyFail] := by
  have htag : classifyFrontendTag msg.tag = .ok () := by
    unfold gate at h
    split at h
    · cases h
    · cases h
    · assumption
  unfold classifyFrontendTag at htag
  split at htag
  · cases htag
  · split at htag
    · cases htag
    · simp_all

omit [Outside σ] [Runtime F] in
/-- The statement of an allowed `Parse` is the one that is planned, and a read. -/
theorem gate_allow_parse {msg : FrontendMessage} {planned : Option String}
    {statement sql : String} {paramTypes : List Int32} (h : gate msg = .allow planned)
    (hmsg : msg = .parse statement sql paramTypes) :
    planned = some sql ∧ classify sql = .read := by
  subst hmsg
  have hgate : gate (.parse statement sql paramTypes) = gateSql sql := rfl
  rw [hgate, gateSql] at h
  split at h
  · rename_i hclass
    exact ⟨(GateDecision.allow.inj h).symm, by rw [classify, hclass]⟩
  · cases h

omit [Outside σ] [Runtime F] in
/-- Only a `Parse` has a statement to be planned. -/
theorem parse_of_planned {msg : FrontendMessage} {sql : String}
    (h : gate msg = .allow (some sql)) :
    ∃ statement paramTypes, msg = .parse statement sql paramTypes ∧ classify sql = .read := by
  have hother (hgate : gate msg = .allow none ∨ ∃ kind code message,
      gate msg = .reject kind code message) : False := by
    rcases hgate with hgate | ⟨kind, code, message, hgate⟩
    · rw [hgate] at h
      cases h
    · rw [hgate] at h
      cases h
  cases msg with
  | parse statement sql' paramTypes =>
      have hplanned := gate_allow_parse h rfl
      cases hplanned.1
      exact ⟨statement, paramTypes, rfl, hplanned.2⟩
  | query sql' => exact (hother (.inr ⟨_, _, _, rfl⟩)).elim
  | copyData data => exact (hother (.inr ⟨_, _, _, rfl⟩)).elim
  | copyDone => exact (hother (.inr ⟨_, _, _, rfl⟩)).elim
  | copyFail reason => exact (hother (.inr ⟨_, _, _, rfl⟩)).elim
  | _ => exact (hother (.inl rfl)).elim

omit [Outside σ] [Runtime F] in
theorem sendsPlan_of_statement {frame : RawFrame} {msg : FrontendMessage}
    {statement : Option String} {es : List (Event F)}
    (hdecode : FrontendMessage.decode frame = .ok msg) (hgate : gate msg = .allow statement)
    (h : SendsPlanOf statement es) : SendsPlan frame es := by
  rcases h with hnone | ⟨sql, rfl, hexplain, hunit⟩
  · exact .inl hnone
  · obtain ⟨name, paramTypes, rfl, hread⟩ := parse_of_planned hgate
    exact .inr ⟨name, sql, paramTypes, hdecode, hread, hexplain, hunit⟩

/-- An allowed frame whose statement is cleared has passed the gate. -/
theorem passedGate_of_cleared {ceiling : ExplainCeiling F} {frame : RawFrame}
    {msg : FrontendMessage} {statement : Option String} {es : List (Event F)}
    (hdecode : FrontendMessage.decode frame = .ok msg) (hgate : gate msg = .allow statement)
    (hcleared : ∀ sql, statement = some sql → Cleared ceiling sql es) :
    PassedGate ceiling frame es := by
  refine ⟨msg, hdecode, ?_, ?_⟩
  · rw [decode_tag hdecode]
    exact gate_allow_tag hgate
  · intro name sql paramTypes hmsg
    obtain ⟨hstatement, hread⟩ := gate_allow_parse hgate hmsg
    obtain ⟨planned, hes, hplanned⟩ := hcleared sql hstatement
    refine ⟨hstatement ▸ hgate, hread, planned, hes, ?_⟩
    rcases hplanned with ⟨hexplain, hnone⟩ | hplanned
    · exact .inl ⟨planOnlyExplain_of_read hread hexplain, hnone⟩
    · exact .inr hplanned

/-- What a message leaves in the log: it is passed on past the gate or not at all, nothing
but its plan is sent, and where it leaves no refusal behind there was no reason for one. -/
structure Handled (ceiling : ExplainCeiling F) (frame : RawFrame)
    (refused : Except SessionError (Option PendingError)) (es : List (Event F)) : Prop where
  ways : NoForward es ∨ Passed ceiling frame es
  sent : SendsPlan frame es
  calm : refused = .ok none → NoRefusal es ∧ blockedByGate frame = false

theorem handleMessage_traces (cfg : Config F) {frame : RawFrame} {msg : FrontendMessage}
    (hdecode : FrontendMessage.decode frame = .ok msg) :
    Traces (fun _ => True) (Handled cfg.ceiling frame)
      (handleMessage cfg frame msg : Session σ F (Option PendingError)) := by
  unfold handleMessage
  cases hgate : gate msg with
  | allow statement =>
      have hfree : blockedByGate frame = false := by simp only [blockedByGate, hdecode, hgate]
      have hplan {es : List (Event F)} (hes : SendsPlanOf statement es) : SendsPlan frame es :=
        sendsPlan_of_statement hdecode hgate hes
      refine .bind (clearStatement_traces cfg statement)
        (fun _ es hes => ⟨.inl hes.1, hplan hes.2.1, fun h => by cases h⟩) fun refused es hes => ?_
      cases refused with
      | some err =>
          refine .pure ⟨.inl ?_, ?_, fun h => by cases h⟩
          · rw [List.append_nil]
            exact hes.1
          · rw [List.append_nil]
            exact hplan hes.2.1
      | none =>
          obtain ⟨hcalm, hcleared⟩ := hes.2.2 rfl
          -- The events of the frame on its way, after those that cleared its statement.
          have hpassed : ∀ post, (∀ e ∈ post, e.Plain) → ∀ n,
              NoRefusal (es ++ .forwarded n frame :: post) ∧
                SendsPlan frame (es ++ .forwarded n frame :: post) ∧
                Passed cfg.ceiling frame (es ++ .forwarded n frame :: post) := by
            intro post hpost n
            have hcalm' : NoRefusal (es ++ .forwarded n frame :: post) :=
              noRefusal_append hcalm (noRefusal_cons rfl (noRefusal_of_plain hpost))
            have hown : ownMessages (.forwarded n frame :: post) = [] :=
              (ownMessages_of_plain hpost : ownMessages post = [])
            exact ⟨hcalm', hplan (hes.2.1.append hown), es, n, post, rfl, hes.1,
              noForward_of_plain hpost, hcalm', hfree,
              passedGate_of_cleared hdecode hgate hcleared⟩
          refine .bind (passOn_traces cfg frame msg) ?_ ?_
          · rintro err fs (rfl | ⟨n, post, rfl, hpost⟩)
            · refine ⟨.inl ?_, ?_, fun h => by cases h⟩
              · rw [List.append_nil]
                exact hes.1
              · rw [List.append_nil]
                exact hplan hes.2.1
            · obtain ⟨-, hsent, hpast⟩ := hpassed post hpost n
              exact ⟨.inr hpast, hsent, fun h => by cases h⟩
          · rintro _ fs (rfl | ⟨n, post, rfl, hpost⟩)
            · refine .pure ?_
              simp only [List.append_nil]
              exact ⟨.inl hes.1, hplan hes.2.1, fun _ => ⟨hcalm, hfree⟩⟩
            · obtain ⟨hcalm', hsent, hpast⟩ := hpassed post hpost n
              refine .pure ?_
              rw [List.append_nil]
              exact ⟨.inr hpast, hsent, fun _ => ⟨hcalm', hfree⟩⟩
  | block sql code message =>
      refine .emit_bind (record_emits (J := fun _ => True) _)
        (fun _ => ⟨.inl noForward_nil, .inl rfl, fun h => by cases h⟩) fun _ e he => ?_
      subst he
      exact .pure ⟨.inl (noForward_cons rfl noForward_nil), .inl rfl, fun h => by cases h⟩
  | reject kind code message =>
      refine .emit_bind (record_emits (J := fun _ => True) _)
        (fun _ => ⟨.inl noForward_nil, .inl rfl, fun h => by cases h⟩) fun _ e he => ?_
      subst he
      cases kind with
      | copy =>
          exact .pure ⟨.inl (noForward_cons rfl noForward_nil), .inl rfl, fun h => by cases h⟩
      | simpleQuery =>
          have hfree : blockedByGate frame = false := by simp only [blockedByGate, hdecode, hgate]
          have hplain : Appends Event.Plain
              (sendErrorThenReady "0A000" message >>= fun _ => pure none :
                Session σ F (Option PendingError)) :=
            .bind (.bind (deliver_plain _) fun _ => deliver_plain _) fun _ => .pure _
          refine (Traces.of_appends hplain).mono fun r es hes =>
            ⟨.inl ?_, .inl ?_, fun _ => ⟨?_, hfree⟩⟩
          · exact noForward_cons rfl (noForward_of_plain hes)
          · exact (ownMessages_of_plain hes : ownMessages es = [])
          · exact noRefusal_cons rfl (noRefusal_of_plain hes)

/-- What a frame leaves in the log.  While a refusal waits nothing is passed on or planned,
and only a `Sync` takes it away; without one, the frame is judged. -/
structure FrameHandled (ceiling : ExplainCeiling F) (frame : RawFrame)
    (pending : Option PendingError) (next : Except SessionError (Option (Option PendingError)))
    (es : List (Event F)) : Prop where
  ways : NoForward es ∨ pending = none ∧ Passed ceiling frame es
  sent : ownMessages es = [] ∨ pending = none ∧ SendsPlan frame es
  calm : next = .ok (some none) → NoRefusal es ∧ blockedByGate frame = false ∧
    (pending.isSome → FrontendMessage.decode frame = .ok .sync)

/-- A swallowed frame. -/
theorem frameHandled_swallowed {ceiling : ExplainCeiling F} {frame : RawFrame}
    {pending : Option PendingError} {next : Except SessionError (Option (Option PendingError))}
    (h : next ≠ .ok (some none)) :
    FrameHandled ceiling frame pending next ([] : List (Event F)) :=
  ⟨.inl noForward_nil, .inl rfl, fun hnext => absurd hnext h⟩

theorem handleFrame_traces (cfg : Config F) (frame : RawFrame) (pending : Option PendingError) :
    Traces (fun _ => True) (FrameHandled cfg.ceiling frame pending)
      (handleFrame cfg frame pending : Session σ F (Option (Option PendingError))) := by
  cases hdecode : FrontendMessage.decode frame with
  | error e =>
      cases pending with
      | none =>
          rw [handleFrame_malformed cfg hdecode]
          refine .emit_bind (record_emits (J := fun _ => True) _)
            (fun _ => frameHandled_swallowed nofun) fun _ e he => ?_
          subst he
          exact .pure ⟨.inl (noForward_cons rfl noForward_nil), .inl rfl, fun h => by cases h⟩
      | some err =>
          unfold handleFrame
          rw [hdecode]
          exact .pure (frameHandled_swallowed nofun)
  | ok msg =>
      by_cases hleave : msg = .terminate
      · unfold handleFrame
        rw [hdecode, hleave]
        exact .pure (frameHandled_swallowed nofun)
      cases pending with
      | some err =>
          rw [handleFrame_skips cfg err hdecode hleave]
          refine .ite (fun hsync => ?_) fun _ => .pure (frameHandled_swallowed nofun)
          subst hsync
          have hplain : Appends Event.Plain
              (sendErrorThenReady err.code err.message >>= fun _ => pure (some none) :
                Session σ F (Option (Option PendingError))) :=
            .bind (.bind (deliver_plain _) fun _ => deliver_plain _) fun _ => .pure _
          refine (Traces.of_appends hplain).mono fun r es hes =>
            ⟨.inl (noForward_of_plain hes), .inl (ownMessages_of_plain hes),
              fun _ => ⟨noRefusal_of_plain hes, ?_, fun _ => hdecode⟩⟩
          rw [blockedByGate, hdecode]
          rfl
      | none =>
          rw [handleFrame_judges cfg hdecode hleave]
          refine .bind (handleMessage_traces cfg hdecode) ?_ ?_
          · rintro err es ⟨hways, hsent, -⟩
            exact ⟨hways.imp_right fun hpassed => ⟨rfl, hpassed⟩, .inr ⟨rfl, hsent⟩,
              fun h => by cases h⟩
          · rintro refused es ⟨hways, hsent, hcalm⟩
            refine .pure ?_
            rw [List.append_nil]
            refine ⟨hways.imp_right fun hpassed => ⟨rfl, hpassed⟩, .inr ⟨rfl, hsent⟩,
              fun h => ?_⟩
            cases h
            exact ⟨(hcalm rfl).1, (hcalm rfl).2, nofun⟩

/-! ## The whole session -/

/-- A frame that was refused while the session ran: for what it is, or for its plan. -/
def Turn.Blocked (t : Turn σ F) : Prop :=
  t.before.ended = false ∧ (blockedByGate t.frame = true ∨ ¬ NoRefusal t.events)

/-- The turn took a `Sync` of the agent. -/
def Turn.Syncs (t : Turn σ F) : Prop := FrontendMessage.decode t.frame = .ok .sync

/-- Every blocked frame has a `Sync` behind it. -/
def AllFlushed (history : List (Turn σ F)) : Prop :=
  ∀ older blocked newer, history = older ++ blocked :: newer → blocked.Blocked →
    ∃ t ∈ newer, t.Syncs

omit [Outside σ] [Runtime F] in
theorem Turn.not_blocked {t : Turn σ F} (hfree : blockedByGate t.frame = false)
    (hquiet : NoRefusal t.events) : ¬ t.Blocked := by
  rintro ⟨-, hblocked | hrefused⟩
  · rw [hfree] at hblocked
    cases hblocked
  · exact hrefused hquiet

omit [Outside σ] [Runtime F] in
/-- A turn that was not blocked leaves nothing to flush, and a `Sync` flushes whatever
was blocked before it. -/
theorem allFlushed_snoc {history : List (Turn σ F)} {t : Turn σ F} (ht : ¬ t.Blocked)
    (hflushed : t.Syncs ∨ AllFlushed history) : AllFlushed (history ++ [t]) := by
  intro older blocked newer heq hblocked
  rcases List.eq_nil_or_concat newer with rfl | ⟨init, last, rfl⟩
  · have hlast := List.append_inj' heq rfl
    have ht' : t = blocked := (List.cons.inj hlast.2).1
    exact absurd (ht' ▸ hblocked) ht
  · have hsplit : history ++ [t] = (older ++ blocked :: init) ++ [last] := by simpa using heq
    rw [List.concat_eq_append]
    rcases hflushed with hsyncs | hflushed
    · have hlast : t = last := (List.cons.inj (List.append_inj' hsplit rfl).2).1
      exact ⟨t, by simp [hlast], hsyncs⟩
    · obtain ⟨t', hmem, hsyncs⟩ := hflushed older blocked init (List.append_inj_left' hsplit rfl)
        hblocked
      exact ⟨t', List.mem_append_left _ hmem, hsyncs⟩

/-- While no refusal waits, every blocked frame has a `Sync` behind it. -/
def FlushedUnlessPending (history : List (Turn σ F)) (s : Loop σ) : Prop :=
  s.ended = true ∨ s.pending.isSome = true ∨ AllFlushed history

/-- The law of one turn: what it passes on is the frame of that turn, past the gate, and
nothing that was blocked still waits for its `Sync`. -/
def TurnGated (ceiling : ExplainCeiling F) (history : List (Turn σ F)) (t : Turn σ F) : Prop :=
  ∀ pre n frame post, t.events = pre ++ .forwarded n frame :: post →
    frame = t.frame ∧ PassedGate ceiling frame pre ∧ ¬ t.Blocked ∧ AllFlushed history

/-- What a running turn leaves in the log, and where it ends. -/
theorem turn_handled (cfg : Config F) (frame : RawFrame) {s : Loop σ} (hrun : s.ended = false) :
    ∃ next, FrameHandled cfg.ceiling frame s.pending next (turn cfg frame s).1.events ∧
      ((turn cfg frame s).2.ended = true ∨
        ∃ pending, next = .ok (some pending) ∧ (turn cfg frame s).2.pending = pending) := by
  obtain ⟨es, hlog, hhandled, -⟩ := handleFrame_traces cfg frame s.pending ⟨s.awake, []⟩ trivial
  rw [List.nil_append] at hlog
  refine ⟨(handleFrame cfg frame s.pending ⟨s.awake, []⟩).1, ?_, ?_⟩
  · rw [turn_running cfg frame hrun]
    show FrameHandled cfg.ceiling frame s.pending _
      (handleFrame cfg frame s.pending ⟨s.awake, []⟩).2.log
    rw [hlog]
    exact hhandled
  · rw [turn_running cfg frame hrun]
    simp only [Loop.next]
    split
    · rename_i pending hnext
      exact .inr ⟨pending, hnext, rfl⟩
    · exact .inl rfl
    · exact .inl rfl

/-- A frame is passed on only by a running session without a refusal. -/
theorem forwarded_running (cfg : Config F) {frame frame' : RawFrame}
    {s : Loop σ} {n : Nat} (h : .forwarded n frame' ∈ (turn cfg frame s).1.events) :
    s.ended = false ∧ s.pending = none := by
  by_cases hended : s.ended = true
  · rw [turn_ended cfg frame hended] at h
    cases h
  have hrun : s.ended = false := by simpa using hended
  obtain ⟨next, ⟨hways, -, -⟩, -⟩ := turn_handled cfg frame hrun
  rcases hways with hheld | ⟨hpending, -⟩
  · exact absurd (hheld _ h) (by simp [Event.forwards])
  · exact ⟨hrun, hpending⟩

theorem turn_gated (cfg : Config F) (history : List (Turn σ F)) (s : Loop σ) (frame : RawFrame)
    (hinv : FlushedUnlessPending history s) :
    TurnGated cfg.ceiling history (turn cfg frame s).1 ∧
      FlushedUnlessPending (history ++ [(turn cfg frame s).1]) (turn cfg frame s).2 := by
  by_cases hended : s.ended = true
  · rw [turn_ended cfg frame hended]
    exact ⟨fun pre n frame post h => by simp at h, .inl hended⟩
  have hrun : s.ended = false := by simpa using hended
  have hframe : (turn cfg frame s).1.frame = frame := turn_frame cfg frame s
  obtain ⟨next, ⟨hways, -, hcalm⟩, hafter⟩ := turn_handled cfg frame hrun
  refine ⟨?_, ?_⟩
  · intro pre n frame' post hevents
    rcases hways with hheld | ⟨hpending, pre₀, n₀, post₀, heq, hpre, hpost, hquiet, hfree, hgate⟩
    · have hmem : .forwarded n frame' ∈ (turn cfg frame s).1.events := by simp [hevents]
      exact absurd (hheld _ hmem) (by simp [Event.forwards])
    · obtain ⟨hpre', hframe'⟩ := forwarded_unique heq hpre hpost hevents
      subst hpre' hframe'
      refine ⟨hframe.symm, hgate, Turn.not_blocked (by rw [hframe, hfree]) hquiet, ?_⟩
      rcases hinv with h | h | h
      · exact absurd h hended
      · rw [hpending] at h
        cases h
      · exact h
  · rcases hafter with hend | ⟨pending, hnext, hpending⟩
    · exact .inl hend
    cases pending with
    | some err => exact .inr (.inl (by rw [hpending]; rfl))
    | none =>
        obtain ⟨hquiet, hfree, hsync⟩ := hcalm hnext
        refine .inr (.inr (allFlushed_snoc (Turn.not_blocked (by rw [hframe, hfree]) hquiet) ?_))
        rcases hinv with h | h | h
        · exact absurd h hended
        · have hsyncs : FrontendMessage.decode (turn cfg frame s).1.frame = .ok .sync := by
            rw [hframe]
            exact hsync h
          exact .inl hsyncs
        · exact .inr h

/-- What a turn sends of the proxy's own: nothing but the `EXPLAIN` of the read in its
frame, and nothing while a refusal waits. -/
def Turn.SendsPlan (t : Turn σ F) : Prop :=
  ownMessages t.events = [] ∨ t.before.pending = none ∧ Proxy.SendsPlan t.frame t.events

theorem turn_sends (cfg : Config F) (frame : RawFrame) (s : Loop σ) :
    (turn cfg frame s).1.SendsPlan := by
  by_cases hended : s.ended = true
  · rw [turn_ended cfg frame hended]
    exact .inl rfl
  obtain ⟨next, hhandled, -⟩ := turn_handled cfg frame (by simpa using hended : s.ended = false)
  rw [Turn.SendsPlan, turn_before, turn_frame]
  exact hhandled.sent

/-- Over a whole session. -/
theorem queryLoop_sends (cfg : Config F) (frames : List RawFrame) (s : Loop σ) :
    ∀ t ∈ (queryLoop cfg frames s).1, t.SendsPlan := by
  have hevery : History.EveryStep (fun _ t => t.SendsPlan) (queryLoop cfg frames s).1 :=
    (History.run_rule (turn cfg) (fun _ _ => True) (fun _ => True) _
      (fun _ s frame _ _ => ⟨turn_sends cfg frame s, trivial⟩) trivial (fun _ _ => trivial)).2
  exact History.everyStep_iff_forall.mp hevery

/-- Over every loop the turns obey the law of the gate. -/
theorem everyStep_gated (cfg : Config F) (frames : List RawFrame) (outside : σ)
    (inbox : List Reply) :
    History.EveryStep (TurnGated cfg.ceiling)
      (queryLoop cfg frames (Loop.start cfg outside inbox)).1 :=
  (History.run_rule (turn cfg) FlushedUnlessPending (fun _ => True) (TurnGated cfg.ceiling)
    (fun history s frame _ hinv => turn_gated cfg history s frame hinv)
    (.inr (.inr fun older blocked newer h => by simp at h)) (fun _ _ => trivial)).2

/-- Nothing reaches the backend past the gate: over every session, whatever the agent
sends and whatever is outside. -/
theorem queryLoop_gated (cfg : Config F) (frames : List RawFrame) (outside : σ)
    (inbox : List Reply) :
    History.EveryStep (TurnGated cfg.ceiling)
      (queryLoop cfg frames (Loop.start cfg outside inbox)).1 :=
  everyStep_gated cfg frames outside inbox

end

end PgBrakes.Ports.Proxy
