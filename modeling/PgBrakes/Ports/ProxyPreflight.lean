import PgBrakes.Ports.ProxySession

/-!
# The plan of a statement

What a preflight leaves in the log, in full: the four messages of its `EXPLAIN`, the
answers up to the first `ReadyForQuery`, and a verdict that follows from them.  A statement
counts as planned only where the answers name a plan line, and the estimate in that line is
within the ceiling of the role.

## Main results

* `drainExplain_traces` — what the answers to a plan say.
* `runExplainOnBackend_traces` — what a plan sends, and what it reads.
* `inside_of_decision` — a verdict that lets a statement pass is about an estimate within
  the ceiling.
-/

namespace PgBrakes.Ports.Proxy

open PgBrakes.Ports.ExplainGate
open PgBrakes.Ports.Wire
open PgBrakes.Verified.Effect

variable {σ F : Type}

/-! ## What the answers to a plan say -/

/-- The plan line in a row: its first column. -/
def rowText (reply : Reply) : Option String :=
  if reply.frame.tag = tagDataRow then
    match (readDataRow reply.frame.body).1 with
    | .ok (some bytes :: _) => some (fromUtf8Lossy bytes)
    | _ => none
  else none

def errorText (reply : Reply) : Option String :=
  if reply.frame.tag = tagErrorResponse then
    match (readDiagnostics reply.frame.body).1 with
    | .ok fields => some (diag fields)
    | .error _ => none
  else none

/-- The last error, or the first plan line where there is none, behind what was known
before. -/
def outcomeFrom (firstLine explainError : Option String) (replies : List Reply) :
    Except String (Option String) :=
  match (replies.filterMap errorText).getLast?.or explainError with
  | some reason => .error reason
  | none => .ok (firstLine.or (replies.filterMap rowText).head?)

/-- The outcome of a plan, from all of its answers. -/
def planOutcome (replies : List Reply) : Except String (Option String) :=
  outcomeFrom none none replies

/-- The answers end with their first `ReadyForQuery`. -/
def UpToReady (replies : List Reply) : Prop :=
  ∃ front last, replies = front ++ [last] ∧ last.frame.tag = tagReadyForQuery ∧
    ∀ reply ∈ front, reply.frame.tag ≠ tagReadyForQuery

theorem UpToReady.cons {reply : Reply} {replies : List Reply} (h : UpToReady replies)
    (htag : reply.frame.tag ≠ tagReadyForQuery) : UpToReady (reply :: replies) := by
  obtain ⟨front, last, rfl, hlast, hfront⟩ := h
  exact ⟨reply :: front, last, rfl, hlast, List.forall_mem_cons.mpr ⟨htag, hfront⟩⟩

/-- An answer without a plan line and without an error says nothing. -/
theorem outcomeFrom_skip {firstLine explainError : Option String} {reply : Reply}
    (hrow : rowText reply = none) (herror : errorText reply = none) (replies : List Reply) :
    outcomeFrom firstLine explainError (reply :: replies) =
      outcomeFrom firstLine explainError replies := by
  simp [outcomeFrom, hrow, herror]

/-- A plan line behind the first one, or behind an error, says nothing. -/
theorem outcomeFrom_late {firstLine explainError : Option String} {reply : Reply}
    (hlate : firstLine ≠ none ∨ explainError ≠ none) (herror : errorText reply = none)
    (replies : List Reply) :
    outcomeFrom firstLine explainError (reply :: replies) =
      outcomeFrom firstLine explainError replies := by
  unfold outcomeFrom
  rw [List.filterMap_cons_none herror]
  cases firstLine with
  | some line => simp
  | none =>
      cases explainError with
      | some reason => cases (replies.filterMap errorText).getLast? <;> simp
      | none => simp at hlate

theorem outcomeFrom_row {reply : Reply} {line : String} (hrow : rowText reply = some line)
    (herror : errorText reply = none) (replies : List Reply) :
    outcomeFrom none none (reply :: replies) = outcomeFrom (some line) none replies := by
  simp [outcomeFrom, hrow, herror]

theorem outcomeFrom_error {firstLine explainError : Option String} {reply : Reply}
    {reason : String} (herror : errorText reply = some reason) (replies : List Reply) :
    outcomeFrom firstLine explainError (reply :: replies) =
      outcomeFrom firstLine (some reason) replies := by
  unfold outcomeFrom
  rw [List.filterMap_cons_some herror, List.getLast?_cons]
  cases (replies.filterMap errorText).getLast? <;> simp

/-! ## The events of a plan -/

def Event.own? : Event F → Option FrontendMessage
  | .own _ msg => some msg
  | _ => none

def Event.drained? : Event F → Option Reply
  | .drained reply => some reply
  | _ => none

/-- The messages of the proxy's own. -/
def ownMessages (es : List (Event F)) : List FrontendMessage := es.filterMap Event.own?

/-- The answers read off at the end of a plan. -/
def drainedReplies (es : List (Event F)) : List Reply := es.filterMap Event.drained?

/-- The event reads an answer to a plan. -/
def Event.ReadsPlan (e : Event F) : Prop :=
  (∃ reply, e = .drained reply) ∨ ∃ reply, e = .planLine reply

/-- The messages of one statement. -/
def extendedUnit (sql : String) : List FrontendMessage :=
  [.parse "" sql [], .bind "" "" [0, 0, 0, 0, 0, 0], .execute "" 0, .sync]

/-- An event of a message of the statement. -/
def SentOf (sql : String) (e : Event F) : Prop := ∃ n, ∃ msg ∈ extendedUnit sql, e = .own n msg

/-- The messages of the statement were sent, and nothing else happened. -/
def Asked (sql : String) (es : List (Event F)) : Prop :=
  es.map Event.own? = (extendedUnit sql).map some

theorem ownMessages_of_reads {es : List (Event F)} (h : ∀ e ∈ es, e.ReadsPlan) :
    ownMessages es = [] := by
  rw [ownMessages, List.filterMap_eq_nil_iff]
  intro e he
  rcases h e he with ⟨reply, rfl⟩ | ⟨reply, rfl⟩
  · rfl
  · rfl

/-- What reading the answers to a plan leaves in the log. -/
theorem drainExplain_traces (replies : List Reply) (firstLine explainError : Option String) :
    Traces (fun _ => True)
      (fun r es => (∀ e ∈ es, e.ReadsPlan) ∧ ∀ outcome, r = .ok outcome →
        UpToReady (drainedReplies es) ∧
          outcome = outcomeFrom firstLine explainError (drainedReplies es))
      (drainExplain replies firstLine explainError :
        Session σ F (Except String (Option String))) := by
  induction replies generalizing firstLine explainError with
  | nil => exact .fail ⟨List.forall_mem_nil _, fun outcome h => by cases h⟩
  | cons reply rest ih =>
      have hread : (.drained reply : Event F).ReadsPlan := .inl ⟨reply, rfl⟩
      -- Whatever is known behind the answer, the rest is read with it.
      have hmore {firstLine' explainError' : Option String}
          (htag : reply.frame.tag ≠ tagReadyForQuery)
          (hknown : ∀ replies, outcomeFrom firstLine explainError (reply :: replies) =
            outcomeFrom firstLine' explainError' replies) :
          Traces (fun _ => True)
            (fun r es => (∀ e ∈ .drained reply :: es, e.ReadsPlan) ∧ ∀ outcome, r = .ok outcome →
              UpToReady (drainedReplies (.drained reply :: es)) ∧
                outcome =
                  outcomeFrom firstLine explainError (drainedReplies (.drained reply :: es)))
            (drainExplain rest firstLine' explainError' :
              Session σ F (Except String (Option String))) := by
        refine (ih firstLine' explainError').mono fun r es hes => ?_
        refine ⟨List.forall_mem_cons.mpr ⟨hread, hes.1⟩, fun outcome hr => ?_⟩
        obtain ⟨hready, houtcome⟩ := hes.2 outcome hr
        exact ⟨hready.cons htag, by rw [houtcome]; exact (hknown _).symm⟩
      have hrowTag : tagDataRow ≠ tagErrorResponse := by decide
      have hrowReady : tagDataRow ≠ tagReadyForQuery := by decide
      have herrorReady : tagErrorResponse ≠ tagReadyForQuery := by decide
      refine .emit_bind (takeReply_emits (J := fun _ => True) rest _)
        (fun _ => ⟨List.forall_mem_nil _, fun outcome h => by cases h⟩) ?_
      rintro - _ rfl
      refine .ite (fun hrow => ?_) fun hnoRow => .ite (fun herror => ?_) fun hnoError => ?_
      · obtain ⟨htag, rfl, rfl⟩ := hrow
        have hnone : errorText reply = none := by simp [errorText, htag, hrowTag]
        have hready : reply.frame.tag ≠ tagReadyForQuery := htag ▸ hrowReady
        rcases hcolumns : (readDataRow reply.frame.body).1 with e | _ | ⟨_ | bytes, columns⟩
        · exact hmore hready (outcomeFrom_skip (by simp [rowText, hcolumns]) hnone)
        · exact hmore hready (outcomeFrom_skip (by simp [rowText, hcolumns]) hnone)
        · exact hmore hready (outcomeFrom_skip (by simp [rowText, hcolumns]) hnone)
        · refine .emit_bind (note_emits (J := fun _ => True) _) (fun _ => ⟨?_, fun outcome h => by
            cases h⟩) ?_
          · exact List.forall_mem_singleton.mpr hread
          rintro - _ rfl
          have hline : rowText reply = some (fromUtf8Lossy bytes) := by
            simp [rowText, htag, hcolumns]
          refine (hmore hready (outcomeFrom_row hline hnone)).mono fun r es hes => ⟨?_, hes.2⟩
          obtain ⟨hfirst, hrest⟩ := List.forall_mem_cons.mp hes.1
          exact List.forall_mem_cons.mpr
            ⟨hfirst, List.forall_mem_cons.mpr ⟨.inr ⟨reply, rfl⟩, hrest⟩⟩
      · have hready : reply.frame.tag ≠ tagReadyForQuery := herror ▸ herrorReady
        rcases hfields : (readDiagnostics reply.frame.body).1 with e | fields
        · have hnone : errorText reply = none := by simp [errorText, hfields]
          exact hmore hready (outcomeFrom_skip
            (by simp [rowText, herror, hrowTag.symm]) hnone)
        · exact hmore hready (outcomeFrom_error (by simp [errorText, herror, hfields]))
      · refine .ite (fun hready => ?_) fun hmoreTag => ?_
        · have hskip (known : Option String) (line : Option String) :
              outcomeFrom line known [reply] = outcomeFrom line known [] :=
            outcomeFrom_skip (by simp [rowText, hready, hrowReady.symm])
              (by simp [errorText, hready, herrorReady.symm]) []
          have hend : UpToReady [reply] := ⟨[], reply, rfl, hready, List.forall_mem_nil _⟩
          cases explainError with
          | some reason =>
              refine .pure ⟨List.forall_mem_singleton.mpr hread, fun outcome h => ⟨hend, ?_⟩⟩
              cases h
              exact (hskip (some reason) firstLine).symm
          | none =>
              refine .pure ⟨List.forall_mem_singleton.mpr hread, fun outcome h => ⟨hend, ?_⟩⟩
              cases h
              refine Eq.trans ?_ (hskip none firstLine).symm
              simp [outcomeFrom]
        · have hnone : errorText reply = none := by simp [errorText, hnoError]
          by_cases htag : reply.frame.tag = tagDataRow
          · refine hmore hmoreTag (outcomeFrom_late ?_ hnone)
            by_cases hline : firstLine = none
            · exact .inr fun hcalm => hnoRow ⟨htag, hline, hcalm⟩
            · exact .inl hline
          · exact hmore hmoreTag (outcomeFrom_skip (by simp [rowText, htag]) hnone)

section
variable [Outside σ]

theorem sendExtendedUnit_traces (sql : String) :
    Traces (fun _ => True)
      (fun r es => (∀ e ∈ es, SentOf sql e) ∧ ownMessages es <+: extendedUnit sql ∧
        (r = .ok () → ∃ a b c d,
          es = [.own a (.parse "" sql []), .own b (.bind "" "" [0, 0, 0, 0, 0, 0]),
            .own c (.execute "" 0), .own d .sync]))
      (sendExtendedUnit sql : Session σ F Unit) := by
  have hparse (n : Nat) : SentOf sql (.own n (.parse "" sql []) : Event F) :=
    ⟨n, _, by simp [extendedUnit], rfl⟩
  have hbind (n : Nat) : SentOf sql (.own n (.bind "" "" [0, 0, 0, 0, 0, 0]) : Event F) :=
    ⟨n, _, by simp [extendedUnit], rfl⟩
  have hexecute (n : Nat) : SentOf sql (.own n (.execute "" 0) : Event F) :=
    ⟨n, _, by simp [extendedUnit], rfl⟩
  have hsync (n : Nat) : SentOf sql (.own n .sync : Event F) := ⟨n, _, by simp [extendedUnit], rfl⟩
  have hfront (k : Nat) : (extendedUnit sql).take k <+: extendedUnit sql := List.take_prefix k _
  refine .emit_bind (sendOwn_emits (J := fun _ => True) _)
    (fun _ => ⟨List.forall_mem_nil _, hfront 0, fun h => by cases h⟩) ?_
  rintro - _ ⟨a, rfl⟩
  refine .emit_bind (sendOwn_emits (J := fun _ => True) _)
    (fun _ => ⟨by simp [hparse], hfront 1, fun h => by cases h⟩) ?_
  rintro - _ ⟨b, rfl⟩
  refine .emit_bind (sendOwn_emits (J := fun _ => True) _)
    (fun _ => ⟨by simp [hparse, hbind], hfront 2, fun h => by cases h⟩) ?_
  rintro - _ ⟨c, rfl⟩
  refine .emit (sendOwn_emits (J := fun _ => True) _)
    (fun _ => ⟨by simp [hparse, hbind, hexecute], hfront 3, fun h => by cases h⟩) ?_
  rintro - _ ⟨d, rfl⟩
  exact ⟨by simp [hparse, hbind, hexecute, hsync], hfront 4, fun _ => ⟨a, b, c, d, rfl⟩⟩

/-- What running an `EXPLAIN` leaves in the log. -/
theorem runExplainOnBackend_traces (sql : String) :
    Traces (fun _ => True)
      (fun r es => (∀ e ∈ es, SentOf (explainWrap sql) e ∨ e.ReadsPlan) ∧
        ownMessages es <+: extendedUnit (explainWrap sql) ∧
        ∀ outcome, r = .ok outcome → ∃ asked answers, es = asked ++ answers ∧
          Asked (explainWrap sql) asked ∧ (∀ e ∈ answers, e.ReadsPlan) ∧
          UpToReady (drainedReplies answers) ∧ outcome = planOutcome (drainedReplies answers))
      (runExplainOnBackend sql : Session σ F (Except String (Option String))) := by
  refine .bind (sendExtendedUnit_traces (explainWrap sql)) (fun _ es hes =>
    ⟨fun e he => .inl (hes.1 e he), hes.2.1, fun outcome h => by cases h⟩) fun _ asked hasked => ?_
  have hsent : Asked (explainWrap sql) asked := by
    obtain ⟨a, b, c, d, rfl⟩ := hasked.2.2 rfl
    rfl
  refine .find_bind (Q := fun _ => True) (fun _ _ => ⟨_, _, rfl, trivial, trivial⟩)
    fun inbox _ => ?_
  refine (drainExplain_traces inbox none none).mono fun r answers hanswers => ⟨?_, ?_, ?_⟩
  · exact List.forall_mem_append.mpr
      ⟨fun e he => .inl (hasked.1 e he), fun e he => .inr (hanswers.1 e he)⟩
  · have hnone : ownMessages answers = [] := ownMessages_of_reads hanswers.1
    rw [ownMessages, List.filterMap_append, ← ownMessages, ← ownMessages, hnone, List.append_nil]
    exact hasked.2.1
  · intro outcome hr
    obtain ⟨hready, houtcome⟩ := hanswers.2 outcome hr
    exact ⟨asked, answers, rfl, hsent, hanswers.1, hready, houtcome⟩

end

/-! ## A statement that was planned -/

section
variable [Runtime F]

/-- The estimate is within the ceiling. -/
structure Inside (ceiling : ExplainCeiling F) (estimate : PlanEstimate F) : Prop where
  cost : Runtime.gt estimate.totalCost ceiling.maxCost = false
  rows : estimate.rows ≤ ceiling.maxRows

/-- The backend has planned the statement within the ceiling: its `EXPLAIN` was sent, the
answers were read up to the first `ReadyForQuery`, and what they say is an estimate within
the ceiling. -/
def Planned (ceiling : ExplainCeiling F) (sql : String) (es : List (Event F)) : Prop :=
  ∃ asked answers estimate, es = asked ++ (answers ++ [.estimated sql (.within estimate)]) ∧
    Asked (explainWrap sql) asked ∧ (∀ e ∈ answers, e.ReadsPlan) ∧
    UpToReady (drainedReplies answers) ∧
    estimateDecision ceiling (planOutcome (drainedReplies answers)) = .ok (.within estimate) ∧
    Inside ceiling estimate

/-- A verdict that lets a statement pass is about an estimate within the ceiling. -/
theorem inside_of_decision {ceiling : ExplainCeiling F} {outcome : Except String (Option String)}
    {estimate : PlanEstimate F}
    (h : estimateDecision ceiling outcome = .ok (.within estimate)) : Inside ceiling estimate := by
  have hdecide {found : PlanEstimate F} (hfound : ExplainGate.decide ceiling found =
      .within estimate) : Inside ceiling estimate := by
    unfold ExplainGate.decide at hfound
    split at hfound
    · cases hfound
    · next hcost =>
        split at hfound
        · cases hfound
        · next hrows =>
            cases hfound
            exact ⟨by simpa using hcost, Nat.not_lt.mp hrows⟩
  rcases outcome with reason | _ | line
  · cases h
  · cases h
  · simp only [estimateDecision, decidePlanLine] at h
    rcases hparse : (parsePlanEstimate line : Option (PlanEstimate F)) with _ | found
    · rw [hparse] at h
      cases hshown : truncate line 200 with
      | none => rw [hshown] at h; cases h
      | some shown => rw [hshown] at h; cases h
    · rw [hparse] at h
      exact hdecide (Except.ok.inj h)

end

end PgBrakes.Ports.Proxy
