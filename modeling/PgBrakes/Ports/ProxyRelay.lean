import PgBrakes.Ports.ProxySession

/-!
# What a relay discloses

A relay passes rows on to the agent one at a time.  Each is charged to the budget
of the statement and to the window before it is passed on, so what the agent gets is
held to both; and once the stream was cut off nothing of it is passed on any more.

A cap of `u64::MAX` is no bound: the counter that is held against it stays there.

## Main results

* `relay_disclosure` — the rows and bytes a relay passes on are within the caps of the
  statement, the window stays within its own, and no row follows a cut-off.
* `relay_all` — with every cap at `u64::MAX` the whole stream is passed on.
-/

namespace PgBrakes.Ports.Proxy

open PgBrakes.Ports.Wire
open PgBrakes.Verified.MachineWord
open PgBrakes.Verified.Effect

variable {σ F : Type}

/-! ## What the agent is shown -/

/-- The row an event passes on to the agent. -/
def Event.payload? : Event F → Option RawFrame
  | .toAgent frame => if isPayload frame then some frame else none
  | _ => none

/-- The rows passed on. -/
def payloads (es : List (Event F)) : List RawFrame := es.filterMap Event.payload?

/-- The bytes of the rows passed on. -/
def volume (es : List (Event F)) : Nat :=
  (payloads es).foldr (fun frame total => frame.body.length + total) 0

/-- The entry that records a cut-off of the stream. -/
def Event.isCutoff : Event F → Prop
  | .audited entry => entry.statementText = "<result stream>"
  | _ => False

/-- After a cut-off no row is passed on. -/
def StopsAtCutoff (es : List (Event F)) : Prop :=
  ∀ pre e post, es = pre ++ e :: post → e.isCutoff → payloads post = []

/-- What is passed on from a point of the relay, given what the budget has counted
so far and whether the stream is cut off. -/
structure Disclosed (b : Budget) (cutOff : Bool) (es : List (Event F)) : Prop where
  rows : b.usedRows + (payloads es).length ≤ b.maxRows
  bytes : b.usedBytes + volume es ≤ b.maxBytes
  quiet : cutOff = true → payloads es = []
  stops : StopsAtCutoff es

/-! ## One event at a time -/

theorem stopsAtCutoff_nil : StopsAtCutoff ([] : List (Event F)) := by
  intro pre e post h
  simp at h

theorem stopsAtCutoff_cons {e : Event F} {es : List (Event F)}
    (hquiet : e.isCutoff → payloads es = []) (h : StopsAtCutoff es) : StopsAtCutoff (e :: es) := by
  intro pre e' post heq hcut
  cases pre with
  | nil =>
      cases heq
      exact hquiet hcut
  | cons a pre =>
      have htail : es = pre ++ e' :: post := (List.cons.inj heq).2
      exact h pre e' post htail hcut

theorem disclosed_nil {b : Budget} (hb : b.Bounding) (cutOff : Bool) :
    Disclosed b cutOff ([] : List (Event F)) :=
  ⟨hb.rows, hb.bytes, fun _ => rfl, stopsAtCutoff_nil⟩

/-- An event that neither passes a row on nor cuts off. -/
theorem Disclosed.cons_silent {b : Budget} {cutOff : Bool} {e : Event F} {es : List (Event F)}
    (hpayload : e.payload? = none) (hcut : ¬ e.isCutoff) (h : Disclosed b cutOff es) :
    Disclosed b cutOff (e :: es) := by
  have hsame : payloads (e :: es) = payloads es := List.filterMap_cons_none hpayload
  refine ⟨?_, ?_, ?_, stopsAtCutoff_cons (fun hc => absurd hc hcut) h.stops⟩
  · rw [hsame]
    exact h.rows
  · rw [volume, hsame]
    exact h.bytes
  · intro hoff
    rw [hsame]
    exact h.quiet hoff

/-- A row the budget admits. -/
theorem Disclosed.cons_row {b : Budget} {frame : RawFrame} {es : List (Event F)}
    (hpayload : isPayload frame = true)
    (h : Disclosed ⟨b.maxBytes, b.maxRows, b.usedBytes + frame.body.length, b.usedRows + 1⟩ false
      es) :
    Disclosed b false (.toAgent frame :: es) := by
  have hcons : payloads (.toAgent frame :: es) = frame :: payloads es :=
    List.filterMap_cons_some (by rw [Event.payload?, if_pos hpayload])
  have hrows := h.rows
  have hbytes := h.bytes
  refine ⟨?_, ?_, fun hoff => absurd hoff (by decide), stopsAtCutoff_cons (fun hc => hc.elim)
    h.stops⟩
  · rw [hcons, List.length_cons]
    simp only at hrows
    omega
  · rw [volume, hcons, List.foldr_cons]
    simp only [volume] at hbytes
    omega

/-- The cut-off itself: from there on the stream is quiet. -/
theorem Disclosed.cons_cutoff {b : Budget} {cutOff : Bool} {entry : AuditEntry}
    {es : List (Event F)} (h : Disclosed b true es) :
    Disclosed b cutOff (.audited entry :: es) := by
  have hsame : payloads (.audited entry :: es) = payloads es := List.filterMap_cons_none rfl
  refine ⟨?_, ?_, ?_, stopsAtCutoff_cons (fun _ => h.quiet rfl) h.stops⟩
  · rw [hsame]
    exact h.rows
  · rw [volume, hsame]
    exact h.bytes
  · intro _
    rw [hsame]
    exact h.quiet rfl

/-! ## The calls of a relay -/

/-- The window of the world has the caps of `meter` and is within them. -/
def WindowWithin (meter : WindowMeter) : World σ → Prop :=
  OnWindow fun window =>
    window.Within ∧ window.maxBytes = meter.maxBytes ∧ window.maxRows = meter.maxRows

variable {meter : WindowMeter}

section
variable [Outside σ]

/-- A charge leaves no trace and keeps the window within its caps. -/
theorem chargeWindow_finds (bytes rows : Nat) :
    Finds (WindowWithin meter) (fun _ => True)
      (chargeWindow bytes rows : Session σ F WindowOutcome) :=
  fun s hs =>
    have hcharge := WindowMeter.charge_within hs.1 bytes rows (Outside.clock s.world.outside).1
    ⟨_, _, rfl, trivial, hcharge.1, hcharge.2.1.trans hs.2.1, hcharge.2.2.trans hs.2.2⟩

omit [Outside σ] in
/-- A call that neither passes a row on nor cuts off, and then the rest. -/
theorem silent_bind {α β : Type} {b : Budget} {cutOff : Bool} {e : Event F} {m : Session σ F α}
    {k : α → Session σ F β} (hm : Emits (WindowWithin meter) (· = e) m)
    (hpayload : e.payload? = none) (hcut : ¬ e.isCutoff) (hb : b.Bounding)
    (hk : ∀ a, Traces (WindowWithin meter) (fun _ => Disclosed b cutOff) (k a)) :
    Traces (WindowWithin meter) (fun _ => Disclosed b cutOff) (m >>= k) :=
  .emit_bind hm (fun _ => disclosed_nil hb cutOff) fun a _ he =>
    (hk a).mono fun _ _ h => he ▸ h.cons_silent hpayload hcut

theorem payload?_toAgent {frame : RawFrame} (h : isPayload frame = false) :
    (Event.toAgent frame : Event F).payload? = none := by
  rw [Event.payload?, h]
  rfl

/-- A frame that is no row is passed on, or kept back. -/
theorem deliverUnless_bind {α : Type} {b : Budget} {cutOff : Bool} {frame : RawFrame}
    {k : Unit → Session σ F α} (hframe : isPayload frame = false) (hb : b.Bounding)
    (hk : ∀ a, Traces (WindowWithin meter) (fun _ => Disclosed b cutOff) (k a)) :
    Traces (WindowWithin meter) (fun _ => Disclosed b cutOff)
      (deliverUnless cutOff frame >>= k) := by
  cases cutOff with
  | true => exact hk ()
  | false =>
      exact silent_bind (deliver_emits frame) (payload?_toAgent hframe) id hb hk

theorem isPayload_of_startsCopy {frame : RawFrame} (h : backendStartsCopy frame = true) :
    isPayload frame = false := by
  simp only [backendStartsCopy, Bool.or_eq_true, decide_eq_true_eq] at h
  rcases h with (h | h) | h <;> rw [isPayload, h] <;> decide

theorem isPayload_of_tag {frame : RawFrame} {tag : UInt8} (h : frame.tag = tag)
    (hrow : tag ≠ tagDataRow) (hcopy : tag ≠ tagBackendCopyData) : isPayload frame = false := by
  subst h
  simp [isPayload, hrow, hcopy]

/-- The answer to a row over a cap: the cut-off is recorded, the agent is told, and the
rest goes on quietly. -/
theorem cutoff_bind {b : Budget} {cutOff : Bool} {code message code' message' : String}
    {k : Unit → Session σ F Unit} (hb : b.Bounding)
    (hk : ∀ a, Traces (WindowWithin meter) (fun _ => Disclosed b true) (k a)) :
    Traces (WindowWithin meter) (fun _ => Disclosed b cutOff)
      (record ⟨"<result stream>", .block, code, some message⟩ >>= fun _ =>
        deliver (errorResponse code' message') >>= k) := by
  refine .emit_bind (record_emits _) (fun _ => disclosed_nil hb cutOff) fun _ _ he => ?_
  refine Traces.mono (P := fun _ => Disclosed b true) ?_ fun _ _ h => he ▸ h.cons_cutoff
  exact silent_bind (deliver_emits _) (payload?_toAgent rfl) id hb hk

/-- From any point of the relay on. -/
theorem relayLoop_traces (replies : List Reply) :
    ∀ (b : Budget) (cutOff inCopy : Bool), b.Bounding →
      Traces (WindowWithin meter) (fun _ => Disclosed b cutOff)
        (relayLoop replies b cutOff inCopy : Session σ F Unit) := by
  induction replies with
  | nil =>
      intro b cutOff inCopy hb
      exact .fail (disclosed_nil hb cutOff)
  | cons reply rest ih =>
      intro b cutOff inCopy hb
      refine silent_bind (takeReply_emits rest _) rfl id hb fun _ => ?_
      refine .ite (fun hcopy => ?_) fun _ => ?_
      · exact deliverUnless_bind (isPayload_of_startsCopy hcopy) hb fun _ =>
          ih b cutOff true hb
      refine .ite (fun hready => ?_) fun _ => ?_
      · have hframe : isPayload reply.frame = false :=
          isPayload_of_tag hready (by decide) (by decide)
        exact .emit (deliver_emits _) (fun _ => disclosed_nil hb cutOff) fun _ _ he =>
          he ▸ (disclosed_nil hb cutOff).cons_silent (payload?_toAgent hframe) id
      refine .ite (fun hdone => ?_) fun _ => ?_
      · exact deliverUnless_bind (isPayload_of_tag hdone.1 (by decide) (by decide)) hb
          fun _ => ih b cutOff false hb
      refine .ite (fun hrow => ?_) fun hnotRow => ?_
      · have hopen : cutOff = false := by simpa using hrow.2
        subst hopen
        rcases hcharge : b.chargeRow reply.frame.body.length with ⟨outcome, b'⟩
        cases outcome with
        | exceeded cap bytes rows =>
            have hsame := Budget.chargeRow_exceeded hcharge
            subst hsame
            refine cutoff_bind hb fun _ => .ite (fun _ => ?_) fun _ => ?_
            · exact .fail (disclosed_nil hb true)
            · exact ih b' true inCopy hb
        | within bytes rows =>
            obtain ⟨rfl, hb'⟩ := hb.charge hcharge
            refine .find_bind (chargeWindow_finds _ _) fun outcome _ => ?_
            cases outcome with
            | exceeded cap bytes rows =>
                exact cutoff_bind hb fun _ => .fail (disclosed_nil hb true)
            | within bytes rows =>
                refine .emit_bind (deliver_emits _) (fun _ => disclosed_nil hb false)
                  fun _ _ he => ?_
                exact (ih _ false inCopy hb').mono fun _ _ h => he ▸ h.cons_row hrow.1
      refine .ite (fun _ => ?_) fun hother => ?_
      · exact ih b cutOff inCopy hb
      · have hframe : isPayload reply.frame = false := by
          cases hp : isPayload reply.frame with
          | false => rfl
          | true =>
              cases cutOff with
              | false => exact absurd ⟨hp, by simp⟩ hnotRow
              | true => exact absurd ⟨.inl hp, rfl⟩ hother
        exact silent_bind (deliver_emits _) (payload?_toAgent hframe) id hb fun _ =>
          ih b cutOff inCopy hb

omit [Outside σ] in
theorem readInbox_finds :
    Finds (WindowWithin meter) (fun _ => True) (readInbox : Session σ F (List Reply)) :=
  fun _ hs => ⟨_, _, rfl, trivial, hs⟩

/-- A whole relay, over any inbox and whatever goes wrong outside. -/
theorem relayUntilReady_traces {cfg : Config F} (hrows : cfg.budget.maxRows < u64Max)
    (hbytes : cfg.budget.maxBytes < u64Max) :
    Traces (WindowWithin meter) (fun _ => Disclosed (Budget.forRole cfg.budget) false)
      (relayUntilReady cfg : Session σ F Unit) :=
  .find_bind readInbox_finds fun inbox _ =>
    relayLoop_traces inbox (Budget.forRole cfg.budget) false false
      ⟨hrows, hbytes, Nat.zero_le _, Nat.zero_le _⟩

/-- Of the caps below `u64::MAX`: a relay over any stream passes on at most as many rows
and bytes as the statement may read, leaves the window within its caps, and passes no
row on after a cut-off. -/
theorem relay_disclosure {cfg : Config F} (hrows : cfg.budget.maxRows < u64Max)
    (hbytes : cfg.budget.maxBytes < u64Max) (s : Logged (World σ) (Event F))
    (hwindow : s.world.window.Within) :
    ∃ es, (relayUntilReady cfg s).2.log = s.log ++ es ∧
      (payloads es).length ≤ cfg.budget.maxRows ∧
      volume es ≤ cfg.budget.maxBytes ∧
      (relayUntilReady cfg s).2.world.window.usedBytes ≤ s.world.window.maxBytes ∧
      (relayUntilReady cfg s).2.world.window.usedRows ≤ s.world.window.maxRows ∧
      StopsAtCutoff es := by
  obtain ⟨es, hlog, hes, hafter, hcapBytes, hcapRows⟩ :=
    relayUntilReady_traces hrows hbytes s ⟨hwindow, rfl, rfl⟩
  have hcount : 0 + (payloads es).length ≤ cfg.budget.maxRows := hes.rows
  have hvolume : 0 + volume es ≤ cfg.budget.maxBytes := hes.bytes
  refine ⟨es, hlog, ?_, ?_, hcapBytes ▸ hafter.1, hcapRows ▸ hafter.2, hes.stops⟩
  · omega
  · omega

end

/-! ## Caps that do not bound -/

/-- An outside in which nothing goes wrong, the backend stays silent and the clock
stands still. -/
@[reducible] def Outside.still : Outside Unit where
  tick := id
  toBackend := fun _ _ => some ((), [])
  toAgent := fun _ _ => some ()
  append := fun _ _ => .ok ()
  clock := fun _ => (0, ())

/-- A role with the same caps on a statement and on a minute. -/
def Config.capped (maxBytes maxRows : Nat) : Config Unit :=
  ⟨⟨maxBytes, maxRows, ⟨60, maxBytes, maxRows⟩⟩, ⟨(), 0⟩⟩

/-- A row without columns, as an answer to the first frame sent. -/
def emptyRow : Reply := ⟨⟨tagDataRow, [0, 0]⟩, 0⟩

/-- A result of `n` rows without columns. -/
def emptyRows (n : Nat) : List Reply := List.replicate n emptyRow ++ [⟨readyForQuery .idle, 0⟩]

/-- A session that is about to read these answers. -/
def aboutToRelay (cfg : Config Unit) (inbox : List Reply) : Logged (World Unit) (Event Unit) :=
  ⟨⟨(), inbox, 0, [], WindowMeter.forWindow cfg.budget.perWindow⟩, []⟩

/-- Two rows under a cap of one. -/
theorem relay_disclosure_twoRows :
    letI := Outside.still
    ∃ es, (relayUntilReady (Config.capped 100 1) (aboutToRelay (Config.capped 100 1)
        (emptyRows 2))).2.log = [] ++ es ∧
      (payloads es).length ≤ 1 ∧ volume es ≤ 100 ∧
      (relayUntilReady (Config.capped 100 1) (aboutToRelay (Config.capped 100 1)
        (emptyRows 2))).2.world.window.usedBytes ≤ 100 ∧
      (relayUntilReady (Config.capped 100 1) (aboutToRelay (Config.capped 100 1)
        (emptyRows 2))).2.world.window.usedRows ≤ 1 ∧
      StopsAtCutoff es :=
  let _ := Outside.still
  relay_disclosure (by decide) (by decide) (aboutToRelay (Config.capped 100 1) (emptyRows 2))
    (WindowMeter.forWindow_within _)

theorem chargeRow_uncapped {b : Budget} (hbytes : b.maxBytes = u64Max) (hrows : b.maxRows = u64Max)
    (rowBytes : Nat) :
    ∃ bytes rows b', b.chargeRow rowBytes = (.within bytes rows, b') ∧
      b'.maxBytes = u64Max ∧ b'.maxRows = u64Max := by
  have hrow : ¬ satAdd b.usedRows 1 > b.maxRows := hrows ▸ Nat.not_lt.mpr (satAdd_le _ _)
  have hbyte : ¬ satAdd b.usedBytes rowBytes > b.maxBytes :=
    hbytes ▸ Nat.not_lt.mpr (satAdd_le _ _)
  rw [Budget.chargeRow, if_neg hrow, if_neg hbyte]
  exact ⟨_, _, _, rfl, hbytes, hrows⟩

theorem charge_uncapped {w : WindowMeter} (hbytes : w.maxBytes = u64Max)
    (hrows : w.maxRows = u64Max) (bytes rows now : Nat) :
    ∃ totalBytes totalRows w', w.charge bytes rows now = (.within totalBytes totalRows, w') ∧
      w'.maxBytes = u64Max ∧ w'.maxRows = u64Max := by
  have hcapBytes : (w.roll now).maxBytes = u64Max := (w.roll_caps now).1.trans hbytes
  have hcapRows : (w.roll now).maxRows = u64Max := (w.roll_caps now).2.trans hrows
  have hrow : ¬ satAdd (w.roll now).usedRows rows > (w.roll now).maxRows :=
    hcapRows ▸ Nat.not_lt.mpr (satAdd_le _ _)
  have hbyte : ¬ satAdd (w.roll now).usedBytes bytes > (w.roll now).maxBytes :=
    hcapBytes ▸ Nat.not_lt.mpr (satAdd_le _ _)
  rw [WindowMeter.charge, if_neg hrow, if_neg hbyte]
  exact ⟨_, _, _, rfl, hcapBytes, hcapRows⟩

/-- One row that both meters admit. -/
theorem relayLoop_row [Outside σ] (reply : Reply) {rest : List Reply} {b b' : Budget}
    {bytes rows totalBytes totalRows : Nat} {inCopy : Bool} {s : Logged (World σ) (Event F)}
    {window : WindowMeter} {outside : σ} (hframe : reply.frame.tag = tagDataRow)
    (hcharge : b.chargeRow reply.frame.body.length = (.within bytes rows, b'))
    (hwindow : s.world.window.charge reply.frame.body.length 1
      (Outside.clock s.world.outside).1 = (.within totalBytes totalRows, window))
    (hdeliver : Outside.toAgent (Outside.clock s.world.outside).2 reply.frame = some outside) :
    relayLoop (reply :: rest) b false inCopy s =
      relayLoop rest b' false inCopy
        ⟨{ s.world with outside := outside, inbox := rest, window := window },
          s.log ++ [.relayed reply] ++ [.toAgent reply.frame]⟩ := by
  have hnoCopy : ¬ backendStartsCopy reply.frame = true := by
    rw [backendStartsCopy, hframe]
    decide
  have hnotReady : ¬ reply.frame.tag = tagReadyForQuery := by
    rw [hframe]
    decide
  have hnotDone : ¬ (reply.frame.tag = tagBackendCopyDone ∧ inCopy = true) := by
    rw [hframe]
    exact fun h => absurd h.1 (by decide)
  have hrow : isPayload reply.frame = true ∧ ¬ (false = true) := by
    rw [isPayload, hframe]
    decide
  have hask : (chargeWindow reply.frame.body.length 1 : Session σ F WindowOutcome)
      ⟨{ s.world with inbox := rest }, s.log ++ [.relayed reply]⟩ =
      (.ok (.within totalBytes totalRows),
        ⟨{ s.world with outside := (Outside.clock s.world.outside).2, inbox := rest,
                        window := window }, s.log ++ [.relayed reply]⟩) := by
    simp only [chargeWindow, hwindow]
  have hsend : (deliver reply.frame : Session σ F Unit)
      ⟨{ s.world with outside := (Outside.clock s.world.outside).2, inbox := rest,
                      window := window }, s.log ++ [.relayed reply]⟩ =
      (.ok (), ⟨{ s.world with outside := outside, inbox := rest, window := window },
        s.log ++ [.relayed reply] ++ [.toAgent reply.frame]⟩) := by
    simp only [deliver, hdeliver]
  have htake : (takeReply rest (.relayed reply) : Session σ F Unit) s =
      (.ok (), ⟨{ s.world with inbox := rest }, s.log ++ [.relayed reply]⟩) := rfl
  rw [relayLoop, Eff.bind_of_ok htake, if_neg hnoCopy, if_neg hnotReady, if_neg hnotDone,
    if_pos hrow, hcharge]
  dsimp only
  rw [Eff.bind_of_ok hask]
  dsimp only
  rw [Eff.bind_of_ok hsend]

/-- With every cap at `u64::MAX` every row is passed on. -/
theorem relay_all (n : Nat) :
    letI := Outside.still
    ∀ (b : Budget) (s : Logged (World Unit) (Event Unit)), b.maxBytes = u64Max →
      b.maxRows = u64Max → s.world.window.maxBytes = u64Max → s.world.window.maxRows = u64Max →
      ∃ es, (relayLoop (emptyRows n) b false false s).2.log = s.log ++ es ∧
        (payloads es).length = n := by
  let _ := Outside.still
  induction n with
  | zero =>
      intro b s _ _ _ _
      refine ⟨[.relayed ⟨readyForQuery .idle, 0⟩] ++ [.toAgent (readyForQuery .idle)], ?_, rfl⟩
      rw [← List.append_assoc]
      rfl
  | succ n ih =>
      intro b s hbytes hrows hwindowBytes hwindowRows
      obtain ⟨bytes, rows, b', hcharge, hbytes', hrows'⟩ := chargeRow_uncapped hbytes hrows 2
      obtain ⟨totalBytes, totalRows, window, hwindow, hwindowBytes', hwindowRows'⟩ :=
        charge_uncapped hwindowBytes hwindowRows 2 1 0
      have hrun : relayLoop (emptyRows (n + 1)) b false false s =
          relayLoop (emptyRows n) b' false false
            ⟨{ s.world with outside := (), inbox := emptyRows n, window := window },
              s.log ++ [.relayed emptyRow] ++ [.toAgent emptyRow.frame]⟩ :=
        relayLoop_row emptyRow rfl hcharge hwindow rfl
      obtain ⟨es, hlog, hcount⟩ := ih b'
        ⟨{ s.world with outside := (), inbox := emptyRows n, window := window },
          s.log ++ [.relayed emptyRow] ++ [.toAgent emptyRow.frame]⟩ hbytes' hrows' hwindowBytes'
        hwindowRows'
      refine ⟨[.relayed emptyRow] ++ [.toAgent emptyRow.frame] ++ es, ?_, ?_⟩
      · rw [hrun, hlog, List.append_assoc, List.append_assoc, List.append_assoc]
      · show (emptyRow.frame :: payloads es).length = n + 1
        rw [List.length_cons, hcount]

/-- A relay of a result of `n` rows under caps of `u64::MAX`. -/
theorem relayUntilReady_all (n : Nat) :
    letI := Outside.still
    ∃ es, (relayUntilReady (Config.capped u64Max u64Max) (aboutToRelay
        (Config.capped u64Max u64Max) (emptyRows n))).2.log = [] ++ es ∧
      (payloads es).length = n :=
  relay_all n (Budget.forRole (Config.capped u64Max u64Max).budget)
    (aboutToRelay (Config.capped u64Max u64Max) (emptyRows n)) rfl rfl rfl rfl

theorem Config.capped_maxRows (maxBytes maxRows : Nat) :
    (Config.capped maxBytes maxRows).budget.maxRows = maxRows := rfl

/-- Under a cap of `u64::MAX` rows, one row more is passed on. -/
theorem relay_uncapped_exceeds :
    letI := Outside.still
    ∃ es, (relayUntilReady (Config.capped u64Max u64Max) (aboutToRelay
        (Config.capped u64Max u64Max) (emptyRows (u64Max + 1)))).2.log = [] ++ es ∧
      ¬ (payloads es).length ≤ (Config.capped u64Max u64Max).budget.maxRows := by
  obtain ⟨es, hlog, hcount⟩ := relayUntilReady_all (u64Max + 1)
  refine ⟨es, hlog, ?_⟩
  rw [hcount, Config.capped_maxRows]
  exact Nat.not_succ_le_self u64Max

end PgBrakes.Ports.Proxy
