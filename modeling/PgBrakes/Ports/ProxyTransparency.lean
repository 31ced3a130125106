import PgBrakes.Ports.ProxyAttribution

/-!
# The statements an agent has prepared

A preflight prepares its `EXPLAIN` under the empty name, in the session the agent's own
statements live in.  To see what that does to the agent, the backend is put beside a
`Reference`: the same session, given the agent's frames as they are passed on and none of
the proxy's own.  Transparency says that a `Bind` which is passed on finds the statement
the reference has under that name.

It holds for names that are not empty where each statement is planned between two
units.  The unnamed statement is lost to the next preflight, until the agent prepares it
anew.

## Main results

* `queryLoop_transparent` — every `Bind` finds the statement of the reference, where
  statements are planned between two units and the unnamed one is used only while no
  preflight has taken its place.
* `queryLoop_unnamed_lost` — the unnamed statement is replaced by an `EXPLAIN`.
-/

namespace PgBrakes.Ports.Proxy

open PgBrakes.Ports.ExplainGate
open PgBrakes.Ports.ReadAst (Parser)
open PgBrakes.Ports.Wire
open PgBrakes.Verified.Effect
open PgBrakes.Verified.Effect.Eff (Keeps Triple)
open PgBrakes.Verified

/-! ## The reference -/

/-- The frame prepares or closes the unnamed statement. -/
def setsUnnamed (frame : RawFrame) : Bool :=
  match FrontendMessage.decode frame with
  | .ok (.parse name _ _) => name = ""
  | .ok (.close .statement name) => name = ""
  | _ => false

/-- The frame uses the unnamed statement. -/
def usesUnnamed (frame : RawFrame) : Bool :=
  match FrontendMessage.decode frame with
  | .ok (.bind _ name _) => name = ""
  | .ok (.describe .statement name) => name = ""
  | _ => false

/-- The session of a backend that got the frames of the agent only, and whether no
preflight has taken the place of the unnamed statement. -/
structure Reference where
  pg : PgSession
  fresh : Bool

namespace Reference

section
variable [Database] {σ F : Type}

/-- A frame of the agent.  One that is skipped prepares nothing. -/
def forward (ref : Reference) (frame : RawFrame) : Reference :=
  ⟨match ref.pg.receiveFrame frame with
    | some answer => answer.1
    | none => ref.pg,
   ref.fresh || (!ref.pg.skipping && setsUnnamed frame)⟩

def see (ref : Reference) : Event F → Reference
  | .forwarded _ frame => ref.forward frame
  | .own _ _ => { ref with fresh := false }
  | _ => ref

/-- A moment passes. -/
def tick (ref : Reference) : Reference := { ref with pg := ref.pg.tick }

/-- One turn of the session. -/
def follow (ref : Reference) (t : Turn σ F) : Reference :=
  if t.before.ended then ref else t.events.foldl see ref.tick

end

end Reference

/-- The reference after a history that started on this session. -/
def reference [Database] {σ F : Type} (start : PgSession) (history : List (Turn σ F)) : Reference :=
  history.foldl Reference.follow ⟨start, true⟩

/-! ## Two sessions that agree -/

/-- The sessions agree on everything but the unnamed statement, and on that one unless a
preflight has taken its place. -/
structure Agrees (pg : PgSession) (ref : Reference) : Prop where
  time : pg.time = ref.pg.time
  skipping : pg.skipping = ref.pg.skipping
  portals : pg.portals = ref.pg.portals
  named : ∀ name, name ≠ "" → pg.prepared name = ref.pg.prepared name
  unnamed : ref.fresh = true → pg.prepared "" = ref.pg.prepared ""

/-- The session stands between two units. -/
def PgSession.Synced (pg : PgSession) : Prop := pg.skipping = false ∧ pg.portals = fun _ => none

theorem Agrees.prepared {pg : PgSession} {ref : Reference} (h : Agrees pg ref) {name : String}
    (hname : name = "" → ref.fresh = true) : pg.prepared name = ref.pg.prepared name := by
  by_cases hempty : name = ""
  · subst hempty
    exact h.unnamed (hname rfl)
  · exact h.named name hempty

theorem Agrees.fail {pg : PgSession} {ref : Reference} (h : Agrees pg ref) (code reason : String) :
    Agrees (pg.fail code reason).1 ⟨(ref.pg.fail code reason).1, ref.fresh⟩ :=
  { h with skipping := rfl }

/-- The same change to the statement under one name. -/
theorem Agrees.prepare {pg : PgSession} {ref : Reference} (h : Agrees pg ref) (name : String)
    (sql : Option String) :
    Agrees { pg with prepared := Function.update pg.prepared name sql }
      ⟨{ ref.pg with prepared := Function.update ref.pg.prepared name sql },
        ref.fresh || decide (name = "")⟩ where
  time := h.time
  skipping := h.skipping
  portals := h.portals
  named := by
    intro other hother
    by_cases hsame : other = name
    · subst hsame
      simp
    · simp only [Function.update_of_ne hsame]
      exact h.named other hother
  unnamed := by
    intro hfresh
    by_cases hempty : name = ""
    · subst hempty
      simp
    · have hne : "" ≠ name := fun h => hempty h.symm
      simp only [Function.update_of_ne hne]
      exact h.unnamed (by simpa [hempty] using hfresh)

section
variable [Database] {pg : PgSession} {ref : Reference}

theorem Agrees.parse (h : Agrees pg ref) (name sql : String) :
    Agrees (pg.parse name sql).1 ⟨(ref.pg.parse name sql).1, ref.fresh || decide (name = "")⟩ := by
  have hdrop : Agrees (pg.dropUnnamed name)
      ⟨ref.pg.dropUnnamed name, ref.fresh || decide (name = "")⟩ := by
    unfold PgSession.dropUnnamed
    by_cases hempty : name = ""
    · simpa [hempty] using h.prepare "" none
    · simpa [hempty] using h
  have htaken : (pg.dropUnnamed name).prepared name = (ref.pg.dropUnnamed name).prepared name :=
    hdrop.prepared fun hempty => by simp [hempty]
  have hanalyze : Database.analyze pg.time sql = Database.analyze ref.pg.time sql := by
    rw [h.time]
  unfold PgSession.parse
  rw [hanalyze, htaken]
  cases Database.analyze ref.pg.time sql with
  | error reason => exact hdrop.fail "42601" reason
  | ok u =>
      simp only
      split
      · rename_i hsome
        -- The name is taken, so it is not the empty one.
        have hname : name ≠ "" := by
          rintro rfl
          simp [PgSession.dropUnnamed] at hsome
        simpa [hname] using h.fail "42P05" _
      · exact h.prepare name (some sql)

theorem Agrees.bind (h : Agrees pg ref) {portal name : String} {rest : Bytes}
    (hname : name = "" → ref.fresh = true) :
    Agrees (pg.bind portal name rest).1 ⟨(ref.pg.bind portal name rest).1, ref.fresh⟩ := by
  have hportal : pg.portals portal = ref.pg.portals portal := congrFun h.portals portal
  unfold PgSession.bind
  rw [h.prepared hname, hportal]
  cases ref.pg.prepared name with
  | none => exact h.fail _ _
  | some sql =>
      have hbind : Database.bindTo pg.time sql rest = Database.bindTo ref.pg.time sql rest := by
        rw [h.time]
      simp only
      split
      · exact h.fail _ _
      · rw [hbind]
        cases Database.bindTo ref.pg.time sql rest with
        | error reason => exact h.fail _ _
        | ok u => exact { h with portals := by simp [h.portals] }

theorem Agrees.describe (h : Agrees pg ref) {kind : TargetKind} {name : String}
    (hname : kind = .statement → name = "" → ref.fresh = true) :
    Agrees (pg.describe kind name).1 ⟨(ref.pg.describe kind name).1, ref.fresh⟩ := by
  unfold PgSession.describe
  cases kind with
  | statement =>
      simp only
      rw [h.prepared (hname rfl)]
      cases ref.pg.prepared name with
      | none => exact h.fail _ _
      | some sql => exact h
  | portal =>
      simp only
      rw [h.portals]
      cases ref.pg.portals name with
      | none => exact h.fail _ _
      | some sql => exact h

theorem Agrees.execute (h : Agrees pg ref) (portal : String) (maxRows : Int32) :
    Agrees (pg.execute portal maxRows).1 ⟨(ref.pg.execute portal maxRows).1, ref.fresh⟩ := by
  unfold PgSession.execute
  rw [h.portals]
  cases ref.pg.portals portal with
  | none => exact h.fail _ _
  | some sql =>
      simp only
      rw [h.time]
      cases Database.run ref.pg.time sql maxRows with
      | error reason => exact h.fail _ _
      | ok rows => exact h

omit [Database] in
theorem Agrees.close (h : Agrees pg ref) (kind : TargetKind) (name : String) :
    Agrees (pg.close kind name).1
      ⟨(ref.pg.close kind name).1, ref.fresh || decide (kind = .statement ∧ name = "")⟩ := by
  cases kind with
  | statement => simpa [PgSession.close] using h.prepare name none
  | portal =>
      have hportals : Agrees { pg with portals := Function.update pg.portals name none }
          ⟨{ ref.pg with portals := Function.update ref.pg.portals name none }, ref.fresh⟩ :=
        { h with portals := by simp [h.portals] }
      simpa [PgSession.close] using hportals

/-- What a message does to the unnamed statement. -/
theorem Agrees.handle (h : Agrees pg ref) {frame : RawFrame} {msg : FrontendMessage}
    (hdecode : FrontendMessage.decode frame = .ok msg)
    (huses : usesUnnamed frame = true → ref.fresh = true) {answer : PgSession × List RawFrame}
    (hanswer : pg.handle msg = some answer) :
    ∃ answer', ref.pg.handle msg = some answer' ∧
      Agrees answer.1 ⟨answer'.1, ref.fresh || setsUnnamed frame⟩ := by
  cases msg with
  | parse name sql paramTypes =>
      have hsets : setsUnnamed frame = decide (name = "") := by simp only [setsUnnamed, hdecode]
      rw [hsets, ← Option.some.inj hanswer]
      exact ⟨_, rfl, h.parse name sql⟩
  | bind portal name rest =>
      have hsets : setsUnnamed frame = false := by simp only [setsUnnamed, hdecode]
      have hname : name = "" → ref.fresh = true := by
        intro hempty
        exact huses (by simp only [usesUnnamed, hdecode, hempty, decide_true])
      rw [hsets, Bool.or_false, ← Option.some.inj hanswer]
      exact ⟨_, rfl, h.bind hname⟩
  | describe kind name =>
      have hsets : setsUnnamed frame = false := by simp only [setsUnnamed, hdecode]
      have hname : kind = .statement → name = "" → ref.fresh = true := by
        intro hkind hempty
        exact huses (by simp only [usesUnnamed, hdecode, hkind, hempty, decide_true])
      rw [hsets, Bool.or_false, ← Option.some.inj hanswer]
      exact ⟨_, rfl, h.describe hname⟩
  | execute portal maxRows =>
      have hsets : setsUnnamed frame = false := by simp only [setsUnnamed, hdecode]
      rw [hsets, Bool.or_false, ← Option.some.inj hanswer]
      exact ⟨_, rfl, h.execute portal maxRows⟩
  | close kind name =>
      have hsets : setsUnnamed frame = decide (kind = .statement ∧ name = "") := by
        cases kind <;> simp [setsUnnamed, hdecode]
      rw [hsets, ← Option.some.inj hanswer]
      exact ⟨_, rfl, h.close kind name⟩
  | flush =>
      have hsets : setsUnnamed frame = false := by simp only [setsUnnamed, hdecode]
      rw [hsets, Bool.or_false, ← Option.some.inj hanswer]
      exact ⟨_, rfl, h⟩
  | _ => cases hanswer

/-- A frame of the agent does the same to both sessions. -/
theorem Agrees.forward (h : Agrees pg ref) {frame : RawFrame}
    (huses : usesUnnamed frame = true → ref.fresh = true) {answer : PgSession × List RawFrame}
    (hanswer : pg.receiveFrame frame = some answer) :
    Agrees answer.1 (ref.forward frame) ∧
      (frame.tag = tagSync → (ref.forward frame).pg.Synced) := by
  unfold Reference.forward
  unfold PgSession.receiveFrame at hanswer ⊢
  cases hdecode : FrontendMessage.decode frame with
  | error e =>
      rw [hdecode] at hanswer
      cases hanswer
  | ok msg =>
      rw [hdecode] at hanswer
      simp only at hanswer ⊢
      rw [decode_sync hdecode]
      unfold PgSession.receive at hanswer ⊢
      by_cases hsync : msg = .sync
      · have hsets : setsUnnamed frame = false := by simp only [setsUnnamed, hdecode, hsync]
        rw [if_pos hsync] at hanswer ⊢
        rw [hsets, Bool.and_false, Bool.or_false, ← Option.some.inj hanswer]
        exact ⟨{ h with skipping := rfl, portals := rfl }, fun _ => ⟨rfl, rfl⟩⟩
      · rw [if_neg hsync] at hanswer ⊢
        refine ⟨?_, fun h => absurd h hsync⟩
        cases hskipping : ref.pg.skipping with
        | true =>
            rw [h.skipping, hskipping, if_pos rfl] at hanswer
            obtain ⟨skipped, hskipped, hanswer⟩ := Option.map_eq_some_iff.mp hanswer
            obtain ⟨answer', hanswer', -⟩ := h.handle hdecode huses hskipped
            rw [if_pos rfl, hanswer', ← hanswer]
            simpa using h
        | false =>
            rw [h.skipping, hskipping, if_neg Bool.false_ne_true] at hanswer
            obtain ⟨answer', hanswer', hagrees⟩ := h.handle hdecode huses hanswer
            rw [if_neg Bool.false_ne_true, hanswer']
            simpa using hagrees

/-! ## A preflight

While a preflight runs, the two sessions agree on the named statements only.  Its `Sync`
brings them together again. -/

/-- The backend is in the middle of a preflight that found both sessions between two
units. -/
structure Preflighting (pg : PgSession) (ref : Reference) : Prop where
  time : pg.time = ref.pg.time
  synced : ref.pg.Synced
  named : ∀ name, name ≠ "" → pg.prepared name = ref.pg.prepared name
  fresh : ref.fresh = false

omit [Database] in
theorem Agrees.preflighting (h : Agrees pg ref) (hsynced : ref.pg.Synced) :
    Preflighting pg { ref with fresh := false } :=
  ⟨h.time, hsynced, h.named, rfl⟩

omit [Database] in
/-- The session may have other portals, and it may skip or not. -/
theorem Preflighting.same (h : Preflighting pg ref) {pg' : PgSession} (htime : pg'.time = pg.time)
    (hnamed : ∀ name, name ≠ "" → pg'.prepared name = pg.prepared name) : Preflighting pg' ref :=
  { h with
    time := htime.trans h.time
    named := fun name hname => (hnamed name hname).trans (h.named name hname) }

theorem Preflighting.handle (h : Preflighting pg ref) {msg : FrontendMessage} {sql : String}
    (hmsg : msg ∈ explainUnit sql) {answer : PgSession × List RawFrame}
    (hanswer : pg.handle msg = some answer) : Preflighting answer.1 ref := by
  simp only [explainUnit, List.mem_cons, List.not_mem_nil, or_false] at hmsg
  rcases hmsg with rfl | rfl | rfl | rfl
  · rw [← Option.some.inj hanswer]
    exact h.same (pg.parse_time _ _) fun name hname => pg.parse_prepared_of_ne hname _
  · have hframe := pg.bind_frame "" "" [0, 0, 0, 0, 0, 0]
    rw [← Option.some.inj hanswer]
    exact h.same hframe.1 fun name _ => congrFun hframe.2 name
  · have hframe := pg.execute_frame "" 0
    rw [← Option.some.inj hanswer]
    exact h.same hframe.1 fun name _ => congrFun hframe.2 name
  · cases hanswer

omit [Database] in
/-- The `Sync` of a preflight. -/
theorem Preflighting.sync (h : Preflighting pg ref) : Agrees pg.sync ref where
  time := h.time
  skipping := h.synced.1.symm
  portals := h.synced.2.symm
  named := h.named
  unnamed := by
    intro hfresh
    rw [h.fresh] at hfresh
    cases hfresh

end

/-! ## A turn -/

section
variable {τ F : Type} [Outside τ] [Database] {ref : Reference}

/-- The backend agrees with the reference that has seen what the session did, and where
every frame has been followed by a `Sync` the reference stands between two units. -/
def Mirrors (ref : Reference) (s : Logged (World (PgSession × τ)) (Event F)) : Prop :=
  Agrees s.world.outside.1 (s.log.foldl Reference.see ref) ∧
    (s.world.unsynced = [] → (s.log.foldl Reference.see ref).pg.Synced)

/-- A preflight is under way. -/
def InPreflight (ref : Reference) (s : Logged (World (PgSession × τ)) (Event F)) : Prop :=
  Preflighting s.world.outside.1 { s.log.foldl Reference.see ref with fresh := false }

omit [Outside τ] in
/-- An event that sends nothing. -/
theorem Mirrors.note {s : Logged (World (PgSession × τ)) (Event F)} {w : World (PgSession × τ)}
    {e : Event F} (hs : Mirrors ref s) (he : ∀ ref : Reference, ref.see e = ref)
    (hpg : w.outside.1 = s.world.outside.1) (hunsynced : w.unsynced = s.world.unsynced) :
    Mirrors ref ⟨w, s.log ++ [e]⟩ := by
  have hfold : (s.log ++ [e]).foldl Reference.see ref = s.log.foldl Reference.see ref := by
    rw [List.foldl_append]
    exact he _
  unfold Mirrors
  rw [hfold, hpg, hunsynced]
  exact hs

omit [Outside τ] in
theorem drainKeeps_mirrors : DrainKeeps (fun _ => True)
    (Mirrors ref : Logged (World (PgSession × τ)) (Event F) → Prop) :=
  ⟨fun _ _ _ _ hs => hs.note (fun _ => rfl) rfl rfl, fun _ _ _ hs => hs.note (fun _ => rfl) rfl rfl⟩

theorem relayKeeps_mirrors :
    RelayKeeps (Mirrors ref : Logged (World (PgSession × τ)) (Event F) → Prop) where
  relayed := fun _ _ _ hs => hs.note (fun _ => rfl) rfl rfl
  deliver := by
    intro frame s hs
    unfold deliver
    cases hsend : Outside.toAgent s.world.outside frame with
    | none => exact hs
    | some outside =>
        obtain ⟨rest, -, rfl⟩ := Option.map_eq_some_iff.mp hsend
        exact hs.note (fun _ => rfl) rfl rfl
  record := by
    intro entry s hs
    unfold record
    cases hentry : Outside.append s.world.outside entry with
    | error reason => exact hs
    | ok outside =>
        have hpg : outside.1 = s.world.outside.1 := by
          have happend : (Outside.append s.world.outside.2 entry).map
              (fun rest => (s.world.outside.1, rest)) = .ok outside := hentry
          cases hrest : Outside.append s.world.outside.2 entry with
          | error reason => rw [hrest] at happend; cases happend
          | ok rest => rw [hrest] at happend; cases happend; rfl
        exact hs.note (fun _ => rfl) hpg rfl
  charge := fun _ _ _ hs => hs

/-- A frame that is passed on does the same to the backend and the reference. -/
theorem forwardFrame_mirrors (frame : RawFrame) :
    Triple
      (fun s => Mirrors ref s ∧
        (usesUnnamed frame = true → (s.log.foldl Reference.see ref).fresh = true))
      (forwardFrame frame : Session (PgSession × τ) F Unit) (fun _ => Mirrors ref) Anywhere := by
  rintro s ⟨hs, huses⟩
  unfold forwardFrame sendBackend
  cases hsend : Outside.toBackend s.world.outside frame with
  | none => trivial
  | some answer =>
      obtain ⟨hagrees, hsynced⟩ := hs.1.forward huses (withPg_toBackend hsend)
      have hfold : (s.log ++ [Event.forwarded s.world.sent frame]).foldl Reference.see ref =
          (s.log.foldl Reference.see ref).forward frame := by
        rw [List.foldl_append]
        rfl
      refine ⟨?_, fun hunsynced => ?_⟩
      · rw [hfold]
        exact hagrees
      · rw [hfold]
        refine hsynced ?_
        by_cases hsync : frame.tag = tagSync
        · exact hsync
        · simp [hsync] at hunsynced

omit [Outside τ] in
theorem inPreflight_own {s : Logged (World (PgSession × τ)) (Event F)} {w : World (PgSession × τ)}
    {n : Nat} {msg : FrontendMessage}
    (h : Preflighting w.outside.1 { s.log.foldl Reference.see ref with fresh := false }) :
    InPreflight ref ⟨w, s.log ++ [.own n msg]⟩ := by
  unfold InPreflight
  rw [List.foldl_append]
  exact h

omit [Outside τ] in
theorem mirrors_own {s : Logged (World (PgSession × τ)) (Event F)} {w : World (PgSession × τ)}
    {n : Nat} {msg : FrontendMessage}
    (h : Agrees w.outside.1 { s.log.foldl Reference.see ref with fresh := false })
    (hsynced : (s.log.foldl Reference.see ref).pg.Synced) :
    Mirrors ref ⟨w, s.log ++ [.own n msg]⟩ := by
  unfold Mirrors
  rw [List.foldl_append]
  exact ⟨h, fun _ => hsynced⟩

/-- A message of the preflight other than its `Sync`. -/
theorem sendOwn_inPreflight (sql : String) {msg : FrontendMessage} (hmsg : msg ∈ explainUnit sql)
    (hdecode : FrontendMessage.decode msg.encode = .ok msg) (hother : msg ≠ .sync) :
    Triple (InPreflight ref) (sendOwn msg : Session (PgSession × τ) F Unit)
      (fun _ => InPreflight ref) Anywhere := by
  intro s hs
  unfold sendOwn sendBackend
  cases hsend : Outside.toBackend s.world.outside msg.encode with
  | none => trivial
  | some answer =>
      have hreceive := withPg_toBackend hsend
      simp only [PgSession.receiveFrame, hdecode, PgSession.receive, if_neg hother] at hreceive
      have hnext : Preflighting answer.1.1
          { s.log.foldl Reference.see ref with fresh := false } := by
        split at hreceive
        · obtain ⟨skipped, -, heq⟩ := Option.map_eq_some_iff.mp hreceive
          have hsame : s.world.outside.1 = answer.1.1 := (Prod.mk.inj heq).1
          rw [← hsame]
          exact hs
        · exact hs.handle hmsg hreceive
      exact inPreflight_own hnext

/-- The `Sync` of the preflight. -/
theorem sendOwn_sync_mirrors :
    Triple (InPreflight ref) (sendOwn .sync : Session (PgSession × τ) F Unit)
      (fun _ => Mirrors ref) Anywhere := by
  intro s hs
  unfold sendOwn sendBackend
  cases hsend : Outside.toBackend s.world.outside FrontendMessage.sync.encode with
  | none => trivial
  | some answer =>
      have hreceive : some (s.world.outside.1.sync, [readyForQuery .idle]) =
          some (answer.1.1, answer.2) := withPg_toBackend hsend
      have hpg : s.world.outside.1.sync = answer.1.1 := (Prod.mk.inj (Option.some.inj hreceive)).1
      exact mirrors_own (hpg ▸ hs.sync) hs.synced

/-- A preflight between two units costs the unnamed statement and nothing else. -/
theorem runExplainOnBackend_mirrors {sql : String} (hnul : 0 ∉ utf8 sql) :
    Triple (fun s => Mirrors ref s ∧ s.world.unsynced = [])
      (runExplainOnBackend sql : Session (PgSession × τ) F (Except String (Option String)))
      (fun _ => Mirrors ref) Anywhere := by
  have hempty : 0 ∉ utf8 "" := by decide
  have hexplain : 0 ∉ utf8 (explainWrap sql) := by
    rw [explainWrap, utf8_append]
    intro h
    rcases List.mem_append.mp h with hprefix | hsql
    · exact absurd hprefix (by decide)
    · exact hnul hsql
  have hunit : Triple (InPreflight ref)
      (sendExtendedUnit (explainWrap sql) : Session (PgSession × τ) F Unit)
      (fun _ => Mirrors ref) Anywhere :=
    .bind (sendOwn_inPreflight sql (by simp [explainUnit]) (decode_parse_encode hempty hexplain)
      nofun) fun _ =>
    .bind (sendOwn_inPreflight sql (by simp [explainUnit]) (decode_bind_encode hempty hempty _)
      nofun) fun _ =>
    .bind (sendOwn_inPreflight sql (by simp [explainUnit]) (decode_execute_encode hempty _)
      nofun) fun _ => sendOwn_sync_mirrors
  refine .bind (hunit.conseq (fun s hs => hs.1.1.preflighting (hs.1.2 hs.2)) fun _ _ hs => hs)
    fun _ => ?_
  exact Keeps.triple (.bind (fun _ hs => hs) fun _ =>
    drainExplain_keeps drainKeeps_mirrors (fun _ _ => trivial) none none) (fun _ hs => hs)
    fun _ _ => trivial

variable [Runtime F] [Parser]

theorem explainPreflight_mirrors (ceiling : ExplainCeiling F) {sql : String}
    (hnul : 0 ∉ utf8 sql) :
    Triple (fun s => Mirrors ref s ∧ (ReadGate.isExplain sql = false → s.world.unsynced = []))
      (explainPreflight ceiling sql : Session (PgSession × τ) F (Option PendingError))
      (fun _ => Mirrors ref) Anywhere := by
  refine .ite (fun _ => .pure fun s hs => hs.1) fun hplain => ?_
  refine .bind ((runExplainOnBackend_mirrors hnul).conseq
    (fun s hs => ⟨hs.1, hs.2 (by simpa using hplain)⟩) fun _ _ hs => hs) fun outcome => ?_
  refine Keeps.triple (.bind (.lift _) fun decision => .bind (fun _ hs => hs.note (fun _ => rfl)
    rfl rfl) fun _ => ?_) (fun _ hs => hs) fun _ _ => trivial
  cases decision with
  | within estimate => exact .pure _
  | exceeded dim estimate => exact .bind (relayKeeps_mirrors.record _) fun _ => .pure _
  | failClosed reason => exact .bind (relayKeeps_mirrors.record _) fun _ => .pure _

/-- What a turn needs of the state before it. -/
def Ready (ref : Reference) (frame : RawFrame)
    (s : Logged (World (PgSession × τ)) (Event F)) : Prop :=
  Mirrors ref s ∧ (planned frame = true → s.world.unsynced = []) ∧
    (usesUnnamed frame = true → (s.log.foldl Reference.see ref).fresh = true)

omit [Runtime F] [Parser] in
theorem passOn_mirrors (cfg : Config F) (frame : RawFrame) (msg : FrontendMessage) :
    Triple
      (fun s => Mirrors ref s ∧
        (usesUnnamed frame = true → (s.log.foldl Reference.see ref).fresh = true))
      (passOn cfg frame msg : Session (PgSession × τ) F Unit) (fun _ => Mirrors ref) Anywhere := by
  refine .bind (forwardFrame_mirrors frame) fun _ => ?_
  exact Keeps.triple (.ite (relayUntilReady_keeps relayKeeps_mirrors cfg) (.pure _))
    (fun _ hs => hs) fun _ _ => trivial

theorem handleMessage_mirrors (cfg : Config F) {frame : RawFrame} {msg : FrontendMessage}
    (hdecode : FrontendMessage.decode frame = .ok msg) :
    Triple (Ready ref frame)
      (handleMessage cfg frame msg : Session (PgSession × τ) F (Option PendingError))
      (fun _ => Mirrors ref) Anywhere := by
  unfold handleMessage
  cases hgate : gate msg with
  | allow statement =>
      have hclear : Triple (Ready ref frame)
          (clearStatement cfg statement : Session (PgSession × τ) F (Option PendingError))
          (fun _ s => Mirrors ref s ∧
            (usesUnnamed frame = true → (s.log.foldl Reference.see ref).fresh = true))
          Anywhere := by
        cases statement with
        | none => exact .pure fun s hs => ⟨hs.1, hs.2.2⟩
        | some sql =>
            obtain ⟨name, paramTypes, rfl, hsql⟩ := gate_allow_some hgate
            have huses : usesUnnamed frame = false := by simp only [usesUnnamed, hdecode]
            have hplanned (hplain : ReadGate.isExplain sql = false) : planned frame = true := by
              simp only [planned, hdecode, hsql, hplain, Bool.not_false]
            refine Triple.conseq (B := fun _ => Mirrors ref) (.bind
              ((explainPreflight_mirrors cfg.ceiling (decode_parse_noNul hdecode)).conseq
                (fun s hs => ⟨hs.1, fun hplain => hs.2.1 (hplanned hplain)⟩) fun _ _ hs => hs)
              fun refused => ?_) (fun _ hs => hs) fun _ s hs => ⟨hs, fun h => ?_⟩
            · cases refused with
              | some err => exact .pure fun _ hs => hs
              | none =>
                  exact Keeps.triple (.bind (relayKeeps_mirrors.record _) fun _ => .pure _)
                    (fun _ hs => hs) fun _ _ => trivial
            · rw [huses] at h
              cases h
      refine .bind hclear fun refused => ?_
      cases refused with
      | some err => exact .pure fun _ hs => hs.1
      | none => exact .bind (passOn_mirrors cfg frame msg) fun _ => .pure fun _ hs => hs
  | block sql code message =>
      exact Keeps.triple (.bind (relayKeeps_mirrors.record _) fun _ => .pure _) (fun _ hs => hs.1)
        fun _ _ => trivial
  | reject kind code message =>
      refine Keeps.triple (.bind (relayKeeps_mirrors.record _) fun _ => ?_) (fun _ hs => hs.1)
        fun _ _ => trivial
      cases kind with
      | copy => exact .pure _
      | simpleQuery =>
          exact .bind (.bind (relayKeeps_mirrors.deliver _) fun _ =>
            relayKeeps_mirrors.deliver _) fun _ => .pure _

theorem handleFrame_mirrors (cfg : Config F) (frame : RawFrame) (pending : Option PendingError) :
    Triple (fun s => Mirrors ref s ∧ (pending = none → Ready ref frame s))
      (handleFrame cfg frame pending : Session (PgSession × τ) F (Option (Option PendingError)))
      (fun _ => Mirrors ref) Anywhere := by
  have hquiet {m : Session (PgSession × τ) F (Option (Option PendingError))}
      (hm : Keeps (Mirrors ref) m) :
      Triple (fun s => Mirrors ref s ∧ (pending = none → Ready ref frame s)) m
        (fun _ => Mirrors ref) Anywhere :=
    hm.triple (fun _ hs => hs.1) fun _ _ => trivial
  cases hdecode : FrontendMessage.decode frame with
  | error e =>
      cases pending with
      | none =>
          rw [handleFrame_malformed cfg hdecode]
          exact hquiet (.bind (relayKeeps_mirrors.record _) fun _ => .pure _)
      | some err =>
          unfold handleFrame
          rw [hdecode]
          exact hquiet (.pure _)
  | ok msg =>
      by_cases hleave : msg = .terminate
      · unfold handleFrame
        rw [hdecode, hleave]
        exact hquiet (.pure _)
      cases pending with
      | some err =>
          rw [handleFrame_skips cfg err hdecode hleave]
          exact hquiet (.ite (.bind (.bind (relayKeeps_mirrors.deliver _) fun _ =>
            relayKeeps_mirrors.deliver _) fun _ => .pure _) (.pure _))
      | none =>
          rw [handleFrame_judges cfg hdecode hleave]
          exact .bind ((handleMessage_mirrors cfg hdecode).conseq (fun _ hs => hs.2 rfl)
            fun _ _ hs => hs) fun _ => .pure fun _ hs => hs

/-! ## The whole session -/

/-- Where the frame uses the unnamed statement, no preflight has taken its place. -/
def UsesOwnUnnamed (start : PgSession) (history : List (Turn (PgSession × τ) F))
    (t : Turn (PgSession × τ) F) : Prop :=
  t.before.ended = false → t.before.pending = none → usesUnnamed t.frame = true →
    (reference start history).fresh = true

/-- A `Bind` that is passed on finds the statement that the backend would have under its
name without the proxy's own messages. -/
def TurnTransparent (start : PgSession) (history : List (Turn (PgSession × τ) F))
    (t : Turn (PgSession × τ) F) : Prop :=
  ∀ portal name rest, FrontendMessage.decode t.frame = .ok (.bind portal name rest) →
    (∃ n, .forwarded n t.frame ∈ t.events) →
      t.before.world.outside.1.prepared name = (reference start history).pg.prepared name

/-- Between two turns of a running session the backend agrees with the reference. -/
def TransparencyInv (start : PgSession) (history : List (Turn (PgSession × τ) F))
    (s : Loop (PgSession × τ)) : Prop :=
  s.ended = false →
    Agrees s.world.outside.1 (reference start history) ∧
      (s.world.unsynced = [] → (reference start history).pg.Synced)

theorem turn_transparent (cfg : Config F) (start : PgSession)
    (history : List (Turn (PgSession × τ) F)) (s : Loop (PgSession × τ)) (frame : RawFrame)
    (hplans : (turn cfg frame s).1.PlansBetweenUnits)
    (huses : UsesOwnUnnamed start history (turn cfg frame s).1)
    (hinv : TransparencyInv start history s) :
    TurnTransparent start history (turn cfg frame s).1 ∧
      TransparencyInv start (history ++ [(turn cfg frame s).1]) (turn cfg frame s).2 := by
  refine ⟨?_, fun hrunning => ?_⟩
  · rintro portal name rest hdecode ⟨n, hforwarded⟩
    obtain ⟨hrun, hpending⟩ := forwarded_running cfg hforwarded
    rw [turn_before]
    refine (hinv hrun).1.prepared fun hempty => ?_
    refine huses (by rw [turn_before, hrun]) (by rw [turn_before, hpending]) ?_
    simp only [usesUnnamed, hdecode, hempty, decide_true]
  · by_cases hended : s.ended = true
    · rw [turn_ended cfg frame hended] at hrunning
      exact absurd (hended.symm.trans hrunning) (by decide)
    have hrun : s.ended = false := by simpa using hended
    obtain ⟨hagrees, hsynced⟩ := hinv hrun
    have htick : Mirrors (reference start history).tick
        (⟨s.awake, []⟩ : Logged (World (PgSession × τ)) (Event F)) :=
      ⟨{ hagrees with time := congrArg (· + 1) hagrees.time }, hsynced⟩
    have hready (hpending : s.pending = none) : Ready (reference start history).tick frame
        (⟨s.awake, []⟩ : Logged (World (PgSession × τ)) (Event F)) := by
      refine ⟨htick, fun hplanned => ?_, fun hunnamed => ?_⟩
      · have hidle := hplans ⟨by rw [turn_before, hrun], by rw [turn_before, hpending],
          by rw [turn_frame, hplanned]⟩
        rwa [turn_before] at hidle
      · exact huses (by rw [turn_before, hrun]) (by rw [turn_before, hpending])
          (by rw [turn_frame, hunnamed])
    obtain ⟨refused, s', hframe, hevents, hafter⟩ := turn_finished cfg frame hrun hrunning
    have hmirrors : Mirrors (reference start history).tick s' :=
      (handleFrame_mirrors cfg frame s.pending).of_ok ⟨htick, hready⟩ hframe
    have href : reference start (history ++ [(turn cfg frame s).1]) =
        s'.log.foldl Reference.see (reference start history).tick := by
      rw [reference, List.foldl_append, List.foldl_cons, List.foldl_nil, Reference.follow,
        turn_before, hrun, hevents, if_neg Bool.false_ne_true]
      rfl
    rw [href, hafter]
    exact hmirrors

/-- Over every session in which statements are planned between two units, and the unnamed
statement is used only while no preflight has taken its place. -/
theorem queryLoop_transparent (cfg : Config F) (frames : List RawFrame) (pg : PgSession) (rest : τ)
    (hsynced : pg.Synced)
    (hmet : History.EveryStep
      (fun history t => t.PlansBetweenUnits ∧ UsesOwnUnnamed pg history t)
      (queryLoop cfg frames (Loop.start cfg (pg, rest) [])).1) :
    History.EveryStep (TurnTransparent pg)
      (queryLoop cfg frames (Loop.start cfg (pg, rest) [])).1 := by
  have hstart : TransparencyInv pg ([] : List (Turn (PgSession × τ) F))
      (Loop.start cfg (pg, rest) []) :=
    fun _ => ⟨⟨rfl, rfl, rfl, fun _ _ => rfl, fun _ => rfl⟩, fun _ => hsynced⟩
  exact (History.run_rule_where (turn cfg) (TransparencyInv pg) (fun _ => True)
    (fun history t => t.PlansBetweenUnits ∧ UsesOwnUnnamed pg history t) (TurnTransparent pg)
    (fun history s frame _ hmet hinv => turn_transparent cfg pg history s frame hmet.1 hmet.2 hinv)
    hstart (fun _ _ => trivial) hmet).2

end

/-! ## Two sessions over the small backend -/

/-- The unnamed statement is bound in the unit that prepares it. -/
def unnamedAtOnce : List RawFrame :=
  [parseFrame "" "SELECT 1", bindFrame "" "", executeFrame "", syncFrame,
    parseFrame "s" "SELECT 2", bindFrame "" "s", executeFrame "", syncFrame]

/-- The unnamed statement is bound after another one was prepared. -/
def unnamedLater : List RawFrame :=
  [parseFrame "" "SELECT 1", syncFrame, parseFrame "s" "SELECT 2", syncFrame, bindFrame "" "",
    syncFrame]

/-- No preflight comes between the statement and its use. -/
theorem queryLoop_transparent_small :
    letI := Database.oneRow
    History.EveryStep (TurnTransparent PgSession.start) (smallRun unnamedAtOnce) := by
  let _ := Outside.still
  let _ := Database.oneRow
  let _ := Runtime.hundredths
  let _ := Parser.small
  have hmet : History.EveryStep
      (fun history t => t.PlansBetweenUnits ∧ UsesOwnUnnamed PgSession.start history t)
      (smallRun unnamedAtOnce) := by
    rw [History.everyStep_iff_get]
    unfold Turn.PlansBetweenUnits Turn.Plans UsesOwnUnnamed
    decide +kernel
  exact queryLoop_transparent Config.small unnamedAtOnce PgSession.start () ⟨rfl, rfl⟩ hmet

/-- The event passes this frame on. -/
def Event.passes {F : Type} (frame : RawFrame) : Event F → Bool
  | .forwarded _ f => f = frame
  | _ => false

/-- The agent binds its unnamed statement and gets the `EXPLAIN` of another one. -/
theorem queryLoop_unnamed_lost :
    letI := Database.oneRow
    ¬ History.EveryStep (TurnTransparent PgSession.start) (smallRun unnamedLater) := by
  let _ := Database.oneRow
  intro h
  have hbound : ∃ i : Fin (smallRun unnamedLater).length,
      ((smallRun unnamedLater).get i).frame = bindFrame "" "" ∧
      (∃ e ∈ ((smallRun unnamedLater).get i).events, e.passes (bindFrame "" "") = true) ∧
      ((smallRun unnamedLater).get i).before.world.outside.1.prepared "" ≠
        (reference PgSession.start ((smallRun unnamedLater).take i)).pg.prepared "" := by
    decide +kernel
  obtain ⟨i, hframe, ⟨e, he, hpasses⟩, hlost⟩ := hbound
  refine hlost (History.everyStep_iff_get.mp h i "" "" [0, 0, 0, 0, 0, 0] ?_ ?_)
  · rw [hframe]
    exact decode_bind_encode (by decide) (by decide) _
  · cases e with
    | forwarded n frame =>
        rw [hframe]
        have hsame : frame = bindFrame "" "" := by simpa [Event.passes] using hpasses
        exact ⟨n, hsame ▸ he⟩
    | _ => cases hpasses

end PgBrakes.Ports.Proxy
