import PgBrakes.Ports.PgSession
import PgBrakes.Ports.ProxyGating
import PgBrakes.Ports.WireCanonical

/-!
# The frame that was judged and the frame that is passed on

The gate judges the message a frame decodes to, and `forwardFrame` passes the frame on as
it came.  Over every session the two have the same bytes for those frames whose body ends
where the layout of its tag ends.  The decoder does not ask for that: a `Sync` with a byte
in its body is allowed as a `Sync` and reaches the backend with the byte.
-/

namespace PgBrakes.Ports.Proxy

open PgBrakes.Ports.ExplainGate
open PgBrakes.Ports.ReadAst (Parser)
open PgBrakes.Ports.Wire
open PgBrakes.Verified

variable {σ F : Type}

/-- The turn passes a frame on. -/
def Turn.Forwards (t : Turn σ F) : Prop := ∃ n frame, .forwarded n frame ∈ t.events

section
variable [Parser]

/-- What the turn passes on has the bytes of the message that was judged and allowed. -/
def Turn.Verbatim (t : Turn σ F) : Prop :=
  ∀ n frame, .forwarded n frame ∈ t.events →
    ∃ msg statement, FrontendMessage.decode t.frame = .ok msg ∧ gate msg = .allow statement ∧
      frameTagged msg.encode = frameTagged frame

/-- A frame that has passed the gate decodes to a message the gate allows. -/
theorem gate_of_passed [Runtime F] {ceiling : ExplainCeiling F} {frame : RawFrame}
    {before : List (Event F)} (h : PassedGate ceiling frame before) :
    ∃ msg statement, FrontendMessage.decode frame = .ok msg ∧ gate msg = .allow statement := by
  obtain ⟨msg, hdecode, htag, hparse⟩ := h
  rw [decode_tag hdecode] at htag
  cases msg with
  | parse statement sql paramTypes =>
      exact ⟨_, _, hdecode, (hparse statement sql paramTypes rfl).1⟩
  | query sql => exact absurd htag (by simp [FrontendMessage.tag])
  | copyData data => exact absurd htag (by simp [FrontendMessage.tag])
  | copyDone => exact absurd htag (by simp [FrontendMessage.tag])
  | copyFail message => exact absurd htag (by simp [FrontendMessage.tag])
  | _ => exact ⟨_, none, hdecode, rfl⟩

variable [Outside σ] [Runtime F]

/-- What a turn passes on is its own frame, and the gate has allowed the message of it. -/
theorem turn_judged (cfg : Config F) {frame frame' : RawFrame} {s : Loop σ} {n : Nat}
    (h : .forwarded n frame' ∈ (turn cfg frame s).1.events) :
    frame' = frame ∧
      ∃ msg statement, FrontendMessage.decode frame = .ok msg ∧ gate msg = .allow statement := by
  obtain ⟨hrun, -⟩ := forwarded_running cfg h
  obtain ⟨next, ⟨hways, -, -⟩, -⟩ := turn_handled cfg frame hrun
  rcases hways with hheld | ⟨-, pre, n₀, post, heq, hpre, hpost, -, -, hpassed⟩
  · exact absurd (hheld _ h) (by simp [Event.forwards])
  · obtain ⟨pre', post', hevents⟩ := List.append_of_mem h
    obtain ⟨-, hframe⟩ := forwarded_unique heq hpre hpost hevents
    exact ⟨hframe, gate_of_passed hpassed⟩

/-- A turn that passes its frame on does so verbatim when the body ends with the layout. -/
theorem turn_verbatim_iff (cfg : Config F) (frame : RawFrame) (s : Loop σ) :
    (turn cfg frame s).1.Verbatim ↔
      ((turn cfg frame s).1.Forwards → EndsWithLayout frame.tag frame.body) := by
  unfold Turn.Verbatim
  rw [turn_frame]
  constructor
  · rintro hverbatim ⟨n, frame', hforwarded⟩
    obtain ⟨msg, -, hdecode, -, hbytes⟩ := hverbatim n frame' hforwarded
    obtain ⟨rfl, -⟩ := turn_judged cfg hforwarded
    exact (decode_canonical_iff hdecode).1.mp hbytes
  · intro hends n frame' hforwarded
    obtain ⟨rfl, msg, statement, hdecode, hgate⟩ := turn_judged cfg hforwarded
    have hlayout : EndsWithLayout frame'.tag frame'.body := hends ⟨n, frame', hforwarded⟩
    exact ⟨msg, statement, hdecode, hgate, (decode_canonical_iff hdecode).1.mpr hlayout⟩

/-- Encoding gives an accepted frame back, with nothing left of it, exactly when its body
ends where the layout of its tag ends; and over every session that is when the backend
gets the bytes of the message that was judged. -/
theorem queryLoop_verbatim_iff (cfg : Config F) (frames : List RawFrame) (outside : σ)
    (inbox : List Reply) :
    (∀ frame msg, FrontendMessage.decode frame = .ok msg →
      (frameTagged msg.encode = frameTagged frame ↔ EndsWithLayout frame.tag frame.body) ∧
        ((readFrontend frame.tag frame.body).2 = [] ↔ EndsWithLayout frame.tag frame.body)) ∧
    ∀ t ∈ (queryLoop cfg frames (Loop.start cfg outside inbox)).1,
      t.Verbatim ↔ (t.Forwards → EndsWithLayout t.frame.tag t.frame.body) := by
  refine ⟨fun frame msg h => decode_canonical_iff h, History.everyStep_iff_forall.mp ?_⟩
  refine (History.run_rule (turn cfg) (fun _ _ => True) (fun _ => True) _
    (fun history s frame _ _ => ⟨?_, trivial⟩) trivial (fun _ _ => trivial)).2
  rw [turn_frame]
  exact turn_verbatim_iff cfg frame s

end

/-! ## Two sessions over the small backend -/

/-- Each frame of the unit ends with its layout and reaches the backend as it was judged. -/
theorem queryLoop_verbatim_small :
    letI := Parser.small
    FrontendMessage.decode ⟨tagExecute, [0, 0, 0, 0, 7]⟩ = .ok (.execute "" 7) ∧
      frameTagged (FrontendMessage.execute "" 7).encode =
        frameTagged ⟨tagExecute, [0, 0, 0, 0, 7]⟩ ∧
      History.EveryStep (fun _ t => t.Verbatim)
        (smallRun [parseFrame "" "SELECT 1", bindFrame "" "", executeFrame "", syncFrame]) := by
  let _ := Outside.still
  let _ := Database.oneRow
  let _ := Runtime.hundredths
  let _ := Parser.small
  obtain ⟨hframes, hturns⟩ := queryLoop_verbatim_iff Config.small
    [parseFrame "" "SELECT 1", bindFrame "" "", executeFrame "", syncFrame] (PgSession.start, ()) []
  have hdecode : FrontendMessage.decode ⟨tagExecute, [0, 0, 0, 0, 7]⟩ = .ok (.execute "" 7) := by
    rfl
  have hends : ∀ t ∈ smallRun [parseFrame "" "SELECT 1", bindFrame "" "", executeFrame "",
      syncFrame], EndsWithLayout t.frame.tag t.frame.body := by
    decide +kernel
  refine ⟨hdecode, (hframes _ _ hdecode).1.mpr (by decide), History.everyStep_iff_forall.mpr ?_⟩
  intro t ht
  exact (hturns t ht).mpr fun _ => hends t ht

/-- A `Sync` with a byte in its body. -/
def paddedSync : RawFrame := ⟨tagSync, [0]⟩

/-- The byte is ignored where the frame is judged, and sent where it is passed on. -/
theorem paddedSync_not_verbatim :
    letI := Parser.small
    (¬ ∀ frame msg, frame.tag ≠ tagPassword → FrontendMessage.decode frame = .ok msg →
      frameTagged msg.encode = frameTagged frame) ∧
    ¬ History.EveryStep (fun _ t => t.Verbatim) (smallRun [paddedSync]) := by
  let _ := Parser.small
  have hdecode : FrontendMessage.decode paddedSync = .ok .sync := rfl
  have hbytes : frameTagged FrontendMessage.sync.encode ≠ frameTagged paddedSync := by decide
  refine ⟨fun h => hbytes (h paddedSync .sync (by decide) hdecode), fun h => ?_⟩
  have hforwarded : ∃ t ∈ smallRun [paddedSync], t.frame = paddedSync ∧
      .forwarded 0 paddedSync ∈ t.events :=
    ⟨_, List.mem_cons_self, rfl, List.mem_cons_self⟩
  obtain ⟨t, ht, hframe, hevent⟩ := hforwarded
  obtain ⟨msg, -, hmsg, -, hsame⟩ :=
    History.everyStep_iff_forall.mp h t ht 0 paddedSync hevent
  rw [hframe, hdecode] at hmsg
  cases hmsg
  exact hbytes hsame

end PgBrakes.Ports.Proxy
