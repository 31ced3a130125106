import PgBrakes.Ports.PgSession

/-!
# Agent and backend in step

At a `Sync` the agent is owed one `ReadyForQuery`, and afterwards the link to the
backend should be idle: every frame that was passed on has been followed by a `Sync`
and every answer has been read.

A frame that is refused for what it is makes the session answer the `Sync` itself and
swallow it.  Where frames of the same unit had been passed on before, these stay without
a `Sync` and their answers unread.  That is the only way to fall out of step: a unit is
in step when each such refusal finds nothing passed on since the last `Sync`.

## Main results

* `queryLoop_inStep` — under that condition every finished `Sync` leaves agent and
  backend in step.
* `queryLoop_outOfStep` — a unit whose second `Parse` is a write.
-/

namespace PgBrakes.Ports.Proxy

open PgBrakes.Ports.ExplainGate
open PgBrakes.Ports.ReadAst (Parser)
open PgBrakes.Ports.Wire
open PgBrakes.Verified.Effect
open PgBrakes.Verified

variable {σ F : Type}

/-- The turn took a `Sync` to its end with exactly one `ReadyForQuery` for the agent, and
left the link to the backend idle. -/
def Turn.InStep (t : Turn σ F) : Prop :=
  t.before.ended = false → t.after.ended = false → t.Syncs →
    readyCount t.events = 1 ∧ t.after.world.Idle

section
variable [Outside σ] [Runtime F] [Parser]

/-- Where the frame is refused for what it is, nothing was passed on since the last
`Sync`. -/
def Turn.RefusesBetweenUnits (t : Turn σ F) : Prop :=
  t.before.ended = false → t.before.pending = none → blockedByGate t.frame = true →
    t.before.world.unsynced = []

/-- Between two turns of a running session: the link is clean, and while a refusal waits
every frame has been followed by a `Sync`. -/
def LockstepInv (_ : List (Turn σ F)) (s : Loop σ) : Prop :=
  s.ended = false → s.world.Clean ∧ (s.pending.isSome → s.world.unsynced = [])

theorem turn_inStep (hprotocol : FollowsProtocol σ) (cfg : Config F) (history : List (Turn σ F))
    (s : Loop σ) (frame : RawFrame) (hmet : (turn cfg frame s).1.RefusesBetweenUnits)
    (hinv : LockstepInv history s) :
    (turn cfg frame s).1.InStep ∧
      LockstepInv (history ++ [(turn cfg frame s).1]) (turn cfg frame s).2 := by
  by_cases hended : s.ended = true
  · rw [turn_ended cfg frame hended]
    exact ⟨fun hrun => absurd (hended.symm.trans hrun) (by decide), hinv⟩
  have hrun : s.ended = false := by simpa using hended
  obtain ⟨hclean, hwaits⟩ := hinv hrun
  -- A refusal that waits afterwards: it waited before, or the frame was refused for what
  -- it is, or for its plan.
  have hidle (hrunning : (turn cfg frame s).2.ended = false)
      (hpending : (turn cfg frame s).2.pending.isSome ∨ s.pending.isSome) :
      (turn cfg frame s).2.world.unsynced = [] := by
    have hlink := turn_link hprotocol cfg frame hrun hclean hrunning
    by_cases hwaiting : s.pending.isSome
    · exact (hlink.held (.inl hwaiting)).trans (hwaits hwaiting)
    have hnone : s.pending = none := by simpa using hwaiting
    have hrefused : (turn cfg frame s).2.pending.isSome := hpending.resolve_right hwaiting
    cases hblocked : blockedByGate frame with
    | false => exact hlink.planned hnone hblocked hrefused
    | true =>
        refine (hlink.held (.inr hblocked)).trans ?_
        simpa using hmet (by simpa using hrun) (by simpa using hnone) (by simpa using hblocked)
  refine ⟨fun _ hafter hsyncs => ?_, fun hrunning => ?_⟩
  · rw [turn_after] at hafter ⊢
    rw [Turn.Syncs, turn_frame] at hsyncs
    have hlink := turn_link hprotocol cfg frame hrun hclean hafter
    refine ⟨hlink.ready hsyncs, ?_⟩
    cases hpending : s.pending with
    | none => exact hlink.relayed hsyncs hpending
    | some err =>
        have hsynced := hidle hafter (.inr (by rw [hpending]; rfl))
        exact ⟨hlink.clean.2 hsynced, hsynced⟩
  · have hlink := turn_link hprotocol cfg frame hrun hclean hrunning
    exact ⟨hlink.clean, fun hpending => hidle hrunning (.inl hpending)⟩

/-- Agent and backend stay in step over every session in which a frame is refused for
what it is only between two units. -/
theorem queryLoop_inStep (hprotocol : FollowsProtocol σ) (cfg : Config F) (frames : List RawFrame)
    (outside : σ)
    (hmet : ∀ t ∈ (queryLoop cfg frames (Loop.start cfg outside [])).1, t.RefusesBetweenUnits) :
    ∀ t ∈ (queryLoop cfg frames (Loop.start cfg outside [])).1, t.InStep := by
  have hstart : LockstepInv ([] : List (Turn σ F)) (Loop.start cfg outside []) :=
    fun _ => ⟨start_clean cfg outside, fun h => by cases h⟩
  have hsteps : History.EveryStep (fun _ t => t.RefusesBetweenUnits)
      (History.run (turn cfg) frames (Loop.start cfg outside [])).1 :=
    History.everyStep_iff_forall.mpr hmet
  have hrule := History.run_rule_where (turn cfg) LockstepInv (fun _ => True)
    (fun _ t => t.RefusesBetweenUnits) (fun _ t => t.InStep)
    (fun history s frame _ hmet hinv => turn_inStep hprotocol cfg history s frame hmet hinv)
    hstart (fun _ _ => trivial) hsteps
  exact History.everyStep_iff_forall.mp hrule.2

end

/-! ## Two sessions over the small backend -/

/-- A write on its own, and then a read. -/
def unitsInStep : List RawFrame :=
  [parseFrame "" "DELETE FROM t", syncFrame, parseFrame "" "SELECT 1", bindFrame "" "",
    executeFrame "", syncFrame]

/-- A write behind a read in one unit. -/
def unitOutOfStep : List RawFrame :=
  [parseFrame "" "SELECT 1", parseFrame "" "DELETE FROM t", syncFrame]

/-- Each refusal stands on its own, and so the session stays in step. -/
theorem queryLoop_inStep_small :
    letI := Parser.small
    (∀ t ∈ smallRun unitsInStep, t.RefusesBetweenUnits) ∧
      ∀ t ∈ smallRun unitsInStep, t.InStep := by
  let _ := Outside.still
  let _ := Database.oneRow
  let _ := Runtime.hundredths
  let _ := Parser.small
  have hmet : ∀ t ∈ smallRun unitsInStep, t.RefusesBetweenUnits := by
    unfold Turn.RefusesBetweenUnits
    decide +kernel
  exact ⟨hmet, queryLoop_inStep (followsProtocol_pg Unit) Config.small unitsInStep
    (PgSession.start, ()) hmet⟩

/-- The `Sync` is answered although a frame before it is still without one. -/
theorem queryLoop_outOfStep :
    letI := Outside.still
    letI := Database.oneRow
    FollowsProtocol (PgSession × Unit) ∧ ¬ ∀ t ∈ smallRun unitOutOfStep, t.InStep := by
  let _ := Outside.still
  let _ := Database.oneRow
  refine ⟨followsProtocol_pg Unit, fun h => ?_⟩
  have hlast : ∃ t ∈ smallRun unitOutOfStep, t.before.ended = false ∧ t.after.ended = false ∧
      t.frame = syncFrame ∧ t.after.world.unsynced ≠ [] := by
    decide +kernel
  obtain ⟨t, ht, hrun, hafter, hframe, hunsynced⟩ := hlast
  have hsyncs : t.Syncs := by
    rw [Turn.Syncs, hframe]
    rfl
  exact hunsynced (h t ht hrun hafter hsyncs).2.2

end PgBrakes.Ports.Proxy
