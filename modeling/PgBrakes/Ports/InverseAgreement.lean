import PgBrakes.Ports.GuardedApplyAtomicity
import PgBrakes.Ports.InverseShape
import PgBrakes.Ports.RevertRouting

/-!
# Where the inverse's writer and its reader agree

The apply counts captured rows relation by relation, writes them into one flat
list with the relation as an extra column, and the revert reads them back out.
The three loops run over different relations: the coverage check over the
relations that changed, the writer over the predicted cascades, the reader over
whatever the stamps say.  And the routing column has a name a user's column may
have too.

## Main results

* `rowsFor_inverse` — what the reader gives each relation, for target rows that
  carry no stamp of their own.
* `handsOver_iff` — the revert hands over every row the coverage check counted,
  exactly when those rows belong to predicted relations and carry a pre-image
  without the routing column, and no predicted cascade row is unreadable.
-/

namespace PgBrakes.Ports.InverseAgreement

open PgBrakes.Verified.Effect
open PgBrakes.Ports.KeyChecksum
open PgBrakes.Ports.TypedInverse
open PgBrakes.Ports.BlastRecord
open PgBrakes.Ports.GuardedApply
open PgBrakes.Ports.GuardedApplyRun
open PgBrakes.Ports.GuardedApplyAtomicity
open PgBrakes.Ports.InverseShape
open PgBrakes.Ports.Revert
open PgBrakes.Ports.RevertRouting

variable {ω υ : Type}

/-! ## What was counted, and what was handed over -/

/-- The coverage check counted the relation's captured rows: the target's
always, another relation's when it shows a change. -/
def Counted (target : String) (deltas : List RelationChange) (rel : String) : Prop :=
  rel = target ∨ ∃ change ∈ deltas, change.relation = rel ∧ change.total ≠ 0

/-- The rows `capturedFor` counts. -/
def capturedRows (target : String) (forward : ForwardResult) (rel : String) :
    List CapturedRow :=
  if rel = target then forward.written else forward.cascadeRows rel

/-- A captured row, as it should reach the revert's connection. -/
def asRestored (row : CapturedRow) : RevertRow :=
  { pk := row.pk, beforeImage := row.beforeImage }

/-- The rows a log hands over under a relation. -/
def handed (log : List RevertCall) (rel : String) : List RevertRow :=
  ((restores log).filter fun call => call.1 = rel).flatMap Prod.snd

/-- Every counted row is handed over once, under its own relation, with its key
and its columns. -/
def HandsOver (target : String) (deltas : List RelationChange) (forward : ForwardResult)
    (log : List RevertCall) : Prop :=
  ∀ rel, Counted target deltas rel →
    handed log rel = (capturedRows target forward rel).map asRestored

/-- A captured row whose pre-image is not empty and has no column of the routing
name. -/
structure Plain (row : CapturedRow) : Prop where
  columns : row.beforeImage ≠ []
  unstamped : ∀ cell ∈ row.beforeImage, cell.1 ≠ relationStamp

/-- A captured row the reader does not refuse once it is stamped. -/
structure Restorable (row : CapturedRow) : Prop where
  readable : Readable row.beforeImage
  columns : strip row.beforeImage ≠ []

/-! ## What the reader gives each relation -/

/-- A cascade row goes to the relation the writer stamped it with. -/
private theorem rowsFor_cascade (target rel c : String) (rows : List CapturedRow) :
    rowsFor target rel (rows.map (stampRow c)) =
      if c = rel then rows.map fun row => ⟨row.pk, strip row.beforeImage⟩ else [] := by
  have howner : ∀ row : CapturedRow, owner target (stampRow c row).beforeImage = c := by
    intro row
    rw [owner, stampRow, stampOf_stamped, Option.getD_some]
  unfold rowsFor
  rw [List.filter_map, List.map_map]
  by_cases hc : c = rel
  · rw [if_pos hc, List.filter_eq_self.mpr]
    · simp [Function.comp_def, toRevertRow, stampRow, strip_stamped]
    · intro row _
      simpa [howner row] using hc
  · rw [if_neg hc, List.filter_eq_nil_iff.mpr]
    · rfl
    · intro row _
      simp [howner row, hc]

theorem rowsFor_append (target rel : String) (l₁ l₂ : List InverseRow) :
    rowsFor target rel (l₁ ++ l₂) = rowsFor target rel l₁ ++ rowsFor target rel l₂ := by
  simp [rowsFor]

theorem rowsFor_cascades (target rel : String) (forward : ForwardResult) :
    ∀ names : List String, names.Nodup →
      rowsFor target rel
        (names.flatMap fun c => (forward.cascadeRows c).map (stampRow c)) =
      if rel ∈ names then
        (forward.cascadeRows rel).map fun row => ⟨row.pk, strip row.beforeImage⟩
      else [] := by
  intro names
  induction names with
  | nil => intro _; simp [rowsFor]
  | cons c names ih =>
      intro hnodup
      obtain ⟨hc, hrest⟩ := List.nodup_cons.mp hnodup
      rw [List.flatMap_cons, rowsFor_append, rowsFor_cascade, ih hrest]
      by_cases hrel : c = rel
      · subst hrel
        simp [hc]
      · have hne : rel ≠ c := fun h => hrel h.symm
        simp [hrel, hne]

private theorem rowsFor_target (target rel : String) {rows : List CapturedRow}
    (h : ∀ row ∈ rows, stampOf row.beforeImage = none) :
    rowsFor target rel (rows.map targetRow) =
      if rel = target then rows.map fun row => ⟨row.pk, strip row.beforeImage⟩ else [] := by
  have howner : ∀ row ∈ rows, owner target (targetRow row).beforeImage = target := by
    intro row hrow
    rw [owner, targetRow, h row hrow, Option.getD_none]
  unfold rowsFor
  rw [List.filter_map, List.map_map]
  by_cases hrel : rel = target
  · rw [if_pos hrel, List.filter_eq_self.mpr]
    · simp [Function.comp_def, toRevertRow, targetRow]
    · intro row hrow
      simp [howner row hrow, hrel]
  · rw [if_neg hrel, List.filter_eq_nil_iff.mpr]
    · rfl
    · intro row hrow
      have hne : target ≠ rel := fun h => hrel h.symm
      simp [howner row hrow, hne]

/-- What the reader gives each relation, for target rows that carry no stamp of
their own. -/
theorem rowsFor_inverse {target : String} {predicted : PredictedBlastRadius}
    {forward : ForwardResult} (hnodup : (cascadeNames predicted).Nodup)
    (htarget : target ∉ cascadeNames predicted)
    (hplain : ∀ row ∈ forward.written, stampOf row.beforeImage = none)
    {rel : String} (hrel : rel ∈ target :: cascadeNames predicted) :
    rowsFor target rel
      (forward.written.map targetRow ++ cascadeInverseRows predicted forward) =
      (capturedRows target forward rel).map fun row => ⟨row.pk, strip row.beforeImage⟩ := by
  rw [rowsFor_append, rowsFor_target target rel hplain, cascadeInverseRows,
    rowsFor_cascades target rel forward _ hnodup, capturedRows]
  rcases List.mem_cons.mp hrel with rfl | hmem
  · simp [htarget]
  · have hne : rel ≠ target := fun h => htarget (h ▸ hmem)
    simp [hne, hmem]

/-! ## The agreement -/

/-- The condition on what the connection captured: every counted row belongs to
the target or to a predicted cascade, has a pre-image without the routing
column, and no row of a predicted cascade is one the reader refuses. -/
def Agrees (target : String) (predicted : PredictedBlastRadius) (deltas : List RelationChange)
    (forward : ForwardResult) : Prop :=
  ∀ rel, Counted target deltas rel → ∀ row ∈ capturedRows target forward rel,
    rel ∈ target :: cascadeNames predicted ∧ Plain row ∧
      ∀ c ∈ cascadeNames predicted, ∀ r ∈ forward.cascadeRows c, Restorable r

/-- The rows a whole walk hands over under a relation of the list. -/
private theorem handed_walk (routed : Std.TreeMap String (List RevertRow)) (rel : String) :
    ∀ relations : List String, relations.Nodup →
      ((walk routed relations).filter fun call => call.1 = rel).flatMap Prod.snd =
        if rel ∈ relations then routed.getD rel [] else [] := by
  intro relations
  induction relations with
  | nil => intro _; simp [walk]
  | cons r relations ih =>
      intro hnodup
      obtain ⟨hr, hrest⟩ := List.nodup_cons.mp hnodup
      have hih := ih hrest
      simp only [walk, List.map_cons] at hih ⊢
      by_cases hrel : r = rel
      · subst hrel
        rw [if_neg hr] at hih
        simp [hih]
      · have hne : rel ≠ r := fun h => hrel h.symm
        simp [hrel, hne, hih]

/-- An unreadable or empty cascade row makes the reader refuse the inverse. -/
private theorem restorable_of_routable {inverse : InversePlan} {c : String}
    {row : CapturedRow} (h : Routable inverse (stampRow c row)) : Restorable row where
  readable := (readable_stamped row.beforeImage c).mp h.readable
  columns := by
    rw [← strip_stamped row.beforeImage c]
    exact h.columns

/-- Under the condition, and when there is a counted row at all, the reader takes
every row of the inverse. -/
private theorem routable_of_agrees {kind : WriteKind} {target : String}
    {predicted : PredictedBlastRadius} {deltas : List RelationChange} {forward : ForwardResult}
    (h : Agrees target predicted deltas forward) {rel : String}
    (hcounted : Counted target deltas rel) {row : CapturedRow}
    (hrow : row ∈ capturedRows target forward rel) :
    ∀ r ∈ (buildInverse kind target predicted forward).rows,
      Routable (buildInverse kind target predicted forward) r := by
  intro r hr
  simp only [buildInverse_eq] at hr ⊢
  rcases List.mem_append.mp hr with hr | hr
  · obtain ⟨row', hrow', rfl⟩ := List.mem_map.mp hr
    have hplain := (h target (.inl rfl) row' (by simpa [capturedRows] using hrow')).2.1
    refine ⟨readable_unstamped hplain.unstamped, ?_, ?_⟩
    · rw [owner, targetRow, stampOf_unstamped hplain.unstamped]
      simp
    · rw [targetRow, strip_unstamped hplain.unstamped]
      exact hplain.columns
  · obtain ⟨c, hc, hmem⟩ := List.mem_flatMap.mp hr
    obtain ⟨row', hrow', rfl⟩ := List.mem_map.mp hmem
    have hrest := (h rel hcounted row hrow).2.2 c hc row' hrow'
    refine ⟨(readable_stamped _ _).mpr hrest.readable, ?_, ?_⟩
    · rw [owner, stampRow, stampOf_stamped]
      simp [hc]
    · rw [stampRow, strip_stamped]
      exact hrest.columns

/-- What a revert over an accepting connection hands over, once the inverse can
be routed. -/
private theorem handed_revert {kind : WriteKind} {target : String}
    {predicted : PredictedBlastRadius} {forward : ForwardResult}
    (hnodup : (cascadeNames predicted).Nodup) (htarget : target ∉ cascadeNames predicted)
    {conn : RevertConn υ} (hconn : Accepting conn) (v : υ)
    (hroute : ∃ routed, routeRows (buildInverse kind target predicted forward) = .ok routed)
    (rel : String) :
    handed (revert (buildInverse kind target predicted forward) conn ⟨v, []⟩).2.log rel =
      if rel ∈ target :: cascadeNames predicted then
        rowsFor target rel
          (forward.written.map targetRow ++ cascadeInverseRows predicted forward)
      else [] := by
  obtain ⟨routed, hrouted⟩ := hroute
  have hkind : (buildInverse kind target predicted forward).kind ≠ .none := by
    rw [buildInverse_eq]
    cases kind <;> simp
  obtain ⟨relations', -, hlog, hall⟩ := revert_restores hkind hrouted conn v
  have hget := routeRows_getD hrouted rel
  rw [hall hconn] at hlog
  simp only [buildInverse_eq] at hlog hget ⊢
  rw [handed, hlog, handed_walk routed rel _ (List.nodup_cons.mpr ⟨htarget, hnodup⟩), hget]

section Directions

variable {kind : WriteKind} {target : String} {predicted : PredictedBlastRadius}
  {deltas : List RelationChange} {forward : ForwardResult} {conn : RevertConn υ}

/-- Rows that are handed over need an inverse that was routed, and a relation of it. -/
private theorem routed_of_handed (hnodup : (cascadeNames predicted).Nodup)
    (htarget : target ∉ cascadeNames predicted) (hconn : Accepting conn) (v : υ) {rel : String}
    (hne : handed (revert (buildInverse kind target predicted forward) conn ⟨v, []⟩).2.log
      rel ≠ []) :
    (∃ routed, routeRows (buildInverse kind target predicted forward) = .ok routed) ∧
      rel ∈ target :: cascadeNames predicted := by
  have hroute : ∃ routed, routeRows (buildInverse kind target predicted forward) =
      .ok routed := by
    by_contra hno
    rw [handed, revert_restores_nil hno] at hne
    exact hne rfl
  rw [handed_revert hnodup htarget hconn v hroute] at hne
  refine ⟨hroute, ?_⟩
  by_contra hno
  exact hne (if_neg hno)

private theorem agrees_of_handsOver (hnodup : (cascadeNames predicted).Nodup)
    (htarget : target ∉ cascadeNames predicted) (hconn : Accepting conn) (v : υ)
    (hands : HandsOver target deltas forward
      (revert (buildInverse kind target predicted forward) conn ⟨v, []⟩).2.log) :
    Agrees target predicted deltas forward := by
  intro rel hcounted row hrow
  have hrel := hands rel hcounted
  have hin : asRestored row ∈ (capturedRows target forward rel).map asRestored :=
    List.mem_map_of_mem hrow
  rw [← hrel] at hin
  obtain ⟨hroute, hmem⟩ :=
    routed_of_handed hnodup htarget hconn v (List.ne_nil_of_mem hin)
  have hall := (routeRows_ok_iff _).mp hroute
  rw [handed_revert hnodup htarget hconn v hroute, if_pos hmem] at hin
  refine ⟨hmem, ?_, ?_⟩
  · -- The row is what is left of some row of the inverse without its stamp.
    obtain ⟨r, hr, heq⟩ := List.mem_map.mp hin
    have himage : strip r.beforeImage = row.beforeImage := congrArg RevertRow.beforeImage heq
    have hrout := hall r (by rw [buildInverse_eq]; exact List.mem_of_mem_filter hr)
    constructor
    · rw [← himage]
      exact hrout.columns
    · intro cell hcell
      rw [← himage, strip, List.mem_filter] at hcell
      simpa using hcell.2
  · intro c hc r hr
    apply restorable_of_routable (c := c)
    apply hall
    rw [buildInverse_eq]
    refine List.mem_append_right _ (List.mem_flatMap.mpr ⟨c, hc, ?_⟩)
    exact List.mem_map_of_mem hr

private theorem handsOver_of_agrees (hnodup : (cascadeNames predicted).Nodup)
    (htarget : target ∉ cascadeNames predicted) (hconn : Accepting conn) (v : υ)
    (hagrees : Agrees target predicted deltas forward) :
    HandsOver target deltas forward
      (revert (buildInverse kind target predicted forward) conn ⟨v, []⟩).2.log := by
  intro rel hcounted
  have hplain : ∀ row ∈ forward.written, stampOf row.beforeImage = none := by
    intro row hrow
    have hp := (hagrees target (.inl rfl) row (by simpa [capturedRows] using hrow)).2.1
    exact stampOf_unstamped hp.unstamped
  have hstrip : (capturedRows target forward rel).map
      (fun row => (⟨row.pk, strip row.beforeImage⟩ : RevertRow)) =
      (capturedRows target forward rel).map asRestored := by
    apply List.map_congr_left
    intro row hrow
    rw [strip_unstamped (hagrees rel hcounted row hrow).2.1.unstamped, asRestored]
  by_cases hnone : capturedRows target forward rel = []
  · -- Nothing was counted: whatever is routed, this relation gets no row.
    by_contra hhanded
    rw [hnone, List.map_nil] at hhanded
    obtain ⟨hroute, hmem⟩ := routed_of_handed hnodup htarget hconn v hhanded
    apply hhanded
    rw [handed_revert hnodup htarget hconn v hroute, if_pos hmem,
      rowsFor_inverse hnodup htarget hplain hmem, hnone, List.map_nil]
  · obtain ⟨row, hrow⟩ := List.exists_mem_of_ne_nil _ hnone
    have hroute := (routeRows_ok_iff (buildInverse kind _ _ _)).mpr
      (routable_of_agrees hagrees hcounted hrow)
    have hmem := (hagrees rel hcounted row hrow).1
    rw [handed_revert hnodup htarget hconn v hroute, if_pos hmem,
      rowsFor_inverse hnodup htarget hplain hmem, hstrip]

end Directions

/-- The revert of a captured inverse hands over every row the coverage check
counted, exactly when what the connection captured meets `Agrees`. -/
theorem handsOver_iff {i : Invocation ω} {w : ω} {t : Transcript ω} (h : CommitPoint i w t)
    {conn : RevertConn υ} (hconn : Accepting conn) (v : υ) :
    HandsOver i.relation t.deltas t.forward
        (revert (buildInverse i.kind i.relation t.predicted t.forward) conn ⟨v, []⟩).2.log ↔
      Agrees i.relation t.predicted t.deltas t.forward := by
  have hgrant := fromGrant_of_preflight h.preflight
  have hnodup := cascades_nodup hgrant
  have htarget := target_notMem_cascades hgrant
  constructor
  · intro hands
    exact agrees_of_handsOver hnodup htarget hconn v hands
  · intro hagrees
    exact handsOver_of_agrees hnodup htarget hconn v hagrees

/-! ## A user column of the routing name -/

/-- A revert connection that accepts every call. -/
def acceptingConn : RevertConn Unit where
  begin := pure ()
  restoreUpdate _ rows := pure rows.length
  restoreInsert _ rows := pure rows.length
  commit := pure ()
  rollback := pure ()

theorem acceptingConn_accepting : Accepting acceptingConn where
  begin w := ⟨w, rfl⟩
  restoreUpdate _ rows w := ⟨rows.length, w, rfl⟩
  restoreInsert _ rows w := ⟨rows.length, w, rfl⟩

/-- Two updated rows of a table that has a column called `__relation`. -/
def stampedForward : ForwardResult :=
  .new
    [ { pk := .single (.int 1)
        beforeImage := [("owner", .text "a"), ("__relation", .text "friend")] }
    , { pk := .single (.int 2)
        beforeImage := [("owner", .text "b"), ("__relation", .text "family")] } ]

/-- The apply that updates them. -/
def stampedRun : Invocation Unit :=
  { mixedArityRun with conn := .scripted stampedForward [⟨"public.accounts", 0, 2, 0⟩] }

/-- The condition is met or not met by a run that really commits. -/
theorem handsOver_iff_stamped :
    letI := Sha256.standard
    ∃ t, CommitPoint stampedRun () t ∧
      (HandsOver stampedRun.relation t.deltas t.forward
          (revert (buildInverse stampedRun.kind stampedRun.relation t.predicted t.forward)
            acceptingConn ⟨(), []⟩).2.log ↔
        Agrees stampedRun.relation t.predicted t.deltas t.forward) := by
  let _ := Sha256.standard
  have hcommit : 0 < commits (stampedRun.run ⟨(), []⟩).2.log := by decide
  obtain ⟨t, ht⟩ := commitPoint_of_commits hcommit
  exact ⟨t, ht, handsOver_iff ht acceptingConn_accepting ()⟩

/-- The apply commits, and the revert refuses the inverse it returned. -/
theorem stampedRun_not_handed :
    letI := Sha256.standard
    ∃ a, (stampedRun.run ⟨(), []⟩).1 = .ok a ∧
      ¬ HandsOver "public.accounts" [⟨"public.accounts", 0, 2, 0⟩] stampedForward
        (revert a.inverse acceptingConn ⟨(), []⟩).2.log := by
  refine ⟨_, rfl, fun h => ?_⟩
  have htarget := h "public.accounts" (.inl rfl)
  revert htarget
  decide

end PgBrakes.Ports.InverseAgreement
