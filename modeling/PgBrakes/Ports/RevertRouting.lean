import PgBrakes.Ports.Revert

/-!
# What the revert hands to its connection

The reader's side of the inverse.  The relation of a row is the last text under
the routing column, or the target; the row to restore is the pre-image without
that column.  This module puts the routing loop in that closed form and says
which restore calls a revert makes.

## Main results

* `routeRows_ok_iff`, `routeRows_getD` — when the routing succeeds, and the rows
  it gives to each relation.
* `restores_order` — over any connection, the restore calls walk down
  `fk_order`.
* `revert_restores` — over a connection that accepts every call, they walk
  to its end.
-/

namespace PgBrakes.Ports.RevertRouting

open PgBrakes.Verified.Effect
open PgBrakes.Verified.MachineWord
open PgBrakes.Ports.KeyChecksum
open PgBrakes.Ports.TypedInverse
open PgBrakes.Ports.BlastRecord
open PgBrakes.Ports.GuardedApply
open PgBrakes.Ports.Revert

/-! ## Reading the stamp -/

/-- The value under the routing column, when it is text. -/
def stampText : String × ImageValue → Option String
  | (col, .text rel) => if col = relationStamp then some rel else none
  | _ => none

/-- The last text under the routing column. -/
def stampOf : Image → Option String
  | [] => none
  | cell :: rest => (stampOf rest).or (stampText cell)

/-- The relation the revert gives a row to. -/
def owner (target : String) (image : Image) : String := (stampOf image).getD target

/-- The columns the revert restores. -/
def strip (image : Image) : Image := image.filter fun cell => cell.1 ≠ relationStamp

/-- No column under the routing name holds anything but text. -/
def Readable (image : Image) : Prop :=
  ∀ cell ∈ image, cell.1 = relationStamp → stampText cell ≠ none

instance (image : Image) : Decidable (Readable image) := by
  unfold Readable
  infer_instance

theorem unstamp_of_readable (target : String) :
    ∀ (image : Image) (relation : Option String) (kept : Image), Readable image →
      unstamp target relation kept image =
        .ok ((stampOf image).or relation, kept ++ strip image) := by
  intro image
  induction image with
  | nil => intro relation kept _; simp [unstamp, stampOf, strip]
  | cons cell rest ih =>
      intro relation kept h
      obtain ⟨col, val⟩ := cell
      have hrest : Readable rest := fun c hc => h c (by simp [hc])
      by_cases hcol : col = relationStamp
      · have hval := h (col, val) (by simp) hcol
        cases val with
        | text rel =>
            simp only [unstamp, if_pos hcol, ih (some rel) kept hrest]
            cases hst : stampOf rest with
            | none => simp [stampOf, stampText, strip, hcol, hst]
            | some r => simp [stampOf, stampText, strip, hcol, hst]
        | int v => exact absurd rfl hval
        | bytes b => exact absurd rfl hval
        | null => exact absurd rfl hval
      · have htext : stampText (col, val) = none := by
          cases val <;> simp [stampText, hcol]
        simp only [unstamp, if_neg hcol, ih relation _ hrest]
        simp [stampOf, htext, strip, hcol]

theorem unstamp_of_not_readable (target : String) :
    ∀ (image : Image) (relation : Option String) (kept : Image), ¬ Readable image →
      ∃ e, unstamp target relation kept image = .error e := by
  intro image
  induction image with
  | nil => intro _ _ h; exact absurd (fun _ hc => absurd hc (by simp)) h
  | cons cell rest ih =>
      intro relation kept h
      obtain ⟨col, val⟩ := cell
      by_cases hcol : col = relationStamp
      · cases val with
        | text rel =>
            simp only [unstamp, if_pos hcol]
            apply ih
            intro hrest
            apply h
            intro c hc hstamp
            rcases List.mem_cons.mp hc with rfl | hc
            · simp [stampText, hcol]
            · exact hrest c hc hstamp
        | int v => simp [unstamp, hcol]
        | bytes b => simp [unstamp, hcol]
        | null => simp [unstamp, hcol]
      · simp only [unstamp, if_neg hcol]
        apply ih
        intro hrest
        apply h
        intro c hc hstamp
        rcases List.mem_cons.mp hc with rfl | hc
        · exact absurd hstamp hcol
        · exact hrest c hc hstamp

theorem stampOf_unstamped {image : Image} (h : ∀ cell ∈ image, cell.1 ≠ relationStamp) :
    stampOf image = none := by
  induction image with
  | nil => rfl
  | cons cell rest ih =>
      have hcell : stampText cell = none := by
        obtain ⟨col, val⟩ := cell
        have hne : col ≠ relationStamp := h (col, val) (by simp)
        cases val <;> simp [stampText, hne]
      simp [stampOf, hcell, ih fun c hc => h c (by simp [hc])]

theorem strip_unstamped {image : Image} (h : ∀ cell ∈ image, cell.1 ≠ relationStamp) :
    strip image = image := by
  rw [strip, List.filter_eq_self]
  intro cell hcell
  simpa using h cell hcell

theorem stampOf_stamped (image : Image) (rel : String) :
    stampOf (image ++ [(relationStamp, .text rel)]) = some rel := by
  induction image with
  | nil => simp [stampOf, stampText]
  | cons cell rest ih => simp [stampOf, ih]

theorem strip_stamped (image : Image) (rel : String) :
    strip (image ++ [(relationStamp, .text rel)]) = strip image := by
  simp [strip]

theorem readable_stamped (image : Image) (rel : String) :
    Readable (image ++ [(relationStamp, .text rel)]) ↔ Readable image := by
  constructor
  · intro h cell hcell
    exact h cell (by simp [hcell])
  · intro h cell hcell hstamp
    rcases List.mem_append.mp hcell with hcell | hcell
    · exact h cell hcell hstamp
    · rw [List.mem_singleton.mp hcell]
      simp [stampText]

theorem readable_unstamped {image : Image} (h : ∀ cell ∈ image, cell.1 ≠ relationStamp) :
    Readable image :=
  fun cell hcell hstamp => absurd hstamp (h cell hcell)

/-- The one text under the routing column, where the columns are distinct. -/
theorem stampOf_of_mem {image : Image} (hnodup : (image.map Prod.fst).Nodup) {rel : String}
    (h : (relationStamp, .text rel) ∈ image) : stampOf image = some rel := by
  induction image with
  | nil => simp at h
  | cons cell rest ih =>
      rw [List.map_cons, List.nodup_cons] at hnodup
      rcases List.mem_cons.mp h with rfl | hmem
      · have hrest : stampOf rest = none := by
          apply stampOf_unstamped
          intro c hc hstamp
          exact hnodup.1 (List.mem_map.mpr ⟨c, hc, hstamp⟩)
        simp [stampOf, hrest, stampText]
      · simp [stampOf, ih hnodup.2 hmem]

/-! ## Routing the rows -/

/-- The row the revert restores for a captured row. -/
def toRevertRow (row : InverseRow) : RevertRow :=
  { pk := row.pk, beforeImage := strip row.beforeImage }

/-- The revert can give the row to a relation of the inverse. -/
structure Routable (inverse : InversePlan) (row : InverseRow) : Prop where
  readable : Readable row.beforeImage
  ordered : owner inverse.relation row.beforeImage ∈ inverse.fkOrder
  columns : strip row.beforeImage ≠ []

theorem routeRow_of_routable {inverse : InversePlan} {row : InverseRow}
    (h : Routable inverse row) :
    routeRow inverse row =
      .ok (owner inverse.relation row.beforeImage, toRevertRow row) := by
  have hord : (stampOf row.beforeImage).getD inverse.relation ∈ inverse.fkOrder := h.ordered
  have hcols : (strip row.beforeImage).isEmpty = false := by
    simpa using h.columns
  unfold routeRow
  rw [unstamp_of_readable _ _ _ _ h.readable]
  simp [hord, hcols, owner, toRevertRow]

theorem routeRow_of_not_routable {inverse : InversePlan} {row : InverseRow}
    (h : ¬ Routable inverse row) : ∃ e, routeRow inverse row = .error e := by
  unfold routeRow
  by_cases hread : Readable row.beforeImage
  · rw [unstamp_of_readable _ _ _ _ hread]
    simp only [List.nil_append, Option.or_none]
    by_cases hord : (stampOf row.beforeImage).getD inverse.relation ∈ inverse.fkOrder
    · have hcols : strip row.beforeImage = [] := by
        by_contra hne
        exact h ⟨hread, hord, hne⟩
      simp [hord, hcols]
    · simp [hord]
  · obtain ⟨e, he⟩ := unstamp_of_not_readable inverse.relation _ none [] hread
    rw [he]
    exact ⟨e, rfl⟩

/-- The rows of a list that belong to a relation, as the revert restores
them. -/
def rowsFor (target rel : String) (rows : List InverseRow) : List RevertRow :=
  (rows.filter fun row => owner target row.beforeImage = rel).map toRevertRow

private theorem routeInto_of_routable (inverse : InversePlan) :
    ∀ (rows : List InverseRow) (routed : Std.TreeMap String (List RevertRow)),
      (∀ row ∈ rows, Routable inverse row) →
      ∃ routed', routeInto inverse routed rows = .ok routed' ∧
        ∀ rel, routed'.getD rel [] =
          routed.getD rel [] ++ rowsFor inverse.relation rel rows := by
  intro rows
  induction rows with
  | nil => intro routed _; exact ⟨routed, rfl, by simp [rowsFor]⟩
  | cons row rows ih =>
      intro routed h
      have hrow := routeRow_of_routable (h row (by simp))
      simp only [routeInto, hrow]
      obtain ⟨routed', hrun, hget⟩ := ih
        (routed.insert (owner inverse.relation row.beforeImage)
          (routed.getD (owner inverse.relation row.beforeImage) [] ++ [toRevertRow row]))
        fun r hr => h r (by simp [hr])
      refine ⟨routed', hrun, fun rel => ?_⟩
      rw [hget rel, Std.TreeMap.getD_insert]
      by_cases hrel : owner inverse.relation row.beforeImage = rel
      · simp [hrel, rowsFor]
      · simp [hrel, rowsFor]

private theorem routeInto_of_not_routable (inverse : InversePlan) :
    ∀ (rows : List InverseRow) (routed : Std.TreeMap String (List RevertRow)),
      (¬ ∀ row ∈ rows, Routable inverse row) →
      ∃ e, routeInto inverse routed rows = .error e := by
  intro rows
  induction rows with
  | nil => intro _ h; simp at h
  | cons row rows ih =>
      intro routed h
      by_cases hrow : Routable inverse row
      · simp only [routeInto, routeRow_of_routable hrow]
        apply ih
        intro hrows
        apply h
        intro r hr
        rcases List.mem_cons.mp hr with rfl | hr
        · exact hrow
        · exact hrows r hr
      · obtain ⟨e, he⟩ := routeRow_of_not_routable hrow
        exact ⟨e, by simp only [routeInto, he]⟩

/-- Routing succeeds exactly when every captured row can be routed. -/
theorem routeRows_ok_iff (inverse : InversePlan) :
    (∃ routed, routeRows inverse = .ok routed) ↔
      ∀ row ∈ inverse.rows, Routable inverse row := by
  constructor
  · rintro ⟨routed, hok⟩
    by_contra h
    obtain ⟨e, he⟩ := routeInto_of_not_routable inverse inverse.rows ∅ h
    rw [routeRows, he] at hok
    cases hok
  · intro h
    obtain ⟨routed, hrun, -⟩ := routeInto_of_routable inverse inverse.rows ∅ h
    exact ⟨routed, hrun⟩

/-- Routing gives each relation its own rows, in the inverse's order. -/
theorem routeRows_getD {inverse : InversePlan}
    {routed : Std.TreeMap String (List RevertRow)} (h : routeRows inverse = .ok routed)
    (rel : String) :
    routed.getD rel [] = rowsFor inverse.relation rel inverse.rows := by
  have hall := (routeRows_ok_iff inverse).mp ⟨routed, h⟩
  obtain ⟨routed', hrun, hget⟩ := routeInto_of_routable inverse inverse.rows ∅ hall
  rw [routeRows, hrun] at h
  cases h
  rw [hget rel]
  simp

/-! ## The restore calls -/

variable {ω : Type}

/-- The relation and the rows of a restore call. -/
def restored : RevertCall → Option (String × List RevertRow)
  | .restoreUpdate relation rows _ => some (relation, rows)
  | .restoreInsert relation rows _ => some (relation, rows)
  | _ => none

/-- The restore calls of a log, in order. -/
def restores (log : List RevertCall) : List (String × List RevertRow) :=
  log.filterMap restored

/-- A connection that accepts the transaction and every restore. -/
structure Accepting (conn : RevertConn ω) : Prop where
  begin : ∀ w, ∃ w', conn.begin w = (.ok (), w')
  restoreUpdate : ∀ relation rows w, ∃ n w', conn.restoreUpdate relation rows w = (.ok n, w')
  restoreInsert : ∀ relation rows w, ∃ n w', conn.restoreInsert relation rows w = (.ok n, w')

/-- The restore calls of a whole walk down a list of relations. -/
def walk (routed : Std.TreeMap String (List RevertRow)) (relations : List String) :
    List (String × List RevertRow) :=
  relations.map fun rel => (rel, routed.getD rel [])

/-- Restoring one relation makes one restore call. -/
private theorem restore_restores {kind : InverseKind} (hkind : kind ≠ .none)
    (relation : String) (rows : List RevertRow) (conn : RevertConn ω)
    (s : Logged ω RevertCall) :
    restores (restore kind relation rows conn s).2.log =
      restores s.log ++ [(relation, rows)] := by
  cases kind with
  | preimageUpsert => simp [restore, perform, restores, restored]
  | insert => simp [restore, perform, restores, restored]
  | none => exact absurd rfl hkind

/-- The loop over the relations walks down the list until a restore fails. -/
private theorem restoreAll_restores {kind : InverseKind} (hkind : kind ≠ .none)
    (routed : Std.TreeMap String (List RevertRow)) (conn : RevertConn ω) :
    ∀ (relations : List String) (done : List (String × Nat)) (total : Nat)
      (s : Logged ω RevertCall),
      ∃ relations', relations' <+: relations ∧
        restores (restoreAll kind routed conn done total relations s).2.log =
          restores s.log ++ walk routed relations' ∧
        (Accepting conn → relations' = relations ∧
          ∃ a s', restoreAll kind routed conn done total relations s = (.ok a, s')) := by
  intro relations
  induction relations with
  | nil =>
      intro done total s
      exact ⟨[], List.prefix_refl _, by simp [restoreAll, walk], fun _ => ⟨rfl, _, _, rfl⟩⟩
  | cons relation relations ih =>
      intro done total s
      have hone := restore_restores hkind relation (routed.getD relation []) conn s
      rcases hr : restore kind relation (routed.getD relation []) conn s with ⟨e | n, s₁⟩
      · -- The restore failed: the walk ends here.
        refine ⟨[relation], by simp, ?_, ?_⟩
        · rw [restoreAll, Eff.bind_of_error hr]
          rw [hr] at hone
          simpa [walk] using hone
        · intro hacc
          exfalso
          cases kind with
          | preimageUpsert =>
              obtain ⟨n, w', hok⟩ := hacc.restoreUpdate relation (routed.getD relation []) s.world
              rw [restore, perform_of hok] at hr
              cases hr
          | insert =>
              obtain ⟨n, w', hok⟩ := hacc.restoreInsert relation (routed.getD relation []) s.world
              rw [restore, perform_of hok] at hr
              cases hr
          | none => exact hkind rfl
      · obtain ⟨relations', hpre, hlog, hacc⟩ := ih (done ++ [(relation, n)]) (satAdd total n) s₁
        refine ⟨relation :: relations', List.cons_prefix_cons.mpr ⟨rfl, hpre⟩, ?_, ?_⟩
        · rw [restoreAll, Eff.bind_of_ok hr, hlog]
          rw [hr] at hone
          rw [hone]
          simp [walk]
        · intro h
          obtain ⟨heq, a, s', hrun⟩ := hacc h
          refine ⟨by rw [heq], a, s', ?_⟩
          rw [restoreAll, Eff.bind_of_ok hr, hrun]

private theorem revertBody_restores {inverse : InversePlan} (hkind : inverse.kind ≠ .none)
    (routed : Std.TreeMap String (List RevertRow)) (conn : RevertConn ω)
    (s : Logged ω RevertCall) :
    ∃ relations', relations' <+: inverse.fkOrder ∧
      restores (revertBody inverse routed conn s).2.log =
        restores s.log ++ walk routed relations' ∧
      (Accepting conn → relations' = inverse.fkOrder) := by
  obtain ⟨relations', hpre, hlog, hacc⟩ :=
    restoreAll_restores hkind routed conn inverse.fkOrder [] 0 s
  refine ⟨relations', hpre, ?_, fun h => (hacc h).1⟩
  rw [← hlog, revertBody, Eff.bind_apply]
  rcases restoreAll inverse.kind routed conn [] 0 inverse.fkOrder s with ⟨e | a, s'⟩
  · rfl
  · rfl

/-- Closing the transaction restores nothing. -/
private theorem restores_close (inverse : InversePlan)
    (routed : Std.TreeMap String (List RevertRow)) (conn : RevertConn ω)
    (s : Logged ω RevertCall) :
    restores (((Eff.attempt (revertBody inverse routed conn) :
        Reverting ω (Except RevertError RevertReport)) >>= fun outcome =>
      match outcome with
      | .ok report => do
          perform conn.commit .commit
          pure report
      | .error e => do
          let _ ← (Eff.attempt (perform conn.rollback .rollback) :
            Reverting ω (Except RevertError Unit))
          Eff.fail e) s).2.log =
      restores (revertBody inverse routed conn s).2.log := by
  rw [Eff.bind_apply, Eff.attempt_apply]
  rcases revertBody inverse routed conn s with ⟨e | report, s'⟩
  · simp [Eff.bind_apply, perform, restores, restored]
  · simp only [Eff.bind_apply, perform]
    rcases conn.commit s'.world with ⟨e | _, w'⟩
    · simp [restores, restored]
    · simp [restores, restored]

/-- The restore calls of a revert whose rows can be routed. -/
theorem revert_restores {inverse : InversePlan} (hkind : inverse.kind ≠ .none)
    {routed : Std.TreeMap String (List RevertRow)} (hroute : routeRows inverse = .ok routed)
    (conn : RevertConn ω) (w : ω) :
    ∃ relations', relations' <+: inverse.fkOrder ∧
      restores (revert inverse conn ⟨w, []⟩).2.log = walk routed relations' ∧
      (Accepting conn → relations' = inverse.fkOrder) := by
  rw [revert, if_neg hkind, Eff.bind_of_ok (Eff.lift_of_ok hroute _)]
  rcases hbegin : conn.begin w with ⟨e | _, w'⟩
  · refine ⟨[], List.nil_prefix, ?_, ?_⟩
    · rw [Eff.bind_of_error (perform_of hbegin)]
      simp [restores, restored, walk]
    · intro hacc
      obtain ⟨w₁, hok⟩ := hacc.begin w
      rw [hok] at hbegin
      cases hbegin
  · obtain ⟨relations', hpre, hlog, hacc⟩ :=
      revertBody_restores hkind routed conn ⟨w', [.begin (.ok ())]⟩
    refine ⟨relations', hpre, ?_, hacc⟩
    rw [Eff.bind_of_ok (perform_of hbegin)]
    refine (restores_close inverse routed conn _).trans (hlog.trans ?_)
    simp [restores, restored]

/-- A revert whose rows cannot be routed restores nothing. -/
theorem revert_restores_nil {inverse : InversePlan}
    (hroute : ¬ ∃ routed, routeRows inverse = .ok routed) (conn : RevertConn ω) (w : ω) :
    restores (revert inverse conn ⟨w, []⟩).2.log = [] := by
  rw [revert]
  split
  · rfl
  rcases hr : routeRows inverse with e | routed
  · rfl
  · exact absurd ⟨routed, hr⟩ hroute

/-- Over any connection, a revert restores the relations in the inverse's
order, each at most once. -/
theorem restores_order (inverse : InversePlan) (conn : RevertConn ω) (w : ω) :
    (restores (revert inverse conn ⟨w, []⟩).2.log).map Prod.fst <+: inverse.fkOrder := by
  by_cases hkind : inverse.kind = .none
  · rw [revert, if_pos hkind]
    exact List.nil_prefix
  by_cases hroute : ∃ routed, routeRows inverse = .ok routed
  · obtain ⟨routed, hrouted⟩ := hroute
    obtain ⟨relations', hpre, hlog, -⟩ := revert_restores hkind hrouted conn w
    rw [hlog]
    simpa [walk, Function.comp_def] using hpre
  · rw [revert_restores_nil hroute]
    exact List.nil_prefix

end PgBrakes.Ports.RevertRouting
