import PgBrakes.Ports.PgConn
import PgBrakes.Ports.RevertRouting

/-!
# What a revert does to the table

The revert over `PgRevertConn`, from an idle session, as a function of the table:
row by row, one statement each, in the order the inverse lists the relations.

## Main results

* `revertsTo_iff` — a revert succeeds exactly when its rows can be routed and no
  statement of it is refused.
* `revertsTo_target_iff` — the same where only the target exists.
-/

namespace PgBrakes.Ports.PgRevertRun

open PgBrakes.Verified.Effect
open PgBrakes.Verified.MachineWord
open PgBrakes.Ports.KeyChecksum
open PgBrakes.Ports.TypedInverse
open PgBrakes.Ports.BlastRecord
open PgBrakes.Ports.GuardedApply
open PgBrakes.Ports.Revert
open PgBrakes.Ports.RevertRouting
open PgBrakes.Ports.PgTable
open PgBrakes.Ports.PgConn

/-! ## Restoring as a function of the table -/

/-- The table after one row was restored, unless the statement is refused. -/
def restoreRow (server : Server) (kind : InverseKind) (relation : String) (row : RevertRow)
    (t : Table) : Option Table :=
  match kind with
  | .preimageUpsert =>
      match pkInt row, server.schema.knows relation ((restoredCells row).map Prod.fst) with
      | .ok k, .ok () =>
          if (restoredCells row).isEmpty then none
          else some (match t[k]? with
            | none => t
            | some r => t.insert k (overwrite (restoredCells row) r))
      | _, _ => none
  | .insert =>
      match server.schema.knows relation (row.beforeImage.map Prod.fst),
          row.beforeImage.lookup keyColumn with
      | .ok (), some (.int k) =>
          if t.contains k then none
          else some (t.insert k (overwrite row.beforeImage server.schema.default))
      | _, _ => none
  | .none => none

def restoreRows (server : Server) (kind : InverseKind) (relation : String) :
    List RevertRow → Table → Option Table
  | [], t => some t
  | row :: rows, t => (restoreRow server kind relation row t).bind
      (restoreRows server kind relation rows)

/-- The relations one after the other. -/
def restoreRelations (server : Server) (kind : InverseKind)
    (routed : Std.TreeMap String (List RevertRow)) : List String → Table → Option Table
  | [], t => some t
  | relation :: relations, t =>
      (restoreRows server kind relation (routed.getD relation []) t).bind
        (restoreRelations server kind routed relations)

/-! ## The adapter computes it -/

/-- The adapter inside its transaction. -/
def Within (a : RevertAdapter) (committed table : Table) : Prop :=
  ∃ counts, a.session = ⟨committed, some ⟨table, counts, false⟩⟩

/-- An outcome of the adapter: it answered Ok and this is its table, or it
failed. -/
def Leaves {α : Type} (out : Except RevertError α × RevertAdapter) (committed : Table) :
    Option Table → Prop
  | some t => ∃ v a', out = (.ok v, a') ∧ Within a' committed t
  | none => ∃ e a', out = (.error e, a')

/-- A statement of the adapter's transaction. -/
private theorem restoring_run {α : Type} {f : Xact → Except ServerError (α × Xact)}
    {a : RevertAdapter} {committed table : Table} {counts : OpCounts}
    (h : a.session = ⟨committed, some ⟨table, counts, false⟩⟩) :
    restoring (inXact f) a = match f ⟨table, counts, false⟩ with
      | .ok (v, x) => (.ok v, { a with session := ⟨committed, some x⟩ })
      | .error e => (.error (.backend e.toString),
          { a with session := ⟨committed, some ⟨table, counts, true⟩⟩ }) := by
  unfold restoring inXact
  rw [h]
  rcases hf : f ⟨table, counts, false⟩ with e | ⟨v, x⟩
  · simp [hf, Except.mapError]
  · simp [hf, Except.mapError]

theorem restoreUpdateRow_run (server : Server) (relation : String) (row : RevertRow)
    {a : RevertAdapter} {committed table : Table} (h : Within a committed table) :
    Leaves (restoreUpdateRow server relation row a) committed
      (restoreRow server .preimageUpsert relation row table) := by
  obtain ⟨counts, hsession⟩ := h
  rcases hk : pkInt row with e | k
  · have hnone : restoreRow server .preimageUpsert relation row table = none := by
      simp only [restoreRow, hk]
    rw [hnone]
    exact ⟨e, a, Eff.bind_of_error (by rw [Eff.lift_apply, hk])⟩
  have hrun : restoreUpdateRow server relation row a =
      (if (restoredCells row).isEmpty then Eff.fail _
        else restoring (server.updateById relation (restoredCells row) k)) a :=
    Eff.bind_of_ok (Eff.lift_of_ok hk a)
  rw [hrun, Server.updateById]
  by_cases hempty : (restoredCells row).isEmpty = true
  · have hnone : restoreRow server .preimageUpsert relation row table = none := by
      simp only [restoreRow, hk, hempty, if_true]
      split <;> rfl
    rw [hnone, if_pos hempty]
    exact ⟨_, a, rfl⟩
  rw [if_neg hempty, restoring_run hsession]
  rcases hknows : server.schema.knows relation ((restoredCells row).map Prod.fst) with e | ⟨⟩
  · have hnone : restoreRow server .preimageUpsert relation row table = none := by
      simp only [restoreRow, hk, hknows]
    rw [hnone]
    exact ⟨_, _, rfl⟩
  · have hsome : restoreRow server .preimageUpsert relation row table = some (match table[k]? with
        | none => table
        | some r => table.insert k (overwrite (restoredCells row) r)) := by
      simp only [restoreRow, hk, hknows, if_neg hempty]
    rw [hsome]
    rcases table[k]? with _ | r
    · exact ⟨_, _, rfl, counts, rfl⟩
    · exact ⟨_, _, rfl, _, rfl⟩

theorem restoreInsertRow_run (server : Server) (relation : String) (row : RevertRow)
    {a : RevertAdapter} {committed table : Table} (h : Within a committed table) :
    Leaves (restoreInsertRow server relation row a) committed
      (restoreRow server .insert relation row table) := by
  obtain ⟨counts, hsession⟩ := h
  unfold restoreInsertRow
  by_cases hempty : row.beforeImage.isEmpty = true
  · have hnil : row.beforeImage = [] := List.isEmpty_iff.mp hempty
    have hnone : restoreRow server .insert relation row table = none := by
      simp only [restoreRow, hnil, List.map_nil, List.lookup_nil]
      split <;> simp_all
    rw [hnone, if_pos hempty]
    exact ⟨_, a, rfl⟩
  rw [if_neg hempty, Server.insertRow, restoring_run hsession]
  rcases hknows : server.schema.knows relation (row.beforeImage.map Prod.fst) with e | ⟨⟩
  · have hnone : restoreRow server .insert relation row table = none := by
      simp only [restoreRow, hknows]
    rw [hnone]
    exact ⟨_, _, rfl⟩
  simp only [restoreRow, hknows]
  rcases hkey : row.beforeImage.lookup keyColumn with _ | v
  · exact ⟨_, _, rfl⟩
  cases v with
  | int k =>
      by_cases hused : table.contains k = true
      · simp only [hused, if_true]
        exact ⟨_, _, rfl⟩
      · simp only [hused]
        exact ⟨_, _, rfl, _, rfl⟩
  | text t => exact ⟨_, _, rfl⟩
  | bytes b => exact ⟨_, _, rfl⟩
  | null => exact ⟨_, _, rfl⟩

/-- A loop computes what its rows compute one after the other. -/
theorem forRows_run {server : Server} {kind : InverseKind} {relation : String}
    {body : RevertRow → Eff RevertAdapter RevertError Nat} {committed : Table}
    (hbody : ∀ row a table, Within a committed table →
      Leaves (body row a) committed (restoreRow server kind relation row table))
    (rows : List RevertRow) :
    ∀ {a : RevertAdapter} {table : Table}, Within a committed table →
      Leaves (forRows body rows a) committed (restoreRows server kind relation rows table) := by
  induction rows with
  | nil =>
      intro a table h
      exact ⟨0, a, rfl, h⟩
  | cons row rows ih =>
      intro a table h
      have hrow := hbody row a table h
      rw [restoreRows, forRows]
      rcases hone : restoreRow server kind relation row table with _ | t₁
      · rw [hone] at hrow
        obtain ⟨e, a', hfail⟩ := hrow
        exact ⟨e, a', Eff.bind_of_error hfail⟩
      · rw [hone] at hrow
        obtain ⟨n, a₁, hok, hwithin⟩ := hrow
        have hrest := ih hwithin
        rw [Eff.bind_of_ok hok, Option.bind_some]
        rcases hall : restoreRows server kind relation rows t₁ with _ | t₂
        · rw [hall] at hrest
          obtain ⟨e, a', hfail⟩ := hrest
          exact ⟨e, a', Eff.bind_of_error hfail⟩
        · rw [hall] at hrest
          obtain ⟨n', a₂, hok', hwithin'⟩ := hrest
          exact ⟨n + n', a₂, by rw [Eff.bind_of_ok hok']; rfl, hwithin'⟩

/-! ## The engine -/

/-- Restoring one relation through the engine's seam. -/
private theorem restore_run (server : Server) {kind : InverseKind} (hkind : kind ≠ .none)
    (relation : String) (rows : List RevertRow) {s : Logged RevertAdapter RevertCall}
    {committed table : Table} (h : Within s.world committed table) :
    match restoreRows server kind relation rows table with
    | some t => ∃ n s', restore kind relation rows (pgRevertConn server) s = (.ok n, s') ∧
        Within s'.world committed t
    | none => ∃ e s', restore kind relation rows (pgRevertConn server) s = (.error e, s') := by
  have hleaves : ∀ (act : Eff RevertAdapter RevertError Nat)
      (ev : Except RevertError Nat → RevertCall) (o : Option Table),
      Leaves (act s.world) committed o →
      match o with
      | some t => ∃ n s', perform act ev s = (.ok n, s') ∧ Within s'.world committed t
      | none => ∃ e s', perform act ev s = (.error e, s') := by
    intro act ev o ho
    cases o with
    | some t =>
        obtain ⟨n, a', hok, hwithin⟩ := ho
        exact ⟨n, _, perform_of hok, hwithin⟩
    | none =>
        obtain ⟨e, a', hfail⟩ := ho
        exact ⟨e, _, perform_of hfail⟩
  cases kind with
  | preimageUpsert =>
      exact hleaves _ _ _ (forRows_run
        (fun row a t ht => restoreUpdateRow_run server relation row ht) rows h)
  | insert =>
      exact hleaves _ _ _ (forRows_run
        (fun row a t ht => restoreInsertRow_run server relation row ht) rows h)
  | none => exact absurd rfl hkind

/-- The walk down the relations. -/
private theorem restoreAll_run (server : Server) {kind : InverseKind} (hkind : kind ≠ .none)
    (routed : Std.TreeMap String (List RevertRow)) (relations : List String) :
    ∀ (done : List (String × Nat)) (total : Nat) {s : Logged RevertAdapter RevertCall}
      {committed table : Table}, Within s.world committed table →
      match restoreRelations server kind routed relations table with
      | some t => ∃ out s', restoreAll kind routed (pgRevertConn server) done total relations s =
          (.ok out, s') ∧ Within s'.world committed t
      | none => ∃ e s', restoreAll kind routed (pgRevertConn server) done total relations s =
          (.error e, s') := by
  induction relations with
  | nil =>
      intro done total s committed table h
      exact ⟨_, s, rfl, h⟩
  | cons relation relations ih =>
      intro done total s committed table h
      have hone := restore_run server hkind relation (routed.getD relation []) h
      rw [restoreRelations]
      rcases hrows : restoreRows server kind relation (routed.getD relation []) table with _ | t₁
      · rw [hrows] at hone
        obtain ⟨e, s', hfail⟩ := hone
        exact ⟨e, s', by rw [restoreAll, Eff.bind_of_error hfail]⟩
      · rw [hrows] at hone
        obtain ⟨n, s₁, hok, hwithin⟩ := hone
        have hrest := ih (done ++ [(relation, n)]) (satAdd total n) hwithin
        rw [Option.bind_some, restoreAll, Eff.bind_of_ok hok]
        exact hrest

/-- A revert of an inverse succeeds and leaves a table. -/
def RevertsTo (server : Server) (inverse : InversePlan) (table table' : Table) : Prop :=
  ∃ report s', revert inverse (pgRevertConn server) ⟨.new ⟨table, none⟩, []⟩ =
    (.ok report, s') ∧ s'.world.session = ⟨table', none⟩

/-- A revert succeeds exactly when its rows can be routed and no statement of it
is refused. -/
theorem revertsTo_iff {server : Server} {inverse : InversePlan} (hkind : inverse.kind ≠ .none)
    (table table' : Table) :
    RevertsTo server inverse table table' ↔
      ∃ routed, routeRows inverse = .ok routed ∧
        restoreRelations server inverse.kind routed inverse.fkOrder table = some table' := by
  unfold RevertsTo revert
  rw [if_neg hkind]
  rcases hroute : routeRows inverse with e | routed
  · rw [Eff.bind_of_error (by rw [Eff.lift_apply])]
    simp
  rw [Eff.bind_of_ok (Eff.lift_of_ok rfl _)]
  have hbegin : (pgRevertConn server).begin (.new ⟨table, none⟩) =
      (.ok (), ⟨⟨table, some ⟨table, {}, false⟩⟩, true⟩) := rfl
  rw [Eff.bind_of_ok (perform_of hbegin)]
  have hwithin : Within ⟨⟨table, some ⟨table, {}, false⟩⟩, true⟩ table table := ⟨_, rfl⟩
  have hall := restoreAll_run server hkind routed inverse.fkOrder [] 0
    (s := ⟨⟨⟨table, some ⟨table, {}, false⟩⟩, true⟩, [] ++ [.begin (.ok ())]⟩) hwithin
  rcases htable : restoreRelations server inverse.kind routed inverse.fkOrder table with _ | t
  · rw [htable] at hall
    obtain ⟨e, s', hfail⟩ := hall
    have hbody : revertBody inverse routed (pgRevertConn server) _ = (.error e, s') :=
      Eff.bind_of_error hfail
    rw [Eff.bind_of_ok (Eff.attempt_of hbody)]
    simp [Eff.bind_apply, htable]
  · rw [htable] at hall
    obtain ⟨out, s', hok, counts, hsession⟩ := hall
    have hbody : revertBody inverse routed (pgRevertConn server) _ = (.ok _, s') :=
      (Eff.bind_of_ok hok).trans rfl
    have hcommit : (pgRevertConn server).commit s'.world = (.ok (), ⟨⟨t, none⟩, false⟩) := by
      simp [pgRevertConn, commitRevert, commitXact, hsession]
    rw [Eff.bind_of_ok (Eff.attempt_of hbody)]
    simp only [Eff.bind_of_ok (perform_of hcommit)]
    simp [htable, eq_comm]

/-! ## The target alone -/

/-- A row of a relation that does not exist is refused. -/
private theorem restoreRows_unknown {server : Server} {kind : InverseKind} {relation : String}
    (hunknown : relation ≠ server.schema.relation) {row : RevertRow} {rows : List RevertRow}
    {t : Table} : restoreRows server kind relation (row :: rows) t = none := by
  have hknows : ∀ columns, ∃ e, server.schema.knows relation columns = .error e := by
    intro columns
    rcases hout : server.schema.knows relation columns with e | ⟨⟩
    · exact ⟨e, rfl⟩
    · exact absurd (Schema.knows_ok_iff.mp hout).1 hunknown
  have hrow : restoreRow server kind relation row t = none := by
    cases kind with
    | preimageUpsert =>
        obtain ⟨e, he⟩ := hknows ((restoredCells row).map Prod.fst)
        simp only [restoreRow, he]
        cases pkInt row with
        | ok k => rfl
        | error e' => rfl
    | insert =>
        obtain ⟨e, he⟩ := hknows (row.beforeImage.map Prod.fst)
        simp only [restoreRow, he]
    | none => rfl
  rw [restoreRows, hrow]
  rfl

/-- The walk over relations that do not exist goes through when they have no
rows. -/
private theorem restoreRelations_unknown {server : Server} {kind : InverseKind}
    {routed : Std.TreeMap String (List RevertRow)} {relations : List String} {t t' : Table}
    (hunknown : ∀ relation ∈ relations, relation ≠ server.schema.relation) :
    restoreRelations server kind routed relations t = some t' ↔
      (∀ relation ∈ relations, routed.getD relation [] = []) ∧ t = t' := by
  induction relations with
  | nil => simp [restoreRelations]
  | cons relation relations ih =>
      have hrest := ih fun r hr => hunknown r (by simp [hr])
      rcases hrows : routed.getD relation [] with _ | ⟨row, rows⟩
      · rw [restoreRelations, hrows, restoreRows, Option.bind_some, hrest]
        simp [hrows]
      · rw [restoreRelations, hrows, restoreRows_unknown (hunknown relation (by simp))]
        simp [hrows]

/-- The pre-image is one of the target: no other relation is written into it. -/
structure OfTarget (relation : String) (image : Image) : Prop where
  readable : Readable image
  owner : owner relation image = relation
  columns : strip image ≠ []

/-- Which pre-images the revert takes for the target's. -/
theorem ofTarget_iff {columns : List String} {k : Int} {r : Row} {image : Image}
    (h : Pictures columns k r image) (hnodup : columns.Nodup) (hkey : keyColumn ∈ columns)
    {relation : String} :
    OfTarget relation image ↔
      (relationStamp ∈ columns → r relationStamp = .image (.text relation)) := by
  have hkeyed : strip image ≠ [] := by
    rw [← h.columns] at hkey
    obtain ⟨cell, hcell, hname⟩ := List.mem_map.mp hkey
    apply List.ne_nil_of_mem (a := cell)
    refine List.mem_filter.mpr ⟨hcell, ?_⟩
    rw [hname]
    rfl
  have hcell : cellAt k r relationStamp = r relationStamp := rfl
  constructor
  · intro htarget hstamp
    obtain ⟨v, hlookup, hv⟩ := h.lookup_of_mem hstamp
    have hmem : (relationStamp, v) ∈ image := by
      obtain ⟨l₁, l₂, heq, -⟩ := List.lookup_eq_some_iff.mp hlookup
      rw [heq]
      simp
    rw [← hcell, hv]
    have hread := htarget.readable _ hmem rfl
    cases v with
    | text rel =>
        have howner : (stampOf image).getD relation = relation := htarget.owner
        rw [stampOf_of_mem (h.columns ▸ hnodup) hmem, Option.getD_some] at howner
        rw [howner]
    | int n => exact absurd rfl hread
    | bytes b => exact absurd rfl hread
    | null => exact absurd rfl hread
  · intro hstamp
    by_cases hmem : relationStamp ∈ columns
    · have hvalue := hstamp hmem
      obtain ⟨v, hlookup, hv⟩ := h.lookup_of_mem hmem
      rw [hcell, hvalue] at hv
      cases hv
      have htext : (relationStamp, .text relation) ∈ image := by
        obtain ⟨l₁, l₂, heq, -⟩ := List.lookup_eq_some_iff.mp hlookup
        rw [heq]
        simp
      refine ⟨?_, ?_, hkeyed⟩
      · intro cell hcell' hname
        have hcellv := h.values cell hcell'
        rw [hname, hcell, hvalue] at hcellv
        obtain ⟨name, value⟩ := cell
        cases hcellv
        subst hname
        simp [stampText]
      · rw [owner, stampOf_of_mem (h.columns ▸ hnodup) htext]
        rfl
    · have hunstamped : ∀ cell ∈ image, cell.1 ≠ relationStamp := by
        intro cell hcell' hname
        exact hmem (h.columns ▸ List.mem_map.mpr ⟨cell, hcell', hname⟩)
      refine ⟨readable_unstamped hunstamped, ?_, hkeyed⟩
      rw [owner, stampOf_unstamped hunstamped]
      rfl

/-- Where the target is the only relation that exists, a revert succeeds exactly
when every row is one of the target and no statement is refused. -/
theorem revertsTo_target_iff (server : Server) (inverse : InversePlan)
    (hkind : inverse.kind ≠ .none) (hrelation : inverse.relation = server.schema.relation)
    {cascades : List String} (horder : inverse.fkOrder = server.schema.relation :: cascades)
    (hfree : server.schema.relation ∉ cascades) (table table' : Table) :
    RevertsTo server inverse table table' ↔
      (∀ row ∈ inverse.rows, OfTarget server.schema.relation row.beforeImage) ∧
        restoreRows server inverse.kind server.schema.relation
          (inverse.rows.map toRevertRow) table = some table' := by
  have hunknown : ∀ relation ∈ cascades, relation ≠ server.schema.relation := by
    rintro relation hmem rfl
    exact hfree hmem
  have hwhole : (∀ row ∈ inverse.rows, OfTarget server.schema.relation row.beforeImage) →
      rowsFor server.schema.relation server.schema.relation inverse.rows =
        inverse.rows.map toRevertRow := by
    intro hall
    unfold rowsFor
    rw [List.filter_eq_self.mpr]
    intro row hrow
    exact decide_eq_true (hall row hrow).owner
  rw [revertsTo_iff hkind, horder]
  constructor
  · rintro ⟨routed, hroute, htable⟩
    have hroutable := (routeRows_ok_iff inverse).mp ⟨routed, hroute⟩
    have hget := fun rel => routeRows_getD hroute rel
    rw [restoreRelations] at htable
    obtain ⟨t₁, hfirst, hrest⟩ := Option.bind_eq_some_iff.mp htable
    obtain ⟨hempty, rfl⟩ := (restoreRelations_unknown hunknown).mp hrest
    have hall : ∀ row ∈ inverse.rows, OfTarget server.schema.relation row.beforeImage := by
      intro row hrow
      have hrow' := hroutable row hrow
      refine ⟨hrow'.readable, ?_, hrow'.columns⟩
      by_contra hother
      have hmem := hrow'.ordered
      rw [horder, hrelation] at hmem
      rcases List.mem_cons.mp hmem with heq | hcascade
      · exact hother heq
      · have hnone := hempty _ hcascade
        rw [hget, hrelation, rowsFor, List.map_eq_nil_iff, List.filter_eq_nil_iff] at hnone
        exact hnone row hrow (decide_eq_true rfl)
    refine ⟨hall, ?_⟩
    rw [hget, hrelation, hwhole hall] at hfirst
    exact hfirst
  · rintro ⟨hall, htable⟩
    have hroutable : ∀ row ∈ inverse.rows, Routable inverse row := by
      intro row hrow
      refine ⟨(hall row hrow).readable, ?_, (hall row hrow).columns⟩
      rw [hrelation, (hall row hrow).owner, horder]
      exact List.mem_cons_self
    obtain ⟨routed, hroute⟩ := (routeRows_ok_iff inverse).mpr hroutable
    have hget := fun rel => routeRows_getD hroute rel
    refine ⟨routed, hroute, ?_⟩
    rw [restoreRelations, hget, hrelation, hwhole hall, htable, Option.bind_some]
    refine (restoreRelations_unknown hunknown).mpr ⟨?_, rfl⟩
    intro relation hcascade
    rw [hget, hrelation, rowsFor, List.map_eq_nil_iff, List.filter_eq_nil_iff]
    intro row hrow hmine
    have hmine : owner server.schema.relation row.beforeImage = relation :=
      of_decide_eq_true hmine
    exact hunknown relation hcascade (hmine.symm.trans (hall row hrow).owner)

end PgBrakes.Ports.PgRevertRun
