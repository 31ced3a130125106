import PgBrakes.Ports.PgApplyRun
import PgBrakes.Ports.PgRevertRun
import PgBrakes.Ports.GuardedApplyAtomicity

/-!
# Apply, then revert

A guarded apply over `PgApplyConn` that committed, followed by the revert of its
inverse over `PgRevertConn`, with no write in between.  The pre-images are keyed
by the old keys and restored under the keys the write returned, and only the
assigned columns are captured, so the revert undoes a write that moves rows only
as far as the columns it did not assign agree.

## Main results

* `roundTrip_iff` — the revert succeeds and leaves the initial table exactly when
  the write can be undone in this way.
* `exchangeRun_not_restored` — an update that exchanges two keys.
-/

namespace PgBrakes.Ports.RoundTrip

open PgBrakes.Verified.Effect
open PgBrakes.Verified.KeyedTable
open PgBrakes.Ports.KeyChecksum
open PgBrakes.Ports.TypedInverse
open PgBrakes.Ports.BlastRecord
open PgBrakes.Ports.GuardedApply
open PgBrakes.Ports.GuardedApplyRun
open PgBrakes.Ports.InverseShape
open PgBrakes.Ports.SqlAst
open PgBrakes.Ports.PgRehearsal
open PgBrakes.Ports.Revert
open PgBrakes.Ports.RevertRouting
open PgBrakes.Ports.PgTable
open PgBrakes.Ports.PgConn
open PgBrakes.Ports.PgApplyRun
open PgBrakes.Ports.PgRevertRun

/-! ## When a write can be undone -/

/-- The kind of a write. -/
def kindOf : Write → WriteKind
  | .update _ => .update
  | .delete => .delete

/-- The columns a revert of an `UPDATE` sets. -/
def Restored (imageCols : List String) (c : String) : Prop :=
  c ∈ imageCols ∧ c ≠ keyColumn ∧ c ≠ relationStamp

/-- The rows of the table that a write selects, as the write leaves them. -/
def landedRows (m : Meaning) (assignments : List Assigned) (t : Table) : List (Int × Row) :=
  (selected t m.selects).map (moved assignments)

/-- An `UPDATE` can be undone: a captured routing column names the relation
itself, there is a column to set, and each selected row lands on a key of the
table and has there, in every column, the value that was there before, except in
the columns that are set again under the returned keys. -/
structure UndoneUpdate (server : Server) (m : Meaning) (assignments : List Assigned)
    (imageCols : List String) (t : Table) : Prop where
  stamp : ∀ k r, some k ∈ m.returned (landedRows m assignments t) → t[k]? = some r →
    relationStamp ∈ imageCols → r relationStamp = .image (.text server.schema.relation)
  columns : m.returned (landedRows m assignments t) ≠ [] → ∃ c, Restored imageCols c
  kept : ∀ k r, t[k]? = some r → m.selects k r = true →
    ∃ r', t[(moved assignments (k, r)).1]? = some r' ∧
      ∀ c ∈ server.schema.columns, c ≠ keyColumn →
        ¬ (some (moved assignments (k, r)).1 ∈ m.returned (landedRows m assignments t) ∧
          Restored imageCols c) →
        newRow assignments k r c = r' c

/-- A `DELETE` can be undone: it returned keys of rows it took, each once, and a
column under the routing name holds the relation's name, which is also its
default. -/
structure UndoneDelete (server : Server) (m : Meaning) (t : Table) : Prop where
  once : (m.returned (selected t m.selects)).Nodup
  taken : ∀ k, some k ∈ m.returned (selected t m.selects) →
    ∃ r, t[k]? = some r ∧ m.selects k r = true
  stamp : ∀ k r, t[k]? = some r → m.selects k r = true →
    relationStamp ∈ server.schema.columns →
      r relationStamp = .image (.text server.schema.relation) ∧
        server.schema.default relationStamp = .image (.text server.schema.relation)

/-- The write can be undone. -/
def Undone [Sql] (server : Server) (forwardSql : String) (m : Meaning) (t : Table) : Prop :=
  match m.write with
  | .update assignments =>
      ∃ imageCols, updateSetColumns forwardSql = .ok imageCols ∧
        UndoneUpdate server m assignments imageCols t
  | .delete => UndoneDelete server m t

/-- The revert of an inverse succeeds and leaves the table as it was. -/
def Restores (server : Server) (inverse : InversePlan) (table initial : Table) : Prop :=
  ∃ table', RevertsTo server inverse table table' ∧ server.schema.SameTable table' initial

/-! ## The restored table -/

/-- The rows of an inverse as the revert restores them. -/
def revertRows (images : Int → Image) (keys : List Int) : List RevertRow :=
  keys.map fun k => ⟨.single (.int k), strip (images k)⟩

/-- One key set again from its pre-image. -/
def setAgain (images : Int → Image) (t : Table) (k : Int) : Table :=
  match t[k]? with
  | none => t
  | some r => t.insert k (overwrite ((strip (images k)).filter fun cell => cell.1 ≠ "id") r)

theorem overwrite_idem (cells : Image) (r : Row) :
    overwrite cells (overwrite cells r) = overwrite cells r := by
  funext c
  unfold overwrite
  rcases cells.lookup c with _ | v
  · rfl
  · rfl

private theorem getElem?_setAgain (images : Int → Image) (t : Table) (k k' : Int) :
    (setAgain images t k)[k']? = (t[k']?).map fun r =>
      if k' = k then overwrite ((strip (images k)).filter fun cell => cell.1 ≠ "id") r else r := by
  unfold setAgain
  rcases hget : t[k]? with _ | r
  · by_cases heq : k' = k
    · subst heq
      simp [hget]
    · simp [heq]
  · simp only [Std.TreeMap.getElem?_insert]
    by_cases heq : k' = k
    · subst heq
      simp [hget]
    · have hne : k ≠ k' := fun h => heq h.symm
      simp [heq, hne]

/-- What is at a key after the keys of a list were set again. -/
theorem getElem?_setAll (images : Int → Image) (keys : List Int) :
    ∀ (t : Table) (k : Int), (keys.foldl (setAgain images) t)[k]? = (t[k]?).map fun r =>
      if k ∈ keys then overwrite ((strip (images k)).filter fun cell => cell.1 ≠ "id") r
      else r := by
  induction keys with
  | nil => simp
  | cons first keys ih =>
      intro t k
      rw [List.foldl_cons, ih, getElem?_setAgain, Option.map_map]
      congr 1
      funext r
      by_cases hfirst : k = first
      · subst hfirst
        by_cases hrest : k ∈ keys
        · simp [hrest, overwrite_idem]
        · simp [hrest]
      · by_cases hrest : k ∈ keys
        · simp [hfirst, hrest]
        · simp [hfirst, hrest]

/-- The columns a revert sets, as the code filters them. -/
def restoredColumns (imageCols : List String) : List String :=
  ((selectColumns imageCols).filter fun c => c ≠ relationStamp).filter fun c => c ≠ "id"

theorem mem_restoredColumns {imageCols : List String} {c : String} :
    c ∈ restoredColumns imageCols ↔ Restored imageCols c := by
  unfold restoredColumns Restored
  rw [List.mem_filter, List.mem_filter, mem_selectColumns]
  simp only [ne_eq, decide_not, Bool.not_eq_true', decide_eq_false_iff_not]
  constructor
  · rintro ⟨⟨hkey | hcol, hstamp⟩, hid⟩
    · exact absurd hkey hid
    · exact ⟨hcol, hid, hstamp⟩
  · rintro ⟨hcol, hid, hstamp⟩
    exact ⟨⟨.inr hcol, hstamp⟩, hid⟩

section Captured

variable {server : Server} {imageCols : List String} {images : Int → Image} {k : Int} {r : Row}

theorem restoredCells_pictures (h : Pictures (selectColumns imageCols) k r (images k)) :
    Pictures (restoredColumns imageCols) k r
      (restoredCells ⟨.single (.int k), strip (images k)⟩) :=
  (h.filter fun c => c ≠ relationStamp).filter fun c => c ≠ "id"

/-- What a column holds after it was set again. -/
theorem overwrite_pictured (h : Pictures (selectColumns imageCols) k r (images k)) (r' : Row)
    (c : String) :
    (Restored imageCols c → overwrite (restoredCells ⟨.single (.int k), strip (images k)⟩) r' c =
      r c) ∧
      (¬ Restored imageCols c →
        overwrite (restoredCells ⟨.single (.int k), strip (images k)⟩) r' c = r' c) := by
  have hcells := restoredCells_pictures h
  unfold overwrite
  constructor
  · intro hc
    obtain ⟨v, hlookup, hv⟩ := hcells.lookup_of_mem (mem_restoredColumns.mpr hc)
    rw [cellAt, if_neg hc.2.1] at hv
    rw [hlookup, hv]
  · intro hc
    rw [hcells.lookup_of_notMem (mt mem_restoredColumns.mp hc)]

/-- One statement of the revert of an `UPDATE`. -/
theorem restoreRow_update (hknown : ∀ c ∈ selectColumns imageCols, server.schema.hasColumn c = true)
    (h : Pictures (selectColumns imageCols) k r (images k)) (t : Table) :
    restoreRow server .preimageUpsert server.schema.relation ⟨.single (.int k), strip (images k)⟩
      t = if restoredColumns imageCols = [] then none else some (setAgain images t k) := by
  have hcells := restoredCells_pictures h
  have hknows : server.schema.knows server.schema.relation
      ((restoredCells ⟨.single (.int k), strip (images k)⟩).map Prod.fst) = .ok () := by
    rw [hcells.columns]
    refine Schema.knows_ok_iff.mpr ⟨rfl, ?_, ?_⟩
    · intro c hc
      exact hknown c (List.mem_filter.mp (List.mem_filter.mp hc).1).1
    · exact ((selectColumns_nodup imageCols).filter _).filter _
  have hpk : pkInt ⟨.single (.int k), strip (images k)⟩ = .ok k := rfl
  have hempty : (restoredCells ⟨.single (.int k), strip (images k)⟩).isEmpty = true ↔
      restoredColumns imageCols = [] := by
    rw [← hcells.columns, List.map_eq_nil_iff, List.isEmpty_iff]
  simp only [restoreRow, hpk, hknows]
  by_cases hnone : restoredColumns imageCols = []
  · rw [if_pos (hempty.mpr hnone), if_pos hnone]
  · rw [if_neg (mt hempty.mp hnone), if_neg hnone]
    rfl

/-- The revert of an `UPDATE`, on the rows of its inverse. -/
theorem restoreRows_update (server : Server) {keys : List Int}
    (hknown : ∀ c ∈ selectColumns imageCols, server.schema.hasColumn c = true)
    (hpictured : ∀ k ∈ keys, ∃ r, Pictures (selectColumns imageCols) k r (images k))
    (t t' : Table) :
    restoreRows server .preimageUpsert server.schema.relation (revertRows images keys) t =
        some t' ↔
      (keys ≠ [] → restoredColumns imageCols ≠ []) ∧ keys.foldl (setAgain images) t = t' := by
  induction keys generalizing t with
  | nil => simp [revertRows, restoreRows]
  | cons k keys ih =>
      obtain ⟨r, hr⟩ := hpictured k (by simp)
      have hrest := ih fun k' hk' => hpictured k' (by simp [hk'])
      rw [revertRows, List.map_cons, restoreRows, restoreRow_update hknown hr]
      by_cases hnone : restoredColumns imageCols = []
      · simp [hnone]
      · rw [if_neg hnone, Option.bind_some]
        refine (hrest _).trans ?_
        simp [hnone]

/-- The row an `INSERT` of a revert stores. -/
def insertedRow (server : Server) (images : Int → Image) (k : Int) : Row :=
  overwrite (strip (images k)) server.schema.default

/-- What a column holds after its row was inserted again. -/
theorem insertedRow_pictured (h : Pictures (selectColumns imageCols) k r (images k)) {c : String}
    (hkey : c ≠ keyColumn) (hc : c ∈ imageCols) :
    insertedRow server images k c =
      if c = relationStamp then server.schema.default c else r c := by
  have hcells : Pictures ((selectColumns imageCols).filter fun c => c ≠ relationStamp) k r
      (strip (images k)) := h.filter fun c => c ≠ relationStamp
  unfold insertedRow overwrite
  by_cases hstamp : c = relationStamp
  · have hout : c ∉ (selectColumns imageCols).filter fun c => c ≠ relationStamp := by
      simp [hstamp]
    rw [hcells.lookup_of_notMem hout, if_pos hstamp]
  · have hin : c ∈ (selectColumns imageCols).filter fun c => c ≠ relationStamp :=
      List.mem_filter.mpr ⟨mem_selectColumns.mpr (.inr hc), by simpa using hstamp⟩
    obtain ⟨v, hlookup, hv⟩ := hcells.lookup_of_mem hin
    rw [cellAt, if_neg hkey] at hv
    rw [hlookup, if_neg hstamp, hv]

/-- One statement of the revert of a `DELETE`. -/
theorem restoreRow_insert (hknown : ∀ c ∈ selectColumns imageCols, server.schema.hasColumn c = true)
    (h : Pictures (selectColumns imageCols) k r (images k)) (t : Table) :
    restoreRow server .insert server.schema.relation ⟨.single (.int k), strip (images k)⟩ t =
      if t.contains k then none else some (t.insert k (insertedRow server images k)) := by
  have hcells : Pictures ((selectColumns imageCols).filter fun c => c ≠ relationStamp) k r
      (strip (images k)) := h.filter fun c => c ≠ relationStamp
  have hknows : server.schema.knows server.schema.relation
      ((strip (images k)).map Prod.fst) = .ok () := by
    rw [hcells.columns]
    refine Schema.knows_ok_iff.mpr ⟨rfl, ?_, (selectColumns_nodup imageCols).filter _⟩
    intro c hc
    exact hknown c (List.mem_filter.mp hc).1
  have hkey : (strip (images k)).lookup keyColumn = some (.int k) := by
    have hin : keyColumn ∈ (selectColumns imageCols).filter fun c => c ≠ relationStamp :=
      List.mem_filter.mpr ⟨mem_selectColumns.mpr (.inl rfl), rfl⟩
    obtain ⟨v, hlookup, hv⟩ := hcells.lookup_of_mem hin
    rw [cellAt, if_pos rfl] at hv
    cases hv
    exact hlookup
  simp only [restoreRow, hknows, hkey]
  rfl

/-- A key is still free after a row was put at another. -/
theorem getElem?_insert_eq_none_iff {t : Table} {k k' : Int} {r : Row} :
    (t.insert k r)[k']? = none ↔ k ≠ k' ∧ t[k']? = none := by
  rw [Std.TreeMap.getElem?_insert]
  by_cases heq : k = k'
  · simp [heq]
  · simp only [Std.LawfulEqOrd.compare_eq_iff_eq, heq, if_false, ne_eq, not_false_eq_true,
      true_and]

/-- The revert of a `DELETE`, on the rows of its inverse. -/
theorem restoreRows_insert (server : Server) {keys : List Int}
    (hknown : ∀ c ∈ selectColumns imageCols, server.schema.hasColumn c = true)
    (hpictured : ∀ k ∈ keys, ∃ r, Pictures (selectColumns imageCols) k r (images k))
    (t t' : Table) :
    restoreRows server .insert server.schema.relation (revertRows images keys) t = some t' ↔
      keys.Nodup ∧ (∀ k ∈ keys, t[k]? = none) ∧
        putAll t (keys.map fun k => (k, insertedRow server images k)) = t' := by
  induction keys generalizing t with
  | nil => simp [revertRows, restoreRows, putAll]
  | cons k keys ih =>
      obtain ⟨r, hr⟩ := hpictured k (by simp)
      have hrest := ih (fun k' hk' => hpictured k' (by simp [hk']))
        (t.insert k (insertedRow server images k))
      rw [revertRows, List.map_cons, restoreRows, restoreRow_insert hknown hr]
      by_cases hused : t.contains k = true
      · rw [if_pos hused, Option.bind_none]
        rw [Std.TreeMap.contains_eq_isSome_getElem?] at hused
        constructor
        · intro h
          cases h
        · rintro ⟨-, hfree, -⟩
          rw [hfree k (by simp)] at hused
          cases hused
      · rw [if_neg hused, Option.bind_some]
        refine hrest.trans ?_
        have hfree : t[k]? = none := by
          rw [Std.TreeMap.contains_eq_isSome_getElem?] at hused
          simpa using hused
        have hput : putAll t ((k :: keys).map fun k => (k, insertedRow server images k)) =
            putAll (t.insert k (insertedRow server images k))
              (keys.map fun k => (k, insertedRow server images k)) := rfl
        rw [hput, List.nodup_cons]
        constructor
        · rintro ⟨hnodup, hnone, htable⟩
          have hnew : ∀ k' ∈ keys, k ≠ k' ∧ t[k']? = none :=
            fun k' hk' => getElem?_insert_eq_none_iff.mp (hnone k' hk')
          refine ⟨⟨fun hmem => (hnew k hmem).1 rfl, hnodup⟩, ?_, htable⟩
          intro k' hk'
          rcases List.mem_cons.mp hk' with rfl | hk'
          · exact hfree
          · exact (hnew k' hk').2
        · rintro ⟨⟨hfresh, hnodup⟩, hnone, htable⟩
          refine ⟨hnodup, ?_, htable⟩
          intro k' hk'
          have hne : k ≠ k' := by
            rintro rfl
            exact hfresh hk'
          exact getElem?_insert_eq_none_iff.mpr ⟨hne, hnone k' (by simp [hk'])⟩

end Captured

/-! ## The inverse of the apply -/

section Inverse

variable [Sql] {server : Server} {forwardSql : String} {kind : WriteKind} {table : Table}
  {forward : ForwardResult} {imageCols : List String} {m : Meaning} {written : Written}
  {images : Int → Image} {keys : List Int}

/-- A captured routing column names the relation, in every row with a returned
key. -/
def StampedAsTarget (server : Server) (imageCols : List String) (table : Table)
    (keys : List Int) : Prop :=
  ∀ k ∈ keys, ∀ r, table[k]? = some r → relationStamp ∈ imageCols →
    r relationStamp = .image (.text server.schema.relation)

/-- The revert restores the initial table exactly when its rows are the target's
and put that table back. -/
theorem restores_iff (h : Forwarded server forwardSql kind table forward imageCols m written
    images keys) {predicted : PredictedBlastRadius}
    (hfree : server.schema.relation ∉ cascadeNames predicted) :
    Restores server (buildInverse kind server.schema.relation predicted forward) written.table
        table ↔
      StampedAsTarget server imageCols table keys ∧
        ∃ table', restoreRows server (DryRun.WriteKind.inverseKind kind) server.schema.relation
            (revertRows images keys) written.table = some table' ∧
          server.schema.SameTable table' table := by
  have hkind : (buildInverse kind server.schema.relation predicted forward).kind =
      DryRun.WriteKind.inverseKind kind := by
    rw [buildInverse_eq]
    cases kind with
    | update => rfl
    | delete => rfl
  have horder : (buildInverse kind server.schema.relation predicted forward).fkOrder =
      server.schema.relation :: cascadeNames predicted := by
    rw [buildInverse_eq]
  have hreverts := revertsTo_target_iff server
    (buildInverse kind server.schema.relation predicted forward)
    (by rw [hkind]; cases kind <;> decide) (by rw [buildInverse_eq]) horder hfree written.table
  have hstamped : (∀ row ∈ (buildInverse kind server.schema.relation predicted forward).rows,
      OfTarget server.schema.relation row.beforeImage) ↔
      StampedAsTarget server imageCols table keys := by
    rw [inverse_rows h predicted]
    have hmem : relationStamp ∈ selectColumns imageCols ↔ relationStamp ∈ imageCols := by
      rw [mem_selectColumns]
      exact or_iff_right (by decide)
    constructor
    · intro hall k hk r hr hstamp
      obtain ⟨r', hr', hpictures⟩ := h.pictured k hk
      cases hr.symm.trans hr'
      exact (ofTarget_iff hpictures (selectColumns_nodup imageCols)
        (mem_selectColumns.mpr (.inl rfl))).mp
        (hall _ (List.mem_map.mpr ⟨k, hk, rfl⟩)) (hmem.mpr hstamp)
    · intro hall row hrow
      obtain ⟨k, hk, rfl⟩ := List.mem_map.mp hrow
      obtain ⟨r, hr, hpictures⟩ := h.pictured k hk
      exact (ofTarget_iff hpictures (selectColumns_nodup imageCols)
        (mem_selectColumns.mpr (.inl rfl))).mpr fun hstamp => hall k hk r hr (hmem.mp hstamp)
  have hrows : (buildInverse kind server.schema.relation predicted forward).rows.map toRevertRow =
      revertRows images keys := by
    rw [inverse_rows h predicted, List.map_map]
    rfl
  unfold Restores
  constructor
  · rintro ⟨table', hto, hsame⟩
    obtain ⟨hall, htable⟩ := (hreverts table').mp hto
    rw [hrows, hkind] at htable
    exact ⟨hstamped.mp hall, table', htable, hsame⟩
  · rintro ⟨hall, table', htable, hsame⟩
    refine ⟨table', (hreverts table').mpr ⟨hstamped.mpr hall, ?_⟩, hsame⟩
    rw [hrows, hkind]
    exact htable

end Inverse

/-! ## An update -/

/-- The returned rows do not depend on the order the server meets them in. -/
theorem mem_returned_of_perm (m : Meaning) {rows rows' : List (Int × Row)} (h : rows.Perm rows')
    {x : Option Int} : x ∈ m.returned rows ↔ x ∈ m.returned rows' := by
  unfold Meaning.returned
  cases m.returning with
  | none => rfl
  | some f => exact (h.map _).mem_iff

section Update

variable {server : Server} {table : Table} {imageCols : List String} {m : Meaning}
  {written : Written} {images : Int → Image} {keys : List Int} {assignments : List Assigned}

/-- What an `UPDATE` left at a key. -/
private theorem updated_get (hwrite : m.write = .update assignments)
    (hran : m.run server.schema server.scan table = .ok written) {k : Int} {r : Row}
    (hr : table[k]? = some r) (hselects : m.selects k r = true) :
    written.table[(moved assignments (k, r)).1]? = some (newRow assignments k r) := by
  obtain ⟨hnodup, -, htable, -, -⟩ := Meaning.run_update hwrite hran
  have hmem : moved assignments (k, r) ∈
      (server.scan (selected table m.selects)).map (moved assignments) :=
    List.mem_map.mpr ⟨(k, r), (server.scan_perm _).mem_iff.mpr
      (mem_selected.mpr ⟨hr, hselects⟩), rfl⟩
  rw [htable]
  exact putAll_of_mem _ hnodup hmem

/-- A key no moved row landed on. -/
private theorem updated_get_other (hwrite : m.write = .update assignments)
    (hran : m.run server.schema server.scan table = .ok written) {k : Int}
    (hother : ∀ k₀ r₀, table[k₀]? = some r₀ → m.selects k₀ r₀ = true →
      (moved assignments (k₀, r₀)).1 ≠ k) :
    written.table[k]? = (table[k]?).filter fun r => !m.selects k r := by
  obtain ⟨-, -, htable, -, -⟩ := Meaning.run_update hwrite hran
  rw [htable, putAll_of_notMem, Std.TreeMap.getElem?_filter']
  intro hmem
  obtain ⟨row, hrow, rfl⟩ := List.mem_map.mp hmem
  obtain ⟨⟨k₀, r₀⟩, hrow₀, rfl⟩ := List.mem_map.mp hrow
  obtain ⟨hr₀, hselects⟩ := mem_selected.mp ((server.scan_perm _).mem_iff.mp hrow₀)
  exact hother k₀ r₀ hr₀ hselects rfl

/-- Rows that land on keys of the table land on every selected key. -/
private theorem landed_on (hwrite : m.write = .update assignments)
    (hran : m.run server.schema server.scan table = .ok written)
    (hkeys : ∀ k r, table[k]? = some r → m.selects k r = true →
      ∃ r', table[(moved assignments (k, r)).1]? = some r') {k : Int} {r : Row}
    (hr : table[k]? = some r) (hselects : m.selects k r = true) :
    ∃ k₀ r₀, table[k₀]? = some r₀ ∧ m.selects k₀ r₀ = true ∧
      (moved assignments (k₀, r₀)).1 = k := by
  obtain ⟨hnodup, hfree, -, -, -⟩ := Meaning.run_update hwrite hran
  have hlength : (((server.scan (selected table m.selects)).map (moved assignments)).map
      Prod.fst).length = (selected table m.selects).length := by
    rw [List.length_map, List.length_map, (server.scan_perm _).length_eq]
  have hperm := landing_perm (t := table) (p := m.selects) hnodup hlength.ge hfree (by
    intro k hk
    obtain ⟨row, hrow, rfl⟩ := List.mem_map.mp hk
    obtain ⟨⟨k₀, r₀⟩, hrow₀, rfl⟩ := List.mem_map.mp hrow
    obtain ⟨hr₀, hselects⟩ := mem_selected.mp ((server.scan_perm _).mem_iff.mp hrow₀)
    exact hkeys k₀ r₀ hr₀ hselects)
  have hmem : k ∈ (selected table m.selects).map Prod.fst :=
    List.mem_map.mpr ⟨(k, r), mem_selected.mpr ⟨hr, hselects⟩, rfl⟩
  obtain ⟨row, hrow, hk⟩ := List.mem_map.mp (hperm.mem_iff.mpr hmem)
  obtain ⟨⟨k₀, r₀⟩, hrow₀, rfl⟩ := List.mem_map.mp hrow
  obtain ⟨hr₀, hselects₀⟩ := mem_selected.mp ((server.scan_perm _).mem_iff.mp hrow₀)
  exact ⟨k₀, r₀, hr₀, hselects₀, hk⟩

/-- The returned keys of an `UPDATE`. -/
private theorem mem_keys_update (hwrite : m.write = .update assignments)
    (hran : m.run server.schema server.scan table = .ok written)
    (hreturned : written.returned = keys.map some) (k : Int) :
    k ∈ keys ↔ some k ∈ m.returned (landedRows m assignments table) := by
  obtain ⟨-, -, -, hreturned', -⟩ := Meaning.run_update hwrite hran
  have hperm : ((server.scan (selected table m.selects)).map (moved assignments)).Perm
      (landedRows m assignments table) := (server.scan_perm _).map _
  rw [← mem_returned_of_perm m hperm, ← hreturned', hreturned]
  simp

/-- A row agrees with what was at its key once it was set again exactly when it agrees
outside of what was set. -/
private theorem sameRow_set_iff
    (hpictured : ∀ k ∈ keys, ∃ r, table[k]? = some r ∧
      Pictures (selectColumns imageCols) k r (images k)) {k : Int} {r' : Row}
    (hr' : table[k]? = some r') (r : Row) :
    server.schema.SameRow (if k ∈ keys then
        overwrite ((strip (images k)).filter fun cell => cell.1 ≠ "id") r else r) r' ↔
      ∀ c ∈ server.schema.columns, c ≠ keyColumn → ¬ (k ∈ keys ∧ Restored imageCols c) →
        r c = r' c := by
  by_cases hmem : k ∈ keys
  · obtain ⟨r'', hr'', hpictures⟩ := hpictured k hmem
    cases hr'.symm.trans hr''
    rw [if_pos hmem]
    refine forall₃_congr fun c _ _ => ?_
    obtain ⟨hset, hkept⟩ := overwrite_pictured hpictures r c
    by_cases hrestored : Restored imageCols c
    · exact iff_of_true (hset hrestored) fun h => absurd ⟨hmem, hrestored⟩ h
    · have hcell := hkept hrestored
      constructor
      · intro h _
        exact hcell.symm.trans h
      · intro h
        exact hcell.trans (h fun hr => hrestored hr.2)
  · rw [if_neg hmem]
    exact forall₃_congr fun c _ _ => ⟨fun h _ => h, fun h => h fun hr => hmem hr.1⟩

/-- The table after the captured keys of an `UPDATE` were set again is the
initial one exactly when the rows that landed on each key agree with what was
there, outside what was set. -/
private theorem setAll_same_iff (hwrite : m.write = .update assignments)
    (hran : m.run server.schema server.scan table = .ok written)
    (hpictured : ∀ k ∈ keys, ∃ r, table[k]? = some r ∧
      Pictures (selectColumns imageCols) k r (images k)) :
    server.schema.SameTable (keys.foldl (setAgain images) written.table) table ↔
      ∀ k r, table[k]? = some r → m.selects k r = true →
        ∃ r', table[(moved assignments (k, r)).1]? = some r' ∧
          ∀ c ∈ server.schema.columns, c ≠ keyColumn →
            ¬ ((moved assignments (k, r)).1 ∈ keys ∧ Restored imageCols c) →
            newRow assignments k r c = r' c := by
  constructor
  · intro hsame k r hr hselects
    have hat := hsame (moved assignments (k, r)).1
    rw [getElem?_setAll, updated_get hwrite hran hr hselects, Option.map_some] at hat
    rcases hinitial : table[(moved assignments (k, r)).1]? with _ | r'
    · rw [hinitial] at hat
      cases hat
    · rw [hinitial] at hat
      have hagree := Option.rel_some_some.mp hat
      exact ⟨r', rfl, (sameRow_set_iff hpictured hinitial _).mp hagree⟩
  · intro hkept k
    rw [getElem?_setAll]
    by_cases hlanded : ∃ k₀ r₀, table[k₀]? = some r₀ ∧ m.selects k₀ r₀ = true ∧
        (moved assignments (k₀, r₀)).1 = k
    · obtain ⟨k₀, r₀, hr₀, hselects, rfl⟩ := hlanded
      obtain ⟨r', hr', hagree⟩ := hkept k₀ r₀ hr₀ hselects
      rw [updated_get hwrite hran hr₀ hselects, hr', Option.map_some]
      exact Option.rel_some_some.mpr ((sameRow_set_iff hpictured hr' _).mpr hagree)
    · have hother : ∀ k₀ r₀, table[k₀]? = some r₀ → m.selects k₀ r₀ = true →
          (moved assignments (k₀, r₀)).1 ≠ k :=
        fun k₀ r₀ hr₀ hselects heq => hlanded ⟨k₀, r₀, hr₀, hselects, heq⟩
      rw [updated_get_other hwrite hran hother]
      rcases hinitial : table[k]? with _ | r
      · exact Option.Rel.none
      · have hunselected : m.selects k r = false := by
          by_contra hselected
          exact hlanded (landed_on hwrite hran
            (fun k₀ r₀ hr₀ hs => (hkept k₀ r₀ hr₀ hs).imp fun _ h => h.1) hinitial
            (by simpa using hselected))
        simp only [Option.filter_some, hunselected, Bool.not_false, if_true, Option.map_some]
        exact Option.rel_some_some.mpr
          ((sameRow_set_iff hpictured hinitial r).mpr fun _ _ _ _ => rfl)

/-- The revert of a committed `UPDATE` restores the table exactly when the update
can be undone. -/
theorem restores_update_iff [Sql] {forwardSql : String} {forward : ForwardResult}
    {predicted : PredictedBlastRadius}
    (h : Forwarded server forwardSql .update table forward imageCols m written images keys)
    (hfree : server.schema.relation ∉ cascadeNames predicted)
    (hwrite : m.write = .update assignments) :
    Restores server (buildInverse .update server.schema.relation predicted forward) written.table
        table ↔ UndoneUpdate server m assignments imageCols table := by
  have hmem := mem_keys_update hwrite h.ran h.returned
  have hnone : keys ≠ [] ↔ m.returned (landedRows m assignments table) ≠ [] := by
    obtain ⟨-, -, -, hreturned, -⟩ := Meaning.run_update hwrite h.ran
    have hlength : (m.returned (landedRows m assignments table)).length = keys.length := by
      have hsame : (m.returned (landedRows m assignments table)).length =
          written.returned.length := by
        rw [hreturned, Meaning.returned, Meaning.returned]
        cases m.returning with
        | none => rfl
        | some f =>
            simp only [landedRows, List.length_map]
            exact (server.scan_perm _).length_eq.symm
      rw [hsame, h.returned, List.length_map]
    rw [← List.length_pos_iff, ← List.length_pos_iff, hlength]
  have hcolumns : (∃ c, Restored imageCols c) ↔ restoredColumns imageCols ≠ [] := by
    constructor
    · rintro ⟨c, hc⟩
      exact List.ne_nil_of_mem (mem_restoredColumns.mpr hc)
    · intro hne
      obtain ⟨c, hc⟩ := List.exists_mem_of_ne_nil _ hne
      exact ⟨c, mem_restoredColumns.mp hc⟩
  have hrows := restoreRows_update server h.known
    (fun k hk => (h.pictured k hk).imp fun _ h => h.2) written.table
  have hkept := setAll_same_iff hwrite h.ran h.pictured
  rw [restores_iff h hfree]
  constructor
  · rintro ⟨hstamped, table', htable, hsame⟩
    obtain ⟨hset, rfl⟩ := (hrows table').mp htable
    refine ⟨fun k r hk hr => hstamped k ((hmem k).mpr hk) r hr,
      fun hreturned => hcolumns.mpr (hset (hnone.mpr hreturned)), ?_⟩
    intro k r hr hselects
    obtain ⟨r', hr', hagree⟩ := hkept.mp hsame k r hr hselects
    refine ⟨r', hr', fun c hc hkey hout => hagree c hc hkey ?_⟩
    rintro ⟨hlanded, hrestored⟩
    exact hout ⟨(hmem _).mp hlanded, hrestored⟩
  · intro hundone
    refine ⟨fun k hk r hr => hundone.stamp k r ((hmem k).mp hk) hr, _, (hrows _).mpr
      ⟨fun hkeys => hcolumns.mp (hundone.columns (hnone.mp hkeys)), rfl⟩, hkept.mpr ?_⟩
    intro k r hr hselects
    obtain ⟨r', hr', hagree⟩ := hundone.kept k r hr hselects
    refine ⟨r', hr', fun c hc hkey hout => hagree c hc hkey ?_⟩
    rintro ⟨hlanded, hrestored⟩
    exact hout ⟨(hmem _).mpr hlanded, hrestored⟩

end Update

/-! ## A delete -/

section Delete

variable {server : Server} {table : Table} {m : Meaning} {written : Written}
  {images : Int → Image} {keys : List Int}

/-- The keys a `DELETE` returned, which are as many as the rows it took. -/
private theorem keys_delete (hwrite : m.write = .delete)
    (hran : m.run server.schema server.scan table = .ok written)
    (hreturned : written.returned = keys.map some) :
    (m.returned (selected table m.selects)).Perm (keys.map some) ∧
      written.counts.del = (selected table m.selects).length := by
  obtain ⟨-, hreturned', hcounts⟩ := Meaning.run_delete hwrite hran
  refine ⟨?_, ?_⟩
  · rw [← hreturned, hreturned', Meaning.returned, Meaning.returned]
    cases m.returning with
    | none => exact List.Perm.refl _
    | some f => exact ((server.scan_perm _).map _).symm
  · rw [hcounts]
    exact (server.scan_perm _).length_eq

/-- What a `DELETE` leaves. -/
private theorem deleted_get (hwrite : m.write = .delete)
    (hran : m.run server.schema server.scan table = .ok written) (k : Int) :
    written.table[k]? = (table[k]?).filter fun r => !m.selects k r := by
  obtain ⟨htable, -, -⟩ := Meaning.run_delete hwrite hran
  rw [htable, Std.TreeMap.getElem?_filter']

/-- Distinct keys of taken rows, as many as were taken, are all the taken keys. -/
private theorem mem_keys_of_taken (hnodup : keys.Nodup)
    (hcovered : (selected table m.selects).length ≤ keys.length)
    (htaken : ∀ k ∈ keys, ∃ r, table[k]? = some r ∧ m.selects k r = true) {k : Int} {r : Row}
    (hr : table[k]? = some r) (hselects : m.selects k r = true) : k ∈ keys := by
  have hkeys := landing_perm (t := table) (p := m.selects) hnodup hcovered
    (fun k hk r hr => by
      obtain ⟨r', hr', hselects⟩ := htaken k hk
      cases hr.symm.trans hr'
      exact hselects)
    (fun k hk => (htaken k hk).imp fun _ h => h.1)
  exact hkeys.mem_iff.mpr (List.mem_map.mpr ⟨(k, r), mem_selected.mpr ⟨hr, hselects⟩, rfl⟩)

/-- The table after the captured rows were inserted again is the initial one
exactly when a column under the routing name held its default. -/
private theorem insertAll_same_iff (hwrite : m.write = .delete)
    (hran : m.run server.schema server.scan table = .ok written)
    (hpictured : ∀ k ∈ keys, ∃ r, table[k]? = some r ∧
      Pictures (selectColumns server.schema.columns) k r (images k))
    (hnodup : keys.Nodup) (hcovered : (selected table m.selects).length ≤ keys.length)
    (htaken : ∀ k ∈ keys, ∃ r, table[k]? = some r ∧ m.selects k r = true) :
    server.schema.SameTable
        (putAll written.table (keys.map fun k => (k, insertedRow server images k))) table ↔
      ∀ k r, table[k]? = some r → m.selects k r = true → relationStamp ∈ server.schema.columns →
        server.schema.default relationStamp = r relationStamp := by
  have hput : ∀ k ∈ keys,
      (putAll written.table (keys.map fun k => (k, insertedRow server images k)))[k]? =
        some (insertedRow server images k) := by
    intro k hk
    apply putAll_of_mem
    · simpa [Function.comp_def] using hnodup
    · exact List.mem_map.mpr ⟨k, hk, rfl⟩
  constructor
  · intro hsame k r hr hselects hstamp
    have hk := mem_keys_of_taken hnodup hcovered htaken hr hselects
    obtain ⟨r', hr', hpictures⟩ := hpictured k hk
    cases hr.symm.trans hr'
    have hat := hsame k
    rw [hput k hk, hr] at hat
    have hcell := Option.rel_some_some.mp hat relationStamp hstamp (by decide)
    rw [insertedRow_pictured hpictures (by decide) hstamp, if_pos rfl] at hcell
    exact hcell
  · intro hdefault k
    by_cases hk : k ∈ keys
    · obtain ⟨r, hr, hpictures⟩ := hpictured k hk
      obtain ⟨r', hr', hselects⟩ := htaken k hk
      cases hr.symm.trans hr'
      rw [hput k hk, hr]
      refine Option.rel_some_some.mpr fun c hc hkey => ?_
      rw [insertedRow_pictured hpictures hkey hc]
      by_cases hstamp : c = relationStamp
      · subst hstamp
        rw [if_pos rfl]
        exact hdefault k r hr hselects hc
      · rw [if_neg hstamp]
    · rw [putAll_of_notMem _ (by simpa [Function.comp_def] using hk), deleted_get hwrite hran]
      rcases hr : table[k]? with _ | r
      · exact Option.Rel.none
      · have hunselected : m.selects k r = false := by
          by_contra hselected
          exact hk (mem_keys_of_taken hnodup hcovered htaken hr (by simpa using hselected))
        simp only [Option.filter_some, hunselected, Bool.not_false, if_true]
        exact Option.rel_some_some.mpr fun _ _ _ => rfl

/-- The revert of a committed `DELETE` restores the table exactly when the delete
can be undone. -/
theorem restores_delete_iff [Sql] {forwardSql : String} {forward : ForwardResult}
    {imageCols : List String} {predicted : PredictedBlastRadius}
    (h : Forwarded server forwardSql .delete table forward imageCols m written images keys)
    (hfree : server.schema.relation ∉ cascadeNames predicted) (hwrite : m.write = .delete)
    (hcovered : written.counts.del ≤ keys.length) :
    Restores server (buildInverse .delete server.schema.relation predicted forward) written.table
        table ↔ UndoneDelete server m table := by
  obtain ⟨hperm, hdel⟩ := keys_delete hwrite h.ran h.returned
  have hmem : ∀ k, k ∈ keys ↔ some k ∈ m.returned (selected table m.selects) := by
    intro k
    rw [hperm.mem_iff]
    simp
  have hcols := h.whole rfl
  subst hcols
  have hrows := restoreRows_insert server h.known
    (fun k hk => (h.pictured k hk).imp fun _ h => h.2) written.table
  have hsameIff := insertAll_same_iff hwrite h.ran h.pictured
  rw [restores_iff h hfree]
  constructor
  · rintro ⟨hstamped, table', htable', hsame⟩
    obtain ⟨hnodup, hnone, rfl⟩ := (hrows table').mp htable'
    have htaken : ∀ k ∈ keys, ∃ r, table[k]? = some r ∧ m.selects k r = true := by
      intro k hk
      obtain ⟨r, hr, -⟩ := h.pictured k hk
      refine ⟨r, hr, ?_⟩
      have hgone := hnone k hk
      rw [deleted_get hwrite h.ran, hr] at hgone
      simpa using hgone
    refine ⟨?_, fun k hk => htaken k ((hmem k).mpr hk), ?_⟩
    · exact hperm.nodup_iff.mpr (hnodup.map (Option.some_injective _))
    · intro k r hr hselects hstamp
      have hk := mem_keys_of_taken hnodup (hdel ▸ hcovered) htaken hr hselects
      have htext := hstamped k hk r hr hstamp
      have hdefault := (hsameIff hnodup (hdel ▸ hcovered) htaken).mp hsame k r hr hselects hstamp
      exact ⟨htext, hdefault.trans htext⟩
  · intro hundone
    have htaken : ∀ k ∈ keys, ∃ r, table[k]? = some r ∧ m.selects k r = true :=
      fun k hk => hundone.taken k ((hmem k).mp hk)
    have hnodup : keys.Nodup := (hperm.nodup_iff.mp hundone.once).of_map some
    have hnone : ∀ k ∈ keys, written.table[k]? = none := by
      intro k hk
      obtain ⟨r, hr, hselects⟩ := htaken k hk
      rw [deleted_get hwrite h.ran, hr]
      simp [hselects]
    refine ⟨?_, _, (hrows _).mpr ⟨hnodup, hnone, rfl⟩, ?_⟩
    · intro k hk r hr hstamp
      obtain ⟨r', hr', hselects⟩ := htaken k hk
      cases hr.symm.trans hr'
      exact (hundone.stamp k r hr hselects hstamp).1
    · refine (hsameIff hnodup (hdel ▸ hcovered) htaken).mpr fun k r hr hselects hstamp => ?_
      obtain ⟨htext, hdefault⟩ := hundone.stamp k r hr hselects hstamp
      rw [htext, hdefault]

end Delete

/-! ## The round trip -/

/-- The revert of a committed apply succeeds and leaves the initial table exactly
when the write can be undone. -/
theorem roundTrip_iff [Sha256] [Sql] (server : Server) (forwardSql whereSql : String)
    (m : Meaning) (hmeaning : server.meaning (sentText forwardSql) = .ok m) (q : Request)
    (table : Table) {applied : AppliedWrite} {s' : Logged ApplyAdapter ApplyCall}
    (hrun : (invocation server forwardSql whereSql (kindOf m.write) q).run
      ⟨.new ⟨table, none⟩, []⟩ = (.ok applied, s')) :
    Restores server applied.inverse s'.world.session.committed table ↔
      Undone server forwardSql m table := by
  obtain ⟨forward, imageCols, m', written, images, keys, predicted, hforward, hsession,
    hinverse, hfree, -, hcovered⟩ := apply_ok hrun
  cases hforward.meaning.symm.trans hmeaning
  rw [hinverse, hsession]
  unfold Undone
  rcases hwrite : m.write with assignments | _
  · rw [hwrite] at hforward
    have hassigned := hforward.assigned rfl
    simp only [kindOf]
    rw [restores_update_iff hforward hfree hwrite]
    constructor
    · intro hundone
      exact ⟨imageCols, hassigned, hundone⟩
    · rintro ⟨imageCols', hassigned', hundone⟩
      cases hassigned.symm.trans hassigned'
      exact hundone
  · rw [hwrite] at hforward
    simp only [kindOf]
    exact restores_delete_iff hforward hfree hwrite hcovered

/-! ## An update that exchanges two keys -/

def exchangeText : String :=
  "UPDATE public.accounts SET id = 3 - id, owner = owner WHERE id IN (1, 2)"

/-- The text, as the parser of the adapters reads it. -/
def exchangeUpdate : Statement :=
  .update
    { table := ⟨.table [.plain "public", .plain "accounts"], []⟩
      assignments :=
        [ ⟨.columnName [.plain "id"], .binaryOp (.value "3") "-" (.identifier (.plain "id"))⟩
        , ⟨.columnName [.plain "owner"], .identifier (.plain "owner")⟩ ]
      from? := none
      selection := some (.inList (.identifier (.plain "id")) [.value "1", .value "2"]) }

@[reducible] def exchangeSql : Sql := .knowing [(exchangeText, exchangeUpdate)]

/-- The text with its `RETURNING id`, as a server with a deferrable key reads
it. -/
def exchangeMeaning : Meaning where
  selects k _ := decide (k = 1 ∨ k = 2)
  write := .update
    [⟨"id", fun k _ => .image (.int (3 - k))⟩, ⟨"owner", fun _ r => r "owner"⟩]
  returning := some fun k _ => some k

def accountsSchema : Schema :=
  { relation := "public.accounts"
    columns := ["id", "owner", "balance"]
    default := fun _ => .image .null }

def accountsServer : Server :=
  .knowing accountsSchema [(sentText exchangeText, exchangeMeaning)]
    [("id IN (1, 2)", fun k _ => decide (k = 1 ∨ k = 2))]

/-- A row of the table. -/
def account (owner : String) (balance : Int) : Row := fun c =>
  if c = "owner" then .image (.text owner)
  else if c = "balance" then .image (.int balance)
  else .image .null

/-- Two accounts with these balances. -/
def twoAccounts (first second : Int) : Table :=
  .ofList [((1 : Int), account "alice" first), ((2 : Int), account "bob" second)]

def accountsRequest : Request :=
  { proposalId := "p1"
    dryRun := GuardedApplyAtomicity.twoRowRadius
    cap := { maxRows := 2, maxWalBytes := 0 }
    pitr := { enabled := false }
    now := 0 }

/-- The apply of the exchange to a table. -/
def exchangeRun [Sha256] [Sql] (table : Table) :
    Except ApplyError AppliedWrite × Logged ApplyAdapter ApplyCall :=
  (invocation accountsServer exchangeText "id IN (1, 2)" (kindOf exchangeMeaning.write)
    accountsRequest).run ⟨.new ⟨table, none⟩, []⟩

def renameText : String := "UPDATE public.accounts SET owner = 'carol' WHERE id IN (1, 2)"

def renameUpdate : Statement :=
  .update
    { table := ⟨.table [.plain "public", .plain "accounts"], []⟩
      assignments := [⟨.columnName [.plain "owner"], .value "'carol'"⟩]
      from? := none
      selection := some (.inList (.identifier (.plain "id")) [.value "1", .value "2"]) }

@[reducible] def renameSql : Sql := .knowing [(renameText, renameUpdate)]

def renameMeaning : Meaning where
  selects k _ := decide (k = 1 ∨ k = 2)
  write := .update [⟨"owner", fun _ _ => .image (.text "carol")⟩]
  returning := some fun k _ => some k

def renameServer : Server :=
  .knowing accountsSchema [(sentText renameText, renameMeaning)]
    [("id IN (1, 2)", fun k _ => decide (k = 1 ∨ k = 2))]

/-- The apply of an update that sets one column. -/
def renameRun [Sha256] [Sql] (table : Table) :
    Except ApplyError AppliedWrite × Logged ApplyAdapter ApplyCall :=
  (invocation renameServer renameText "id IN (1, 2)" (kindOf renameMeaning.write)
    accountsRequest).run ⟨.new ⟨table, none⟩, []⟩

theorem twoAccounts_get {first second k : Int} {r : Row}
    (h : (twoAccounts first second)[k]? = some r) :
    k = 1 ∧ r = account "alice" first ∨ k = 2 ∧ r = account "bob" second := by
  have hget : (twoAccounts first second)[k]? =
      if 2 = k then some (account "bob" second)
      else if 1 = k then some (account "alice" first) else none := by
    simp [twoAccounts, Std.TreeMap.ofList_cons, Std.TreeMap.getElem?_insert]
  rw [hget] at h
  by_cases hsecond : 2 = k
  · rw [if_pos hsecond] at h
    exact .inr ⟨hsecond.symm, (Option.some.inj h).symm⟩
  · rw [if_neg hsecond] at h
    by_cases hfirst : 1 = k
    · rw [if_pos hfirst] at h
      exact .inl ⟨hfirst.symm, (Option.some.inj h).symm⟩
    · rw [if_neg hfirst] at h
      cases h

theorem accounts_columns {c : String} (hc : c ∈ accountsSchema.columns) (hkey : c ≠ keyColumn) :
    c = "owner" ∨ c = "balance" := by
  simp only [accountsSchema, List.mem_cons, List.not_mem_nil, or_false] at hc
  exact hc.resolve_left hkey

theorem exchange_undone :
    letI := exchangeSql
    Undone accountsServer exchangeText exchangeMeaning (twoAccounts 10 10) := by
  let _ := exchangeSql
  refine ⟨["id", "owner"], rfl, ?_, fun _ => ⟨"owner", by decide, by decide, by decide⟩, ?_⟩
  · intro k r _ _ hstamp
    exact absurd hstamp (by decide)
  · intro k r hr _
    rcases twoAccounts_get hr with ⟨rfl, rfl⟩ | ⟨rfl, rfl⟩
    · refine ⟨account "bob" 10, rfl, ?_⟩
      intro c hc hkey hset
      rcases accounts_columns hc hkey with rfl | rfl
      · exact absurd ⟨by decide +kernel, by decide, by decide, by decide⟩ hset
      · rfl
    · refine ⟨account "alice" 10, rfl, ?_⟩
      intro c hc hkey hset
      rcases accounts_columns hc hkey with rfl | rfl
      · exact absurd ⟨by decide +kernel, by decide, by decide, by decide⟩ hset
      · rfl

theorem rename_undone :
    letI := renameSql
    Undone renameServer renameText renameMeaning (twoAccounts 10 20) := by
  let _ := renameSql
  refine ⟨["owner"], rfl, ?_, fun _ => ⟨"owner", by decide, by decide, by decide⟩, ?_⟩
  · intro k r _ _ hstamp
    exact absurd hstamp (by decide)
  · intro k r hr _
    refine ⟨r, hr, ?_⟩
    intro c hc hkey hset
    rcases accounts_columns hc hkey with rfl | rfl
    · rcases twoAccounts_get hr with ⟨rfl, rfl⟩ | ⟨rfl, rfl⟩
      · exact absurd ⟨by decide +kernel, by decide, by decide, by decide⟩ hset
      · exact absurd ⟨by decide +kernel, by decide, by decide, by decide⟩ hset
    · rfl

/-- Where the balances are equal, the exchange is undone; an update that sets one column is
undone wherever it commits. -/
theorem roundTrip_iff_equal_balances :
    letI := Sha256.standard
    letI := exchangeSql
    (∃ applied s', exchangeRun (twoAccounts 10 10) = (.ok applied, s') ∧
      Restores accountsServer applied.inverse s'.world.session.committed (twoAccounts 10 10)) ∧
    letI := renameSql
    ∃ applied s', renameRun (twoAccounts 10 20) = (.ok applied, s') ∧
      Restores renameServer applied.inverse s'.world.session.committed (twoAccounts 10 20) := by
  let _ := Sha256.standard
  constructor
  · let _ := exchangeSql
    have hok : (exchangeRun (twoAccounts 10 10)).1.isOk = true := by decide +kernel
    rcases hrun : exchangeRun (twoAccounts 10 10) with ⟨e | applied, s'⟩
    · rw [hrun] at hok
      cases hok
    · exact ⟨applied, s', rfl, (roundTrip_iff accountsServer exchangeText "id IN (1, 2)"
        exchangeMeaning rfl accountsRequest (twoAccounts 10 10) hrun).mpr exchange_undone⟩
  · let _ := renameSql
    have hok : (renameRun (twoAccounts 10 20)).1.isOk = true := by decide +kernel
    rcases hrun : renameRun (twoAccounts 10 20) with ⟨e | applied, s'⟩
    · rw [hrun] at hok
      cases hok
    · exact ⟨applied, s', rfl, (roundTrip_iff renameServer renameText "id IN (1, 2)"
        renameMeaning rfl accountsRequest (twoAccounts 10 20) hrun).mpr rename_undone⟩

/-- The exchange of two accounts commits, and its revert leaves each owner with
the balance of the other. -/
theorem exchangeRun_not_restored :
    letI := Sha256.standard
    letI := exchangeSql
    ∃ applied s', exchangeRun (twoAccounts 10 20) = (.ok applied, s') ∧
      ¬ Restores accountsServer applied.inverse s'.world.session.committed
        (twoAccounts 10 20) := by
  let _ := Sha256.standard
  let _ := exchangeSql
  have hbalance : (match exchangeRun (twoAccounts 10 20) with
      | (.ok applied, s') =>
          let reverted := revert applied.inverse (pgRevertConn accountsServer)
            ⟨.new ⟨s'.world.session.committed, none⟩, []⟩
          (reverted.2.world.session.committed[(1 : Int)]?).map (· "balance")
      | (.error _, _) => none) = some (.image (.int 20)) := by
    decide +kernel
  rcases hrun : exchangeRun (twoAccounts 10 20) with ⟨e | applied, s'⟩
  · rw [hrun] at hbalance
    cases hbalance
  · refine ⟨applied, s', rfl, ?_⟩
    rintro ⟨table', ⟨report, s'', hrevert, hsession⟩, hsame⟩
    rw [hrun] at hbalance
    simp only [hrevert, hsession] at hbalance
    have hat := hsame 1
    rcases hrow : table'[(1 : Int)]? with _ | r
    · simp [hrow] at hbalance
    · rw [hrow] at hat
      have hinitial : (twoAccounts 10 20)[(1 : Int)]? = some (account "alice" 10) := rfl
      rw [hinitial] at hat
      have hcell := Option.rel_some_some.mp hat "balance" (by decide) (by decide)
      rw [hrow, Option.map_some, hcell] at hbalance
      revert hbalance
      decide

end PgBrakes.Ports.RoundTrip
