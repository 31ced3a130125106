import PgBrakes.Ports.PgTable
import PgBrakes.Ports.PgRehearsal
import PgBrakes.Ports.Revert

/-!
# The apply and the revert over PostgreSQL

A port of `PgApplyConn` and `PgRevertConn` in
`crates/clone-orchestrator/src/conn.rs`, over the one-table server.  Each adapter
is a session with the fields the source keeps next to its client.  A quoted
column name stands for itself: names with a quote in them are not modelled.

## Main results

* `selectColumns_nodup`, `mem_selectColumns` — the select list of a pre-image.
* `imageOf_ok`, `collectPreimages_get`, `captureWritten_ok` — the loops of
  `apply_forward`, in closed form.
-/

namespace PgBrakes.Ports.PgConn

open PgBrakes.Verified.Effect
open PgBrakes.Verified.KeyedTable
open PgBrakes.Ports.KeyChecksum
open PgBrakes.Ports.TypedInverse
open PgBrakes.Ports.BlastRecord
open PgBrakes.Ports.GuardedApply
open PgBrakes.Ports.SqlAst
open PgBrakes.Ports.DryRun
open PgBrakes.Ports.PgRehearsal
open PgBrakes.Ports.Revert
open PgBrakes.Ports.PgTable

variable {α : Type}

/-! ## The apply adapter -/

/-- `PgApplyConn`, without the two texts it is made for. -/
structure ApplyAdapter where
  session : Session
  xactBaseline : Std.TreeMap String OpCounts
  walBaselineLsn : Option Nat
  inTxn : Bool
  statementTimeoutMs : Nat

def ApplyAdapter.new (session : Session) : ApplyAdapter := ⟨session, ∅, none, false, 0⟩

/-- `classify_apply`: a timeout and a serialization failure are told apart. -/
def classifyApply (timeoutMs : Nat) : ServerError → ApplyError
  | .queryCanceled => .timeout timeoutMs
  | .serializationFailure => .serializationFailure
  | .other message => .backend message

def backendError (e : ServerError) : ApplyError := .backend e.toString

/-- Run a statement on the session of the adapter. -/
def onSession (g : ServerError → ApplyError) (m : Eff Session ServerError α) :
    Eff ApplyAdapter ApplyError α := fun a =>
  ((m a.session).1.mapError g, { a with session := (m a.session).2 })

/-- Run a statement whose errors are classified with the timeout of the
transaction. -/
def query (m : Eff Session ServerError α) : Eff ApplyAdapter ApplyError α := fun a =>
  onSession (classifyApply a.statementTimeoutMs) m a

/-- Set fields of the adapter. -/
def remember (f : ApplyAdapter → ApplyAdapter) : Eff ApplyAdapter ApplyError Unit := fun a =>
  (.ok (), f a)

def readXactRaw (server : Server) : Eff ApplyAdapter ApplyError (Std.TreeMap String OpCounts) :=
  do
    let rows ← query server.xactCounts
    pure (Std.TreeMap.ofList rows)

/-- `begin`: open the transaction, then read the two baselines. -/
def beginApply (server : Server) (timeoutMs : Nat) : Eff ApplyAdapter ApplyError Unit := do
  onSession (classifyApply timeoutMs) beginXact
  remember fun a => { a with inTxn := true, statementTimeoutMs := timeoutMs }
  let baseline ← readXactRaw server
  remember fun a => { a with xactBaseline := baseline }
  let lsn ← onSession (classifyApply timeoutMs) server.currentLsn
  remember fun a => { a with walBaselineLsn := some lsn }

/-- `xact_wal_bytes`.  The source has the server take the difference, in a second query. -/
def xactWalBytes (server : Server) : Eff ApplyAdapter ApplyError Nat := fun a =>
  match a.walBaselineLsn with
  | none => (.error (.backend "WAL baseline not captured (begin not called)"), a)
  | some before =>
      (do
        let after ← query server.currentLsn
        pure (after - before) : Eff ApplyAdapter ApplyError Nat) a

/-- `xact_tuple_deltas`: what the counters gained since the baseline, without the
relations that did not change. -/
def xactTupleDeltas (server : Server) : Eff ApplyAdapter ApplyError (List RelationChange) :=
  fun a =>
    (do
      let after ← readXactRaw server
      pure (after.toList.filterMap fun entry =>
        let before := a.xactBaseline.getD entry.1 {}
        let change : RelationChange :=
          { relation := entry.1
            ins := entry.2.ins - before.ins
            upd := entry.2.upd - before.upd
            del := entry.2.del - before.del }
        if change.ins + change.upd + change.del = 0 then none else some change) :
      Eff ApplyAdapter ApplyError (List RelationChange)) a

/-! ### The pre-image -/

/-- The select list of the pre-image: the key, then each column once. -/
def selectColumns (imageCols : List String) : List String :=
  imageCols.foldl (fun cols c => if c ≠ keyColumn ∧ c ∉ cols then cols ++ [c] else cols)
    [keyColumn]

/-- `image_value_at`: only the types that are restored exactly. -/
def imageValueAt (column : String) : Cell → Except ApplyError ImageValue
  | .image v => .ok v
  | .other typname _ => .error (.backend ("column `" ++ column ++ "` has type `" ++ typname ++
      "` which the MVP reversible-capture does not support losslessly — fail-closed " ++
      "(S5 #75): refusing to commit a write whose pre-image cannot be certifiably restored"))

/-- The loop over the columns of one pre-image row. -/
def imageOf : List String → List Cell → Except ApplyError Image
  | column :: columns, cell :: cells =>
      match imageValueAt column cell with
      | .error e => .error e
      | .ok v =>
          match imageOf columns cells with
          | .error e => .error e
          | .ok image => .ok ((column, v) :: image)
  | _, _ => .ok []

/-- `row.try_get::<i32>(0)`. -/
def keyOf (relation : String) : List Cell → Except ApplyError Int
  | .image (.int k) :: _ => .ok k
  | _ => .error (.backend ("non-int4 PK on `" ++ relation ++ "`: error retrieving column 0"))

/-- The loop over the pre-image rows. -/
def collectPreimages (relation : String) (columns : List String)
    (preimage : Std.TreeMap Int Image) :
    List (List Cell) → Except ApplyError (Std.TreeMap Int Image)
  | [] => .ok preimage
  | cells :: rows =>
      match keyOf relation cells with
      | .error e => .error e
      | .ok k =>
          match imageOf columns cells with
          | .error e => .error e
          | .ok image => collectPreimages relation columns (preimage.insert k image) rows

/-- The loop over the returned rows: each must have a pre-image. -/
def captureWritten (relation : String) (preimage : Std.TreeMap Int Image) :
    List (Option Int) → Except ApplyError (List CapturedRow)
  | [] => .ok []
  | none :: _ =>
      .error (.backend ("non-int4 PK on `" ++ relation ++ "`: error retrieving column 0"))
  | some k :: rows =>
      match preimage[k]? with
      | none => .error (.missingPreImage relation (toString k))
      | some image =>
          match captureWritten relation preimage rows with
          | .error e => .error e
          | .ok written => .ok (⟨.single (.int k), image⟩ :: written)

private theorem foldl_selectColumns (imageCols : List String) :
    ∀ cols : List String, cols.Nodup →
      let out := imageCols.foldl
        (fun cols c => if c ≠ keyColumn ∧ c ∉ cols then cols ++ [c] else cols) cols
      out.Nodup ∧ cols <+: out ∧ ∀ c, c ∈ out ↔ c ∈ cols ∨ (c ∈ imageCols ∧ c ≠ keyColumn) := by
  induction imageCols with
  | nil =>
      intro cols hnodup
      exact ⟨hnodup, List.prefix_refl _, by simp⟩
  | cons d imageCols ih =>
      intro cols hnodup
      by_cases hnew : d ≠ keyColumn ∧ d ∉ cols
      · have hgrown : (cols ++ [d]).Nodup := by
          rw [List.nodup_append]
          refine ⟨hnodup, by simp, ?_⟩
          rintro x hx y hy rfl
          exact hnew.2 (List.mem_singleton.mp hy ▸ hx)
        obtain ⟨hout, hprefix, hmem⟩ := ih (cols ++ [d]) hgrown
        simp only [List.foldl_cons, if_pos hnew]
        refine ⟨hout, (List.prefix_append _ _).trans hprefix, fun c => ?_⟩
        rw [hmem c]
        by_cases heq : c = d
        · subst heq
          simp [hnew.1]
        · simp [heq]
      · obtain ⟨hout, hprefix, hmem⟩ := ih cols hnodup
        simp only [List.foldl_cons, if_neg hnew]
        refine ⟨hout, hprefix, fun c => ?_⟩
        rw [hmem c]
        by_cases heq : c = d
        · subst heq
          by_cases hkey : c = keyColumn
          · simp [hkey]
          · have hold : c ∈ cols := by
              by_contra hno
              exact hnew ⟨hkey, hno⟩
            simp [hold]
        · simp [heq]

theorem selectColumns_nodup (imageCols : List String) : (selectColumns imageCols).Nodup :=
  (foldl_selectColumns imageCols [keyColumn] (by simp)).1

/-- The key comes first. -/
theorem selectColumns_key (imageCols : List String) :
    ∃ rest, selectColumns imageCols = keyColumn :: rest := by
  obtain ⟨rest, hrest⟩ := (foldl_selectColumns imageCols [keyColumn] (by simp)).2.1
  exact ⟨rest, hrest.symm⟩

theorem mem_selectColumns {imageCols : List String} {c : String} :
    c ∈ selectColumns imageCols ↔ c = keyColumn ∨ c ∈ imageCols := by
  rw [selectColumns, (foldl_selectColumns imageCols [keyColumn] (by simp)).2.2 c]
  by_cases hkey : c = keyColumn
  · simp [hkey]
  · simp [hkey]

/-- The image holds the values of these columns of a row. -/
structure Pictures (columns : List String) (k : Int) (r : Row) (image : Image) : Prop where
  columns : image.map Prod.fst = columns
  values : ∀ cell ∈ image, cellAt k r cell.1 = .image cell.2

theorem Pictures.filter {columns : List String} {k : Int} {r : Row} {image : Image}
    (h : Pictures columns k r image) (p : String → Bool) :
    Pictures (columns.filter p) k r (image.filter fun cell => p cell.1) := by
  refine ⟨?_, fun cell hcell => h.values cell (List.mem_filter.mp hcell).1⟩
  rw [← h.columns, List.filter_map]
  rfl

theorem Pictures.lookup_of_mem {columns : List String} {k : Int} {r : Row} {image : Image}
    (h : Pictures columns k r image) {c : String}
    (hc : c ∈ columns) : ∃ v, image.lookup c = some v ∧ cellAt k r c = .image v := by
  have hsome : (image.lookup c).isSome = true := by
    rw [← h.columns] at hc
    obtain ⟨cell, hcell, rfl⟩ := List.mem_map.mp hc
    exact List.lookup_isSome_iff.mpr ⟨cell, hcell, by simp⟩
  obtain ⟨v, hv⟩ := Option.isSome_iff_exists.mp hsome
  have hmem : (c, v) ∈ image := by
    obtain ⟨l₁, l₂, heq, -⟩ := List.lookup_eq_some_iff.mp hv
    rw [heq]
    simp
  exact ⟨v, hv, h.values (c, v) hmem⟩

theorem Pictures.lookup_of_notMem {columns : List String} {k : Int} {r : Row} {image : Image}
    (h : Pictures columns k r image) {c : String}
    (hc : c ∉ columns) : image.lookup c = none := by
  rw [List.lookup_eq_none_iff]
  intro cell hcell
  rw [← h.columns] at hc
  have hne : c ≠ cell.1 := fun heq => hc (heq ▸ List.mem_map.mpr ⟨cell, hcell, rfl⟩)
  simpa using hne

theorem imageOf_ok {columns : List String} {k : Int} {r : Row} {image : Image}
    (h : imageOf columns (columns.map (cellAt k r)) = .ok image) :
    Pictures columns k r image := by
  induction columns generalizing image with
  | nil =>
      cases h
      exact ⟨rfl, by simp⟩
  | cons c columns ih =>
      simp only [List.map_cons, imageOf] at h
      rcases hcell : cellAt k r c with v | ⟨typname, text⟩
      · simp only [hcell, imageValueAt] at h
        split at h
        · cases h
        · next rest hrest =>
            cases h
            have hpictures := ih hrest
            refine ⟨by simp [hpictures.columns], ?_⟩
            intro cell hmem
            rcases List.mem_cons.mp hmem with rfl | hmem
            · exact hcell
            · exact hpictures.values cell hmem
      · simp [hcell, imageValueAt] at h

/-- Every collected pre-image pictures a row of the list. -/
theorem collectPreimages_get {relation : String} {columns : List String}
    (hkey : ∃ rest, columns = keyColumn :: rest) {rows : List (Int × Row)} :
    ∀ {preimage result : Std.TreeMap Int Image},
      collectPreimages relation columns preimage
        (rows.map fun row => columns.map (cellAt row.1 row.2)) = .ok result →
      ∀ {k : Int} {image : Image}, result[k]? = some image →
        preimage[k]? = some image ∨ ∃ r, (k, r) ∈ rows ∧ Pictures columns k r image := by
  induction rows with
  | nil =>
      intro preimage result h k image hget
      cases h
      exact .inl hget
  | cons row rows ih =>
      intro preimage result h k image hget
      have hfirst : keyOf relation (columns.map (cellAt row.1 row.2)) = .ok row.1 := by
        obtain ⟨rest, rfl⟩ := hkey
        rfl
      simp only [List.map_cons, collectPreimages, hfirst] at h
      split at h
      · cases h
      next image' himage =>
        rcases ih h hget with hold | ⟨r, hmem, hpictures⟩
        · rw [Std.TreeMap.getElem?_insert] at hold
          by_cases heq : row.1 = k
          · subst heq
            have hsame : image' = image := by
              simpa using hold
            subst hsame
            exact .inr ⟨row.2, by simp, imageOf_ok himage⟩
          · rw [if_neg (by simpa using heq)] at hold
            exact .inl hold
        · exact .inr ⟨r, by simp [hmem], hpictures⟩

/-- Every returned row is an integer key with a pre-image, and is captured with
it. -/
theorem captureWritten_ok {relation : String} {preimage : Std.TreeMap Int Image}
    {returned : List (Option Int)} {written : List CapturedRow}
    (h : captureWritten relation preimage returned = .ok written) :
    ∃ keys : List Int, returned = keys.map some ∧ (∀ k ∈ keys, k ∈ preimage) ∧
      written = keys.map fun k => ⟨.single (.int k), preimage.getD k []⟩ := by
  induction returned generalizing written with
  | nil =>
      cases h
      exact ⟨[], rfl, by simp, rfl⟩
  | cons first returned ih =>
      rcases first with _ | k
      · cases h
      simp only [captureWritten] at h
      split at h
      · cases h
      next image himage =>
        split at h
        · cases h
        next rest hrest =>
          cases h
          obtain ⟨keys, hreturned, hkeys, hwritten⟩ := ih hrest
          refine ⟨k :: keys, by simp [hreturned], ?_, ?_⟩
          · intro k' hk'
            rcases List.mem_cons.mp hk' with rfl | hk'
            · rw [Std.TreeMap.mem_iff_isSome_getElem?, himage]
              rfl
            · exact hkeys k' hk'
          · rw [List.map_cons, hwritten, Std.TreeMap.getD_eq_getD_getElem?, himage]
            rfl

/-- The columns whose pre-image is captured. -/
def imageColumns [Sql] (server : Server) (forwardSql : String) (kind : WriteKind)
    (relation : String) : Eff ApplyAdapter ApplyError (List String) :=
  match kind with
  | .update => Eff.lift ((updateSetColumns forwardSql).mapError fun e =>
      .backend ("cannot determine the UPDATE SET-clause columns to capture a reversible " ++
        "pre-image (fail-closed; S5 #75): " ++ e))
  | .delete => onSession backendError (server.columnsOf relation)

/-- The result with the written columns an `UPDATE` declares. -/
def declareColumns (kind : WriteKind) (written : List CapturedRow) (imageCols : List String) :
    ForwardResult :=
  match kind with
  | .update => { ForwardResult.new written with writtenColumns := imageCols }
  | .delete => ForwardResult.new written

@[simp] theorem declareColumns_written (kind : WriteKind) (written : List CapturedRow)
    (imageCols : List String) : (declareColumns kind written imageCols).written = written := by
  cases kind <;> rfl

@[simp] theorem declareColumns_cascadeRows (kind : WriteKind) (written : List CapturedRow)
    (imageCols : List String) (relation : String) :
    (declareColumns kind written imageCols).cascadeRows relation = [] := by
  cases kind <;> simp [declareColumns, ForwardResult.new, ForwardResult.cascadeRows]

/-- The text of the write as it is sent. -/
def sentText (forwardSql : String) : String := forwardSql ++ " RETURNING id"

/-- `apply_forward`. -/
def applyForward [Sql] (server : Server) (forwardSql whereSql : String) (kind : WriteKind)
    (relation : String) : Eff ApplyAdapter ApplyError ForwardResult := do
  let imageCols ← imageColumns server forwardSql kind relation
  let rows ← query (server.selectForUpdate (selectColumns imageCols) relation whereSql)
  let preimage ← Eff.lift (collectPreimages relation (selectColumns imageCols) ∅ rows)
  let returned ← query (server.write (sentText forwardSql))
  let written ← Eff.lift (captureWritten relation preimage returned)
  pure (declareColumns kind written imageCols)

def commitApply : Eff ApplyAdapter ApplyError Unit := do
  onSession backendError commitXact
  remember fun a => { a with inTxn := false }

def rollbackApply : Eff ApplyAdapter ApplyError Unit := fun a =>
  if a.inTxn then (.ok (), { a with session := (rollbackXact a.session).2, inTxn := false })
  else (.ok (), a)

/-- `PgApplyConn::new(client, forward_sql, where_sql)` as the engine's seam. -/
def pgApplyConn [Sql] (server : Server) (forwardSql whereSql : String) :
    ApplyConn ApplyAdapter where
  createRestorePoint label := onSession backendError fun s => (server.createRestorePoint label, s)
  begin := beginApply server
  xactWalBytes := xactWalBytes server
  selfDeterminedPkColumn relation a :=
    (if relation = server.schema.relation then some keyColumn else none, a)
  applyForward kind relation _ := applyForward server forwardSql whereSql kind relation
  xactTupleDeltas := xactTupleDeltas server
  commit := commitApply
  rollback := rollbackApply

/-! ## The revert adapter -/

/-- `PgRevertConn`. -/
structure RevertAdapter where
  session : Session
  inTxn : Bool

def RevertAdapter.new (session : Session) : RevertAdapter := ⟨session, false⟩

/-- Run a statement on the session of the adapter. -/
def restoring (m : Eff Session ServerError α) : Eff RevertAdapter RevertError α := fun a =>
  ((m a.session).1.mapError fun e => .backend e.toString, { a with session := (m a.session).2 })

/-- `pk_int`. -/
def pkInt (row : RevertRow) : Except RevertError Int :=
  match row.pk.values.head row.pk.nonempty with
  | .int k => .ok k
  | other => .error (.backend ("bad pk " ++ other.debug))

/-- The columns of a row that a restore sets. -/
def restoredCells (row : RevertRow) : Image := row.beforeImage.filter fun cell => cell.1 ≠ "id"

/-- The loop of a restore over its rows, with the sum of what they restored. -/
def forRows (body : RevertRow → Eff RevertAdapter RevertError Nat) :
    List RevertRow → Eff RevertAdapter RevertError Nat
  | [] => pure 0
  | row :: rows => do
      let one ← body row
      let n ← forRows body rows
      pure (one + n)

/-- One `UPDATE` of a revert. -/
def restoreUpdateRow (server : Server) (relation : String) (row : RevertRow) :
    Eff RevertAdapter RevertError Nat := do
  let k ← Eff.lift (pkInt row)
  if (restoredCells row).isEmpty then
    Eff.fail (.backend ("inverse row for `" ++ relation ++ "` id=" ++ toString k ++
      " has no non-PK pre-image columns to restore (S5 #75: a reversible UPDATE must " ++
      "capture every written column)"))
  else restoring (server.updateById relation (restoredCells row) k)

/-- One `INSERT` of a revert. -/
def restoreInsertRow (server : Server) (relation : String) (row : RevertRow) :
    Eff RevertAdapter RevertError Nat :=
  if row.beforeImage.isEmpty then
    Eff.fail (.backend ("inverse row for `" ++ relation ++
      "` has no pre-image columns to re-insert"))
  else restoring (server.insertRow relation row.beforeImage)

/-- `restore_update`. -/
def restoreUpdate (server : Server) (relation : String) :
    List RevertRow → Eff RevertAdapter RevertError Nat :=
  forRows (restoreUpdateRow server relation)

/-- `restore_insert`. -/
def restoreInsert (server : Server) (relation : String) :
    List RevertRow → Eff RevertAdapter RevertError Nat :=
  forRows (restoreInsertRow server relation)

def beginRevert : Eff RevertAdapter RevertError Unit := fun a =>
  match beginXact a.session with
  | (.ok (), s) => (.ok (), ⟨s, true⟩)
  | (.error e, s) => (.error (.backend e.toString), { a with session := s })

def commitRevert : Eff RevertAdapter RevertError Unit := fun a =>
  match commitXact a.session with
  | (.ok (), s) => (.ok (), ⟨s, false⟩)
  | (.error e, s) => (.error (.backend e.toString), { a with session := s })

def rollbackRevert : Eff RevertAdapter RevertError Unit := fun a =>
  if a.inTxn then (.ok (), ⟨(rollbackXact a.session).2, false⟩) else (.ok (), a)

/-- `PgRevertConn` as the engine's seam. -/
def pgRevertConn (server : Server) : RevertConn RevertAdapter where
  begin := beginRevert
  restoreUpdate := restoreUpdate server
  restoreInsert := restoreInsert server
  commit := commitRevert
  rollback := rollbackRevert

end PgBrakes.Ports.PgConn
