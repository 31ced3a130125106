import PgBrakes.Ports.PgConn
import PgBrakes.Ports.InverseShape

/-!
# What a committed apply leaves behind

The guarded apply over `PgApplyConn`, from an idle session: what it read, what it
wrote, and the inverse it returned.

## Main results

* `applyForward_ok` — the forward step of a run that was not refused.
* `apply_ok` — a guarded apply that returned Ok has committed the table its
  statement makes, and its inverse holds one pre-image for each returned key.
-/

namespace PgBrakes.Ports.PgApplyRun

open PgBrakes.Verified.Effect
open PgBrakes.Verified.KeyedTable
open PgBrakes.Verified.MachineWord
open PgBrakes.Ports.KeyChecksum
open PgBrakes.Ports.TypedInverse
open PgBrakes.Ports.BlastRecord
open PgBrakes.Ports.GuardedApply
open PgBrakes.Ports.GuardedApplyRun
open PgBrakes.Ports.InverseShape
open PgBrakes.Ports.SqlAst
open PgBrakes.Ports.PgRehearsal
open PgBrakes.Ports.PgTable
open PgBrakes.Ports.PgConn

variable {α : Type}

/-! ## The session -/

/-- A statement of an open transaction that did not fail. -/
theorem inXact_ok {f : Xact → Except ServerError (α × Xact)} {s s' : Session} {x : Xact} {a : α}
    (hopen : s.xact = some x) (hlive : x.aborted = false) (h : inXact f s = (.ok a, s')) :
    ∃ x', f x = .ok (a, x') ∧ s' = { s with xact := some x' } := by
  unfold inXact at h
  rw [hopen] at h
  simp only [hlive, Bool.false_eq_true, if_false] at h
  rcases hf : f x with e | ⟨a', x'⟩
  · simp [hf] at h
  · simp only [hf, Prod.mk.injEq, Except.ok.injEq] at h
    obtain ⟨rfl, rfl⟩ := h
    exact ⟨x', rfl, rfl⟩

theorem onSession_ok {g : ServerError → ApplyError} {m : Eff Session ServerError α}
    {a a' : ApplyAdapter} {v : α} (h : onSession g m a = (.ok v, a')) :
    ∃ s, m a.session = (.ok v, s) ∧ a' = { a with session := s } := by
  unfold onSession at h
  rcases hm : m a.session with ⟨e | v', s⟩
  · simp [hm, Except.mapError] at h
  · simp only [hm, Except.mapError, Prod.mk.injEq, Except.ok.injEq] at h
    obtain ⟨rfl, rfl⟩ := h
    exact ⟨s, rfl, rfl⟩

/-- The adapter inside its transaction: what is committed, and what it sees. -/
structure Inside (a : ApplyAdapter) (committed table : Table) (counts : OpCounts) : Prop where
  session : a.session = ⟨committed, some ⟨table, counts, false⟩⟩

/-- A statement of the adapter's transaction that did not fail. -/
theorem query_ok {f : Xact → Except ServerError (α × Xact)} {g : ServerError → ApplyError}
    {a a' : ApplyAdapter} {v : α} {committed table : Table} {counts : OpCounts}
    (hinside : Inside a committed table counts) (h : onSession g (inXact f) a = (.ok v, a')) :
    ∃ x', f ⟨table, counts, false⟩ = .ok (v, x') ∧
      a' = { a with session := ⟨committed, some x'⟩ } := by
  obtain ⟨s, hs, rfl⟩ := onSession_ok h
  rw [hinside.session] at hs
  obtain ⟨x', hx', rfl⟩ := inXact_ok rfl rfl hs
  exact ⟨x', hx', rfl⟩

/-! ## The forward step -/

/-- The forward step: what it captured, with the meaning of the text it sent and
what that did to the table. -/
structure Forwarded [Sql] (server : Server) (forwardSql : String) (kind : WriteKind)
    (table : Table) (forward : ForwardResult) (imageCols : List String) (m : Meaning)
    (written : Written) (images : Int → Image) (keys : List Int) : Prop where
  /-- The captured columns: the assigned ones, or all. -/
  assigned : kind = .update → updateSetColumns forwardSql = .ok imageCols
  whole : kind = .delete → imageCols = server.schema.columns
  known : ∀ c ∈ selectColumns imageCols, server.schema.hasColumn c = true
  meaning : server.meaning (sentText forwardSql) = .ok m
  ran : m.run server.schema server.scan table = .ok written
  returned : written.returned = keys.map some
  pictured : ∀ k ∈ keys, ∃ r, table[k]? = some r ∧
    Pictures (selectColumns imageCols) k r (images k)
  result : forward =
    declareColumns kind (keys.map fun k => ⟨.single (.int k), images k⟩) imageCols

private theorem imageColumns_ok [Sql] {server : Server} {forwardSql : String} {kind : WriteKind}
    {relation : String} {a a' : ApplyAdapter} {imageCols : List String}
    {committed table : Table} {counts : OpCounts} (hinside : Inside a committed table counts)
    (h : imageColumns server forwardSql kind relation a = (.ok imageCols, a')) :
    (kind = .update → updateSetColumns forwardSql = .ok imageCols) ∧
      (kind = .delete → relation = server.schema.relation →
        imageCols = server.schema.columns) ∧ Inside a' committed table counts ∧
      a'.xactBaseline = a.xactBaseline := by
  cases kind with
  | update =>
      have hlift := congrArg Prod.fst h
      have hstate := congrArg Prod.snd h
      simp only [imageColumns, Eff.lift_apply] at hlift hstate
      subst hstate
      refine ⟨fun _ => ?_, by simp, hinside, rfl⟩
      rcases hcols : updateSetColumns forwardSql with e | cols
      · simp [hcols, Except.mapError] at hlift
      · simpa [hcols, Except.mapError] using hlift
  | delete =>
      obtain ⟨x', hx', rfl⟩ := query_ok hinside h
      cases hx'
      refine ⟨by simp, fun _ hrel => ?_, ⟨rfl⟩, rfl⟩
      rw [if_pos hrel]

/-- The pre-image query answers with the selected columns of rows of the table. -/
private theorem selectForUpdate_ok {server : Server} {columns : List String}
    {relation text : String} {a a' : ApplyAdapter} {rows : List (List Cell)}
    {committed table : Table} {counts : OpCounts} (hinside : Inside a committed table counts)
    (h : query (server.selectForUpdate columns relation text) a = (.ok rows, a')) :
    relation = server.schema.relation ∧ (∀ c ∈ columns, server.schema.hasColumn c = true) ∧
      (∃ p, rows = (selected table p).map fun row => columns.map (cellAt row.1 row.2)) ∧
      Inside a' committed table counts ∧ a'.xactBaseline = a.xactBaseline := by
  obtain ⟨x', hx', rfl⟩ := query_ok hinside h
  split at hx'
  · cases hx'
  next hknows =>
    split at hx'
    · cases hx'
    next p _ =>
      split at hx'
      · cases hx'
      · cases hx'
        have hall := Schema.knows_ok_iff.mp hknows
        exact ⟨hall.1, hall.2.1, ⟨p, rfl⟩, ⟨rfl⟩, rfl⟩

/-- The write leaves the table its meaning makes. -/
private theorem write_ok {server : Server} {text : String} {a a' : ApplyAdapter}
    {returned : List (Option Int)} {committed table : Table} {counts : OpCounts}
    (hinside : Inside a committed table counts)
    (h : query (server.write text) a = (.ok returned, a')) :
    ∃ m written, server.meaning text = .ok m ∧
      m.run server.schema server.scan table = .ok written ∧ returned = written.returned ∧
      Inside a' committed written.table (addCounts counts written.counts) ∧
      a'.xactBaseline = a.xactBaseline := by
  obtain ⟨x', hx', rfl⟩ := query_ok hinside h
  split at hx'
  · cases hx'
  next m hm =>
    split at hx'
    · cases hx'
    split at hx'
    · cases hx'
    next written hwritten =>
      cases hx'
      exact ⟨m, written, hm, hwritten, rfl, ⟨rfl⟩, rfl⟩

/-- The forward step of a run that was not refused. -/
theorem applyForward_ok [Sql] {server : Server} {forwardSql whereSql : String} {kind : WriteKind}
    {relation : String} {a a' : ApplyAdapter} {forward : ForwardResult}
    {committed table : Table} {counts : OpCounts} (hinside : Inside a committed table counts)
    (h : applyForward server forwardSql whereSql kind relation a = (.ok forward, a')) :
    relation = server.schema.relation ∧ ∃ imageCols m written images keys,
      Forwarded server forwardSql kind table forward imageCols m written images keys ∧
        Inside a' committed written.table (addCounts counts written.counts) ∧
        a'.xactBaseline = a.xactBaseline := by
  unfold applyForward at h
  obtain ⟨imageCols, a₁, hcols, h⟩ := Eff.bind_ok_iff.mp h
  obtain ⟨rows, a₂, hrows, h⟩ := Eff.bind_ok_iff.mp h
  obtain ⟨preimage, a₃, hpreimage, h⟩ := Eff.bind_ok_iff.mp h
  obtain ⟨returned, a₄, hreturned, h⟩ := Eff.bind_ok_iff.mp h
  obtain ⟨captured, a₅, hcaptured, h⟩ := Eff.bind_ok_iff.mp h
  obtain ⟨hassigned, hwhole, hinside₁, hbase₁⟩ := imageColumns_ok hinside hcols
  obtain ⟨hrelation, hknown, ⟨p, hselected⟩, hinside₂, hbase₂⟩ :=
    selectForUpdate_ok hinside₁ hrows
  simp only [Eff.lift_apply, Prod.mk.injEq] at hpreimage hcaptured
  obtain ⟨hcollect, rfl⟩ := hpreimage
  obtain ⟨m, written, hmeaning, hran, rfl, hinside₄, hbase₄⟩ := write_ok hinside₂ hreturned
  obtain ⟨hcapture, rfl⟩ := hcaptured
  obtain ⟨keys, hkeys, hmem, rfl⟩ := captureWritten_ok hcapture
  cases h
  refine ⟨hrelation, imageCols, m, written, fun k => preimage.getD k [], keys, ?_, hinside₄,
    hbase₄.trans (hbase₂.trans hbase₁)⟩
  rw [hselected] at hcollect
  refine ⟨hassigned, fun hkind => hwhole hkind hrelation, hknown, hmeaning, hran, hkeys, ?_,
    rfl⟩
  intro k hk
  obtain ⟨image, himage⟩ := Option.isSome_iff_exists.mp
    (Std.TreeMap.mem_iff_isSome_getElem?.mp (hmem k hk))
  have himages : preimage.getD k [] = image := by
    rw [Std.TreeMap.getD_eq_getD_getElem?, himage]
    rfl
  rcases collectPreimages_get (selectColumns_key imageCols) hcollect himage with
    hempty | ⟨r, hrow, hpictures⟩
  · simp at hempty
  · exact ⟨r, (mem_selected.mp hrow).1, himages ▸ hpictures⟩

/-- The inverse of what was captured: one row for each returned key. -/
theorem inverse_rows [Sql] {server : Server} {forwardSql : String} {kind : WriteKind}
    {table : Table} {forward : ForwardResult} {imageCols : List String} {m : Meaning}
    {written : Written} {images : Int → Image} {keys : List Int}
    (h : Forwarded server forwardSql kind table forward imageCols m written images keys)
    (predicted : PredictedBlastRadius) :
    (buildInverse kind server.schema.relation predicted forward).rows =
      keys.map fun k => ⟨.single (.int k), images k⟩ := by
  have hcascades : cascadeInverseRows predicted forward = [] := by
    unfold cascadeInverseRows
    rw [List.flatMap_eq_nil_iff]
    intro rel _
    rw [h.result, declareColumns_cascadeRows]
    rfl
  rw [buildInverse_eq]
  simp only
  rw [hcascades, h.result, declareColumns_written, List.append_nil, List.map_map]
  rfl

/-! ## The steps around it -/

/-- The tuple counters at the start of a transaction. -/
def freshBaseline (server : Server) : Std.TreeMap String OpCounts :=
  Std.TreeMap.ofList [(server.schema.relation, (⟨0, 0, 0⟩ : OpCounts))]

/-- `BEGIN` and the two baselines, from an idle session. -/
theorem beginApply_ok {server : Server} {timeoutMs : Nat} {a a' : ApplyAdapter} {table : Table}
    (hidle : a.session = ⟨table, none⟩) (h : beginApply server timeoutMs a = (.ok (), a')) :
    Inside a' table table ⟨0, 0, 0⟩ ∧
      a'.xactBaseline = freshBaseline server := by
  unfold beginApply at h
  obtain ⟨_, a₁, hbegin, h⟩ := Eff.bind_ok_iff.mp h
  obtain ⟨_, a₂, hnoted, h⟩ := Eff.bind_ok_iff.mp h
  obtain ⟨baseline, a₃, hbaseline, h⟩ := Eff.bind_ok_iff.mp h
  obtain ⟨_, a₄, hkept, h⟩ := Eff.bind_ok_iff.mp h
  obtain ⟨lsn, a₅, hlsn, h⟩ := Eff.bind_ok_iff.mp h
  obtain ⟨s, hs, rfl⟩ := onSession_ok hbegin
  rw [hidle] at hs
  cases hs
  cases hnoted
  obtain ⟨rows, a₃', hrows, hpure⟩ := Eff.bind_ok_iff.mp hbaseline
  have hinside : Inside { a with
      session := ⟨table, some ⟨table, ⟨0, 0, 0⟩, false⟩⟩
      inTxn := true
      statementTimeoutMs := timeoutMs } table table ⟨0, 0, 0⟩ := ⟨rfl⟩
  obtain ⟨x', hx', rfl⟩ := query_ok hinside hrows
  cases hx'
  cases hpure
  cases hkept
  obtain ⟨s, hs, rfl⟩ := onSession_ok hlsn
  have hsame : s = ⟨table, some ⟨table, ⟨0, 0, 0⟩, false⟩⟩ := (congrArg Prod.snd hs).symm
  subst hsame
  cases h
  exact ⟨⟨rfl⟩, rfl⟩

/-- The tuple counters: nothing, or one change of the target. -/
theorem xactTupleDeltas_ok {server : Server} {a a' : ApplyAdapter} {deltas : List RelationChange}
    {committed table : Table} {counts : OpCounts} (hinside : Inside a committed table counts)
    (hbase : a.xactBaseline = freshBaseline server)
    (h : xactTupleDeltas server a = (.ok deltas, a')) :
    Inside a' committed table counts ∧
      deltas = if counts.ins + counts.upd + counts.del = 0 then [] else
        [⟨server.schema.relation, counts.ins, counts.upd, counts.del⟩] := by
  unfold xactTupleDeltas at h
  obtain ⟨after, a₁, hafter, h⟩ := Eff.bind_ok_iff.mp h
  obtain ⟨rows, a₂, hrows, hpure⟩ := Eff.bind_ok_iff.mp hafter
  obtain ⟨x', hx', rfl⟩ := query_ok hinside hrows
  cases hx'
  cases hpure
  cases h
  refine ⟨⟨rfl⟩, ?_⟩
  have hlist : (Std.TreeMap.ofList [(server.schema.relation, counts)]).toList =
      [(server.schema.relation, counts)] := rfl
  have hbefore : (freshBaseline server).getD server.schema.relation {} = ⟨0, 0, 0⟩ := by
    simp [freshBaseline, Std.TreeMap.getD_eq_getD_getElem?]
  rw [hlist, hbase]
  simp only [List.filterMap_cons, List.filterMap_nil, hbefore, Nat.sub_zero]
  by_cases hzero : counts.ins + counts.upd + counts.del = 0
  · rw [if_pos hzero, if_pos hzero]
  · rw [if_neg hzero, if_neg hzero]

theorem xactWalBytes_ok {server : Server} {a a' : ApplyAdapter} {bytes : Nat}
    {committed table : Table} {counts : OpCounts} (hinside : Inside a committed table counts)
    (h : xactWalBytes server a = (.ok bytes, a')) : Inside a' committed table counts := by
  unfold xactWalBytes at h
  split at h
  · cases h
  · obtain ⟨after, a₁, hafter, h⟩ := Eff.bind_ok_iff.mp h
    obtain ⟨s, hs, rfl⟩ := onSession_ok hafter
    have hsame : s = a.session := (congrArg Prod.snd hs).symm
    subst hsame
    cases h
    exact hinside

theorem commitApply_ok {a a' : ApplyAdapter} {committed table : Table} {counts : OpCounts}
    (hinside : Inside a committed table counts) (h : commitApply a = (.ok (), a')) :
    a'.session = ⟨table, none⟩ := by
  unfold commitApply at h
  obtain ⟨_, a₁, hcommit, h⟩ := Eff.bind_ok_iff.mp h
  obtain ⟨s, hs, rfl⟩ := onSession_ok hcommit
  rw [hinside.session] at hs
  cases hs
  cases h
  rfl

/-! ## The whole apply -/

/-- The arguments of a guarded apply that do not come from its statement. -/
structure Request where
  proposalId : String
  dryRun : BlastRadius
  cap : WriteCap
  pitr : PitrConfig
  now : Nat

/-- `guarded_apply` of a statement over `PgApplyConn`, with the production
barrier. -/
def invocation [Sql] (server : Server) (forwardSql whereSql : String) (kind : WriteKind)
    (q : Request) : Invocation ApplyAdapter :=
  { proposalId := q.proposalId
    kind := kind
    relation := server.schema.relation
    dryRun := q.dryRun
    cap := q.cap
    pitr := q.pitr
    conn := pgApplyConn server forwardSql whereSql
    barrier := .noop
    clock := ⟨fun a => (q.now, a), fun a => (q.now, a)⟩ }

/-- The restore point does not touch the table. -/
private theorem fenced_eq [Sql] {server : Server} {forwardSql whereSql : String}
    {q : Request} {a fenced : ApplyAdapter} {fence : RecoveryFence} {calls : List ApplyCall}
    (h : recoveryFence q.proposalId q.pitr (pgApplyConn server forwardSql whereSql)
      ⟨fun a => (q.now, a), fun a => (q.now, a)⟩ ⟨a, []⟩ = (.ok fence, ⟨fenced, calls⟩)) :
    fenced.session = a.session := by
  unfold recoveryFence at h
  split at h
  · obtain ⟨now, s₁, hnow, h⟩ := Eff.bind_ok_iff.mp h
    obtain ⟨lsn, s₂, hlsn, h⟩ := Eff.bind_ok_iff.mp h
    cases hnow
    have hworld := (perform_eq_iff.mp hlsn).2
    subst hworld
    cases h
    rfl
  · cases h
    rfl

/-- The rows a `DELETE` took have at least as many captured pre-images. -/
private theorem deleted_le_captured {relation : String} {forward : ForwardResult}
    {counts : OpCounts}
    (h : assertReversiblePreimageCoverage relation forward
      (if counts.ins + counts.upd + counts.del = 0 then [] else
        [⟨relation, counts.ins, counts.upd, counts.del⟩]) = .ok ()) :
    counts.del ≤ forward.written.length := by
  split at h
  · next hzero => omega
  · next hpos =>
      simp only [assertReversiblePreimageCoverage, coverChange, capturedFor] at h
      by_contra hless
      have htotal : ¬ RelationChange.total ⟨relation, counts.ins, counts.upd, counts.del⟩ =
          0 := by
        unfold RelationChange.total satAdd u64Max
        simp only
        omega
      have hdel : counts.del > 0 ∧ forward.written.length < counts.del := by omega
      rw [if_neg htotal] at h
      simp [hdel] at h

/-- A guarded apply that returned Ok has committed the table its statement makes,
and returned the inverse of what it captured. -/
theorem apply_ok [Sha256] [Sql] {server : Server} {forwardSql whereSql : String}
    {kind : WriteKind} {q : Request} {table : Table} {applied : AppliedWrite}
    {s' : Logged ApplyAdapter ApplyCall}
    (h : (invocation server forwardSql whereSql kind q).run ⟨.new ⟨table, none⟩, []⟩ =
      (.ok applied, s')) :
    ∃ forward imageCols m written images keys predicted,
      Forwarded server forwardSql kind table forward imageCols m written images keys ∧
      s'.world.session = ⟨written.table, none⟩ ∧
      applied.inverse = buildInverse kind server.schema.relation predicted forward ∧
      server.schema.relation ∉ cascadeNames predicted ∧
      assertWrittenColumnCoverage kind server.schema.relation forward = .ok () ∧
      written.counts.del ≤ keys.length := by
  rcases run_cases (invocation server forwardSql whereSql kind q) ⟨.new ⟨table, none⟩, []⟩ with
    ⟨e, w', es, hrun, -⟩ | ⟨e, w', before, body, answer, hrun, -, -⟩ | ⟨t, ht⟩
  · rw [hrun] at h
    cases h
  · rw [hrun] at h
    cases h
  have hfenced : t.fenced.session = ⟨table, none⟩ := fenced_eq ht.fence
  obtain ⟨hopened, hbase⟩ := beginApply_ok hfenced ht.begun
  obtain ⟨-, imageCols, m, written, images, keys, hforward, hwritten, hbase'⟩ :=
    applyForward_ok hopened ht.forward
  obtain ⟨hmeasured, hdeltas⟩ := xactTupleDeltas_ok hwritten (hbase'.trans hbase) ht.deltas
  have hfinal := xactWalBytes_ok hmeasured ht.walBytes
  have hend := run_of_commitPoint ht []
  rw [hend] at h
  rcases hcommit : (invocation server forwardSql whereSql kind q).conn.commit t.final with
    ⟨e | ⟨⟩, committed⟩
  · rw [hcommit] at h
    cases h
  rw [hcommit] at h
  have hresult := congrArg Prod.fst h
  have hworld := congrArg (fun out => out.2.world.session) h
  simp only [Transcript.result] at hresult hworld
  split at hresult
  · cases hresult
  cases hresult
  refine ⟨t.forward, imageCols, m, written, images, keys, t.predicted, hforward, ?_, rfl,
    target_notMem_cascades (fromGrant_of_preflight ht.preflight), ht.columns, ?_⟩
  · rw [← hworld]
    exact commitApply_ok hfinal hcommit
  · have hcovered := ht.covered
    rw [hdeltas] at hcovered
    have hle := deleted_le_captured hcovered
    have hlength : t.forward.written.length = keys.length := by
      rw [hforward.result, declareColumns_written, List.length_map]
    have hcounts : (addCounts ⟨0, 0, 0⟩ written.counts).del = written.counts.del :=
      Nat.zero_add _
    omega

end PgBrakes.Ports.PgApplyRun
