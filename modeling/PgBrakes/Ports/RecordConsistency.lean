import PgBrakes.Verified.KeyedTable
import PgBrakes.Ports.DryRun

/-!
# What a dry-run record adds up to

A record carries the same footprint several times: as row counts by table, as
operation counts by table, and as one total.  Two modules read it.  The cap a
ticket is opened with is sized from the totals, and the guarded apply compares
the cap with the same totals again.

Most of the additions saturate.  The two sums over the row counts do not, and
they are what a record without a measured footprint falls back to.  A build with
overflow checks stops there, and one without them wraps; `Profile` says which.

The record is folded from a list of measured tables into maps.  A relation that
comes twice is added to the total twice and kept in the maps once.

## Main results

* `capAdmits_iff` — the suggested cap admits the measured write, with no sum
  overflowing, exactly when a footprint was measured or the row counts fit.
* `consistent_iff` — the measurements whose record is consistent.
-/

namespace PgBrakes.Ports.RecordConsistency

open PgBrakes.Verified.KeyedTable
open PgBrakes.Verified.MachineWord
open PgBrakes.Ports.KeyChecksum
open PgBrakes.Ports.BlastRecord
open PgBrakes.Ports.GuardedApply
open PgBrakes.Ports.DryRun

/-! ## The totals of a record with overflow checks -/

/-- The row counts of the record fit a `u64` table by table. -/
def RowCountsFit (r : BlastRadius) : Prop :=
  r.affected.byTable.values.sum ≤ u64Max ∧ r.affected.cascadeByTable.values.sum ≤ u64Max

/-- Where the sums fit, checking them changes nothing; elsewhere the program
stops. -/
theorem computedTotalRowsIn_of_fits {r : BlastRadius} (h : RowCountsFit r) :
    r.computedTotalRowsIn .checked = some r.computedTotalRows := by
  have hsame : r.computedTotalRowsIn .checked = r.computedTotalRowsIn .wrapping := by
    unfold BlastRadius.computedTotalRowsIn
    simp only [plainSum_of_le h.1, plainSum_of_le h.2]
  rw [hsame, BlastRadius.computedTotalRows, BlastRadius.computedTotalRowsIn_wrapping,
    Option.getD_some]

theorem computedTotalRowsIn_of_not_fits {r : BlastRadius} (h : ¬ RowCountsFit r) :
    r.computedTotalRowsIn .checked = none := by
  rw [BlastRadius.computedTotalRowsIn, plainSum_checked, plainSum_checked]
  by_cases hdirect : r.affected.byTable.values.sum ≤ u64Max
  · rw [if_pos hdirect, if_neg (fun hcascade => h ⟨hdirect, hcascade⟩)]
  · rw [if_neg hdirect]

/-! ## The suggested cap -/

/-- The headroom never takes anything off a base that is a `u64`. -/
theorem le_withHeadroom (headroom : Headroom) {base : Nat} (h : base ≤ u64Max) :
    base ≤ headroom.withHeadroom base := by
  unfold Headroom.withHeadroom
  split
  · exact h
  · exact Nat.le_min.mpr ⟨Nat.le_add_right _ _, h⟩

theorem predictedTotalTuples_of_measured {r : BlastRadius} (h : r.measuredTuples ≠ 0)
    (profile : Profile) : r.predictedTotalTuplesIn profile = some r.measuredTuples :=
  if_neg h

theorem predictedTotalTuples_of_unmeasured {r : BlastRadius} (h : r.measuredTuples = 0)
    (profile : Profile) : r.predictedTotalTuplesIn profile = r.computedTotalRowsIn profile :=
  if_pos h

theorem predictedTotalTuples_le (r : BlastRadius) : r.predictedTotalTuples ≤ u64Max := by
  unfold BlastRadius.predictedTotalTuples
  by_cases hmeasured : r.measuredTuples = 0
  · rw [predictedTotalTuples_of_unmeasured hmeasured, BlastRadius.computedTotalRowsIn_wrapping]
    exact satAdd_le _ _
  · rw [predictedTotalTuples_of_measured hmeasured]
    exact foldl_satAdd_le (Nat.zero_le _) _

/-- The footprint measures nothing exactly when every relation's counts are
zero. -/
theorem measuredTuples_eq_zero_iff (r : BlastRadius) :
    r.measuredTuples = 0 ↔ ∀ c ∈ r.affected.effectByTable.values, c = {} := by
  rw [BlastRadius.measuredTuples, foldl_satAdd_eq_zero_iff]
  simp only [true_and, List.forall_mem_map]
  refine forall₂_congr fun c _ => ?_
  obtain ⟨ins, upd, del⟩ := c
  rw [OpCounts.total, OpCounts.mk.injEq]
  simp only [satAdd, u64Max]
  omega

theorem measuredTuples_ne_zero_iff (r : BlastRadius) :
    r.measuredTuples ≠ 0 ↔ ∃ c ∈ r.affected.effectByTable.values, c ≠ {} := by
  rw [Ne, measuredTuples_eq_zero_iff]
  push Not
  rfl

/-- The computation of the suggested cap goes through, and what it suggests is at
least what the apply compares it with. -/
def CapAdmits (r : BlastRadius) (headroom : Headroom) : Prop :=
  ∃ cap, r.suggestedCapIn .checked headroom = some cap ∧
    r.predictedTotalTuples ≤ cap.maxRows ∧ r.walBytes ≤ cap.maxWalBytes

/-- A prediction that goes through with the predicted value makes the cap admit
the write. -/
theorem capAdmits_of_checked {r : BlastRadius} {headroom : Headroom}
    (hwal : r.walBytes ≤ u64Max)
    (hchecked : r.predictedTotalTuplesIn .checked = some r.predictedTotalTuples) :
    CapAdmits r headroom := by
  have hbase : max r.predictedTotalTuples 1 ≤ u64Max := by
    have := predictedTotalTuples_le r
    unfold u64Max at this ⊢
    omega
  have hrows : r.predictedTotalTuples ≤ headroom.withHeadroom (max r.predictedTotalTuples 1) :=
    (Nat.le_max_left _ _).trans (le_withHeadroom headroom hbase)
  refine ⟨r.capFor headroom r.predictedTotalTuples, ?_, hrows, le_withHeadroom headroom hwal⟩
  rw [BlastRadius.suggestedCapIn, hchecked, Option.map_some]

/-- The cap admits the measured write without an overflow exactly when some
relation's counts were measured, or the row counts to fall back to fit. -/
theorem capAdmits_iff (r : BlastRadius) (headroom : Headroom) (hwal : r.walBytes ≤ u64Max) :
    CapAdmits r headroom ↔
      (∃ c ∈ r.affected.effectByTable.values, c ≠ {}) ∨ RowCountsFit r := by
  rw [← measuredTuples_ne_zero_iff]
  by_cases hmeasured : r.measuredTuples = 0
  · have hchecked := predictedTotalTuples_of_unmeasured hmeasured .checked
    have hpredicted : r.predictedTotalTuples = r.computedTotalRows := by
      rw [BlastRadius.predictedTotalTuples, predictedTotalTuples_of_unmeasured hmeasured]
      rfl
    rw [or_iff_right (not_not.mpr hmeasured)]
    constructor
    · rintro ⟨cap, hcap, -⟩
      by_contra hfits
      rw [BlastRadius.suggestedCapIn, hchecked, computedTotalRowsIn_of_not_fits hfits] at hcap
      cases hcap
    · intro hfits
      apply capAdmits_of_checked hwal
      rw [hchecked, computedTotalRowsIn_of_fits hfits, hpredicted]
  · refine iff_of_true (capAdmits_of_checked hwal ?_) (.inl hmeasured)
    rw [BlastRadius.predictedTotalTuples, predictedTotalTuples_of_measured hmeasured,
      predictedTotalTuples_of_measured hmeasured, Option.getD_some]

/-- A record of an update of the given rows, with or without a measured
footprint. -/
def radiusOf (byTable : List (String × Nat)) (effects : List (String × OpCounts)) :
    BlastRadius :=
  { proposalId := "p1"
    cloneLsn := "0/1"
    stalenessLsnBytes := 0
    affected :=
      { byTable := .ofList byTable
        cascadeByTable := ∅
        pkSetChecksum := ∅
        effectByTable := .ofList effects
        totalRows := 0 }
    triggersFired := []
    locks := []
    maxLockMode := .rowExclusiveLock
    durationMs := 1
    walBytes := 0
    constraintViolations := []
    reversible := true
    inverseKind := .preimageUpsert
    predicateVolatile := false }

/-- No headroom at all. -/
def noHeadroom : Headroom := ⟨fun _ => some 0⟩

theorem capAdmits_iff_measured :
    CapAdmits (radiusOf [("public.accounts", 2)] [("public.accounts", ⟨0, 2, 0⟩)])
      noHeadroom := by
  refine (capAdmits_iff _ noHeadroom (Nat.zero_le _)).mpr (.inl ⟨⟨0, 2, 0⟩, ?_, by decide⟩)
  decide

/-- Two tables with more rows than a `u64` counts, in a record without a measured
footprint. -/
theorem fallback_overflows :
    ¬ CapAdmits (radiusOf [("public.a", u64Max), ("public.b", 1)] []) noHeadroom := by
  rintro ⟨cap, hcap, -⟩
  have hnone : (radiusOf [("public.a", u64Max), ("public.b", 1)] []).suggestedCapIn .checked
      noHeadroom = none := by
    decide
  rw [hnone] at hcap
  cases hcap

/-! ## The record in closed form -/

/-- The measured rows of a table, and its checksum as the record carries it. -/
def rowEntry (t : AffectedTable) : String × Nat := (t.relation, t.rows)

def checksumEntry (t : AffectedTable) : String × String :=
  (t.relation, match t.checksum with
    | some checksum => checksum.asPrefixed
    | none => "")

/-- The operation counts the footprint is made of: the measured ones, or those of
the target and the cascades. -/
def measuredEffects (kind : WriteKind) (m : Measurement) : List (String × OpCounts) :=
  if m.fullEffect.isEmpty then
    (m.target :: m.cascades).map fun t => (t.relation, WriteKind.opCounts kind t.rows)
  else
    m.fullEffect.map fun e => (e.relation, e.counts)

theorem absorbCascades_eq {cs : List AffectedTable}
    {acc acc' : Std.TreeMap String Nat × Std.TreeMap String String × Nat}
    (h : absorbCascades cs acc = .ok acc') :
    acc' = (putAll acc.1 (cs.map rowEntry), putAll acc.2.1 (cs.map checksumEntry),
      (cs.map (·.rows)).foldl satAdd acc.2.2) := by
  induction cs generalizing acc with
  | nil =>
      cases h
      rfl
  | cons c cs ih =>
      unfold absorbCascades at h
      split at h
      · cases h
      · next checksum hchecksum =>
          rw [ih h]
          simp only [List.map_cons, checksumEntry, hchecksum]
          rfl

theorem effectByTable_eq (kind : WriteKind) (m : Measurement) :
    effectByTable kind m = putAll ∅ (measuredEffects kind m) := by
  unfold effectByTable measuredEffects
  split
  · rw [putAll, List.foldl_map]
    rfl
  · rw [putAll, List.foldl_map]

/-- The maps and the total of an assembled record, in closed form. -/
theorem assemble_eq {proposal : Proposal} {kind : WriteKind} {m : Measurement}
    {r : BlastRadius} (h : assemble proposal kind m = .ok r) :
    r.affected =
      { byTable := putAll ∅ [rowEntry m.target]
        cascadeByTable := putAll ∅ (m.cascades.map rowEntry)
        pkSetChecksum := putAll ∅ ((m.target :: m.cascades).map checksumEntry)
        effectByTable := putAll ∅ (measuredEffects kind m)
        totalRows := (m.cascades.map (·.rows)).foldl satAdd m.target.rows } := by
  unfold assemble at h
  split at h
  · cases h
  · next checksum hchecksum =>
      split at h
      · cases h
      · next habsorb =>
          cases h
          have hclosed := absorbCascades_eq habsorb
          simp only [Prod.mk.injEq] at hclosed
          obtain ⟨hrows, hsums, htotal⟩ := hclosed
          rw [hrows, hsums, htotal, effectByTable_eq, List.map_cons]
          simp only [checksumEntry, hchecksum]
          rfl

/-! ## Consistency -/

/-- The record agrees with itself and with the measurement it was assembled
from, and the apply takes it. -/
structure Consistent (kind : WriteKind) (m : Measurement) (r : BlastRadius) : Prop where
  total : r.affected.totalRows = r.computedTotalRows
  /-- The target and every cascade have the checksum of their own rows. -/
  checksums : ∀ t ∈ m.target :: m.cascades, ∃ checksum, t.checksum = some checksum ∧
    r.affected.pkSetChecksum[t.relation]? = some checksum.asPrefixed
  /-- The maps hold the measured counts, each of them once. -/
  targetCount : r.affected.byTable.toList.Perm [rowEntry m.target]
  cascadeCounts : r.affected.cascadeByTable.toList.Perm (m.cascades.map rowEntry)
  effects : r.affected.effectByTable.toList.Perm (measuredEffects kind m)
  target : m.target.relation ∈ r.affected.effectByTable
  accepted : ∃ predicted, PredictedBlastRadius.fromGrant r m.target.relation = .ok predicted

/-- The rows of all cascades together. -/
def cascadeRows (m : Measurement) : Nat := (m.cascades.map (·.rows)).sum

/-- No relation is measured twice where the record keeps it once, the footprint
has the target, and the cascades' rows fit a `u64`. -/
structure Unambiguous (kind : WriteKind) (m : Measurement) : Prop where
  cascades : (m.cascades.map (·.relation)).Nodup
  effects : ((measuredEffects kind m).map Prod.fst).Nodup
  /-- A cascade onto the target itself writes over its checksum. -/
  selfReference : ∀ c ∈ m.cascades, c.relation = m.target.relation →
    c.checksum = m.target.checksum
  target : m.target.relation ∈ (measuredEffects kind m).map Prod.fst
  /-- The plain sum wraps; where the saturated total is reached anyway, that does
  not show. -/
  rows : cascadeRows m ≤ u64Max ∨ u64Max ≤ m.target.rows + cascadeRows m % 2 ^ 64

theorem values_sum_of_perm {t : Std.TreeMap String Nat} {rows : List (String × Nat)}
    (h : t.toList.Perm rows) : t.values.sum = (rows.map Prod.snd).sum := by
  rw [values_eq_map_snd]
  exact (h.map Prod.snd).sum_nat

/-- Where the maps hold what was measured, the total adds up exactly when the
cascades' rows fit, or saturate the total either way. -/
theorem total_iff {m : Measurement} {byTable cascadeByTable : Std.TreeMap String Nat}
    (hrows : m.target.rows ≤ u64Max) (htarget : byTable.toList.Perm [rowEntry m.target])
    (hcascades : cascadeByTable.toList.Perm (m.cascades.map rowEntry)) :
    (m.cascades.map (·.rows)).foldl satAdd m.target.rows =
        satAdd (byTable.values.sum % 2 ^ 64) (cascadeByTable.values.sum % 2 ^ 64) ↔
      cascadeRows m ≤ u64Max ∨ u64Max ≤ m.target.rows + cascadeRows m % 2 ^ 64 := by
  have hdirect : byTable.values.sum = m.target.rows := by
    rw [values_sum_of_perm htarget]
    simp [rowEntry]
  have hcascade : cascadeByTable.values.sum = cascadeRows m := by
    rw [values_sum_of_perm hcascades, List.map_map]
    rfl
  rw [hdirect, hcascade, foldl_satAdd_eq _ hrows]
  change min (m.target.rows + cascadeRows m) u64Max = _ ↔ _
  unfold satAdd
  unfold u64Max at hrows ⊢
  omega

theorem asPrefixed_injective {a b : PkChecksum} (h : a.asPrefixed = b.asPrefixed) : a = b := by
  obtain ⟨a⟩ := a
  obtain ⟨b⟩ := b
  unfold PkChecksum.asPrefixed at h
  rw [PkChecksum.mk.injEq]
  have hlist := congrArg String.toList h
  rw [String.toList_append, String.toList_append] at hlist
  exact String.toList_inj.mp (List.append_cancel_left hlist)

theorem checksumEntry_of_some {t : AffectedTable} {checksum : PkChecksum}
    (h : t.checksum = some checksum) : checksumEntry t = (t.relation, checksum.asPrefixed) := by
  rw [checksumEntry, h]

theorem map_fst_checksumEntry (ts : List AffectedTable) :
    (ts.map checksumEntry).map Prod.fst = ts.map (·.relation) := by
  rw [List.map_map]
  rfl

theorem map_fst_rowEntry (ts : List AffectedTable) :
    (ts.map rowEntry).map Prod.fst = ts.map (·.relation) := by
  rw [List.map_map]
  rfl

/-- What the checksum map holds for the target and the cascades, when no two
cascades share a relation: the cascade's own, and the target's unless a cascade
wrote over it. -/
theorem checksums_iff {m : Measurement} (hnodup : (m.cascades.map (·.relation)).Nodup)
    (hkeys : ∀ t ∈ m.target :: m.cascades, t.checksum ≠ none) :
    (∀ t ∈ m.target :: m.cascades, ∃ checksum, t.checksum = some checksum ∧
        (putAll (∅ : Std.TreeMap String String)
          ((m.target :: m.cascades).map checksumEntry))[t.relation]? =
            some checksum.asPrefixed) ↔
      ∀ c ∈ m.cascades, c.relation = m.target.relation → c.checksum = m.target.checksum := by
  have hput : putAll (∅ : Std.TreeMap String String)
      ((m.target :: m.cascades).map checksumEntry) =
        putAll ((∅ : Std.TreeMap String String).insert m.target.relation (checksumEntry m.target).2)
          (m.cascades.map checksumEntry) := rfl
  rw [hput]
  have hnodup' : ((m.cascades.map checksumEntry).map Prod.fst).Nodup := by
    rwa [map_fst_checksumEntry]
  have hcascade : ∀ c ∈ m.cascades, ∀ checksum, c.checksum = some checksum →
      (putAll ((∅ : Std.TreeMap String String).insert m.target.relation
        (checksumEntry m.target).2) (m.cascades.map checksumEntry))[c.relation]? =
          some checksum.asPrefixed := by
    intro c hc checksum hsum
    apply putAll_of_mem _ hnodup'
    rw [← checksumEntry_of_some hsum]
    exact List.mem_map_of_mem hc
  constructor
  · intro h c hc hrel
    obtain ⟨own, hown, hget⟩ := h m.target List.mem_cons_self
    obtain ⟨other, hother, hget'⟩ := h c (List.mem_cons_of_mem _ hc)
    rw [hrel, hget] at hget'
    rw [hown, hother, asPrefixed_injective (Option.some.inj hget')]
  · intro h t ht
    obtain ⟨checksum, hsum⟩ := Option.ne_none_iff_exists'.mp (hkeys t ht)
    refine ⟨checksum, hsum, ?_⟩
    rcases List.mem_cons.mp ht with rfl | hc
    · by_cases hself : m.target.relation ∈ m.cascades.map (·.relation)
      · obtain ⟨c, hc, hrel⟩ := List.mem_map.mp hself
        have hget := hcascade c hc checksum ((h c hc hrel).trans hsum)
        rwa [hrel] at hget
      · rw [putAll_of_notMem _ (by rwa [map_fst_checksumEntry]),
          Std.TreeMap.getElem?_insert_self, checksumEntry_of_some hsum]
    · exact hcascade t hc checksum hsum

theorem collectCascades_ok {target : String} {checksums : Std.TreeMap String String} :
    ∀ {rels : List String}, (∀ rel ∈ rels, rel ∈ checksums) →
      ∃ cascades, PredictedBlastRadius.collectCascades target checksums rels = .ok cascades := by
  intro rels
  induction rels with
  | nil =>
      intro _
      exact ⟨[], rfl⟩
  | cons rel rels ih =>
      intro h
      obtain ⟨rest, hrest⟩ := ih fun rel' hrel' => h rel' (List.mem_cons_of_mem _ hrel')
      unfold PredictedBlastRadius.collectCascades
      split
      · exact ⟨rest, hrest⟩
      · have hmem := h rel List.mem_cons_self
        rw [Std.TreeMap.mem_iff_isSome_getElem?] at hmem
        obtain ⟨checksum, hchecksum⟩ := Option.isSome_iff_exists.mp hmem
        rw [show checksums.get? rel = some checksum from hchecksum, hrest]
        exact ⟨_, rfl⟩

/-- The record of a measurement is taken exactly when the footprint has the
target: every other check of the apply is met by the way the maps are filled. -/
theorem accepted_iff {m : Measurement} {r : BlastRadius}
    (hchecksums : r.affected.pkSetChecksum =
      putAll ∅ ((m.target :: m.cascades).map checksumEntry))
    (hcascades : r.affected.cascadeByTable = putAll ∅ (m.cascades.map rowEntry)) :
    (∃ predicted, PredictedBlastRadius.fromGrant r m.target.relation = .ok predicted) ↔
      m.target.relation ∈ r.affected.effectByTable := by
  have hkeyed : ∀ rel ∈ (m.target :: m.cascades).map (·.relation),
      rel ∈ r.affected.pkSetChecksum := by
    intro rel hrel
    rw [hchecksums, mem_putAll, map_fst_checksumEntry]
    exact .inl hrel
  have htarget : r.affected.pkSetChecksum.contains m.target.relation = true :=
    Std.TreeMap.mem_iff_contains.mp (hkeyed _ List.mem_cons_self)
  have hcascaded : ∀ rel ∈ r.affected.cascadeByTable.keys, rel ∈ r.affected.pkSetChecksum := by
    intro rel hrel
    rw [Std.TreeMap.mem_keys, hcascades, mem_putAll, map_fst_rowEntry] at hrel
    rcases hrel with hrel | hrel
    · exact hkeyed rel (List.mem_cons_of_mem _ hrel)
    · exact absurd hrel Std.TreeMap.not_mem_emptyc
  obtain ⟨cascades, hcollect⟩ : ∃ cascades, PredictedBlastRadius.collectCascades
      m.target.relation r.affected.pkSetChecksum r.affected.cascadeByTable.keys = .ok cascades :=
    collectCascades_ok hcascaded
  unfold PredictedBlastRadius.fromGrant
  simp only [htarget, hcollect, Bool.not_true, Bool.false_eq_true, if_false]
  by_cases hmem : m.target.relation ∈ r.affected.effectByTable
  · have hne : r.affected.effectByTable.isEmpty = false :=
      Std.TreeMap.isEmpty_eq_false_iff_exists_mem.mpr ⟨_, hmem⟩
    simp [hne, Std.TreeMap.mem_iff_contains.mp hmem, hmem]
  · have hnot : r.affected.effectByTable.contains m.target.relation = false := by
      rw [← Bool.not_eq_true, ← Std.TreeMap.mem_iff_contains]
      exact hmem
    rw [hnot]
    refine iff_of_false ?_ hmem
    rintro ⟨predicted, hok⟩
    split at hok
    · cases hok
    · cases hok

/-- The record assembled from a measurement is consistent exactly when the
measurement is unambiguous. -/
theorem consistent_iff (proposal : Proposal) (kind : WriteKind) (m : Measurement)
    (r : BlastRadius) (h : assemble proposal kind m = .ok r)
    (hrows : m.target.rows ≤ u64Max) : Consistent kind m r ↔ Unambiguous kind m := by
  have haffected := assemble_eq h
  have hkeys : ∀ t ∈ m.target :: m.cascades, t.checksum ≠ none := by
    obtain ⟨htarget, hcascades⟩ := (assemble_ok_iff proposal kind m).mp ⟨r, h⟩
    exact List.forall_mem_cons.mpr ⟨htarget, hcascades⟩
  have htarget : (putAll (∅ : Std.TreeMap String Nat) [rowEntry m.target]).toList.Perm
      [rowEntry m.target] :=
    (putAll_toList_perm_iff _).mpr (List.nodup_singleton _)
  have hcascades := putAll_toList_perm_iff (m.cascades.map rowEntry)
  rw [map_fst_rowEntry] at hcascades
  have heffects := putAll_toList_perm_iff (measuredEffects kind m)
  have hmem : m.target.relation ∈ r.affected.effectByTable ↔
      m.target.relation ∈ (measuredEffects kind m).map Prod.fst := by
    rw [haffected, mem_putAll]
    simp
  have haccepted := accepted_iff (r := r) (m := m) (by rw [haffected]) (by rw [haffected])
  constructor
  · intro hcons
    have hnodup := hcascades.mp (by simpa only [haffected] using hcons.cascadeCounts)
    have htotal := hcons.total
    have hchecksums := hcons.checksums
    have heffect := hcons.effects
    simp only [BlastRadius.computedTotalRows_eq, haffected] at htotal hchecksums heffect
    exact
      { cascades := hnodup
        effects := heffects.mp heffect
        selfReference := (checksums_iff hnodup hkeys).mp hchecksums
        target := hmem.mp hcons.target
        rows := (total_iff hrows htarget (hcascades.mpr hnodup)).mp htotal }
  · intro hun
    have hcounts := hcascades.mpr hun.cascades
    have htotal := (total_iff hrows htarget hcounts).mpr hun.rows
    have hchecksums := (checksums_iff hun.cascades hkeys).mpr hun.selfReference
    have htargetMem := hmem.mpr hun.target
    refine ⟨?_, ?_, ?_, ?_, ?_, htargetMem, haccepted.mpr htargetMem⟩
    · rw [BlastRadius.computedTotalRows_eq, haffected]
      exact htotal
    · rw [haffected]
      exact hchecksums
    · rw [haffected]
      exact htarget
    · rw [haffected]
      exact hcounts
    · rw [haffected]
      exact heffects.mpr hun.effects

/-! ## Two foreign keys from one child -/

/-- The deletion of one account, with the orders that go with it. -/
def deletion (cascades : List AffectedTable) : Measurement :=
  { target := ⟨"public.accounts", some ⟨"00"⟩, 1⟩
    cascades := cascades
    fullEffect := [⟨"public.accounts", ⟨0, 0, 1⟩⟩, ⟨"public.orders", ⟨0, 0, 8⟩⟩]
    triggersFired := []
    locks := []
    durationMs := 1
    walBytes := 0
    constraintViolations := []
    cloneLsn := "0/1"
    stalenessLsnBytes := 0 }

def cleanup : Proposal := ⟨"p1", "DELETE FROM accounts WHERE id = 1", none, 0, 0, 0⟩

/-- With one foreign key the record is consistent. -/
theorem consistent_iff_oneKey :
    ∃ r, assemble cleanup .delete (deletion [⟨"public.orders", some ⟨"0a"⟩, 8⟩]) = .ok r ∧
      Consistent .delete (deletion [⟨"public.orders", some ⟨"0a"⟩, 8⟩]) r := by
  refine ⟨_, rfl, (consistent_iff cleanup .delete _ _ rfl (by decide)).mpr ?_⟩
  exact ⟨by decide, by decide, by decide, by decide, .inl (by decide)⟩

/-- Two foreign keys of `orders` onto `accounts`, the buyer's and the seller's:
nine rows in all, of which the map of the cascades keeps three. -/
theorem twoKeys_inconsistent :
    ∃ r, assemble cleanup .delete (deletion
        [⟨"public.orders", some ⟨"0a"⟩, 5⟩, ⟨"public.orders", some ⟨"0b"⟩, 3⟩]) = .ok r ∧
      ¬ Consistent .delete (deletion
        [⟨"public.orders", some ⟨"0a"⟩, 5⟩, ⟨"public.orders", some ⟨"0b"⟩, 3⟩]) r := by
  refine ⟨_, rfl, fun h => ?_⟩
  exact absurd h.total (by decide)

end PgBrakes.Ports.RecordConsistency
