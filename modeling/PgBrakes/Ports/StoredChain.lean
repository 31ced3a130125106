import PgBrakes.Ports.AuditJson
import PgBrakes.Ports.AuditWriters
import PgBrakes.Ports.AuditAnchor

/-!
# Edits of the stored audit chain

Somebody who gets past the grants and the trigger of the audit table edits one stored
row: its payload text, its hash, its sequence number.  The loader of
`crates/audit/src/pg.rs` orders the rows by the column `seq`, parses each payload and
pairs it with the column `record_hash`; the verification then looks at the parsed
payloads and these hashes only.

The place of a row is therefore pinned down by its neighbours, and what it holds by the
hash its successor names.  Behind the last row nothing names its hash: that is what the
signed anchor is for.

## Main results

* `place_kept` — a row that verifies stands where it stood.
* `loadChain_update` — an edited table loads as the other records with the edited one
  somewhere among them.
* `edit_noticed` — what an edit that verifies can have done.
-/

namespace PgBrakes.Ports.Audit

open PgBrakes.Verified.History
open PgBrakes.Verified.MachineWord
open PgBrakes.Ports.KeyChecksum
open PgBrakes.Ports.Approval (SinkError)

/-! ## Edits of the table -/

/-- The new values of the columns a loader looks at. -/
structure RowEdit where
  seq : Int
  recordHash : Hash
  payload : String
deriving DecidableEq

def RowEdit.apply (e : RowEdit) (row : AuditRow) : AuditRow :=
  { row with seq := e.seq, recordHash := e.recordHash, payload := e.payload }

/-- `UPDATE` of one row; nothing when a constraint refuses the result. -/
def AuditTable.update (t : AuditTable) (i : Nat) (e : RowEdit) : Option AuditTable :=
  let rows := t.rows.modify i e.apply
  if h : (∀ row ∈ rows, 0 ≤ row.seq) ∧ (rows.map (·.seq)).Nodup ∧
      (rows.map (·.recordHash)).Nodup then
    some ⟨rows, h.1, h.2.1, h.2.2⟩
  else none

theorem AuditTable.update_rows {t t' : AuditTable} {i : Nat} {e : RowEdit}
    (h : t.update i e = some t') : t'.rows = t.rows.modify i e.apply := by
  unfold update at h
  simp only at h
  split at h
  · cases h
    rfl
  · cases h

/-! ## Where the edited row is loaded -/

/-- Rows in order, one of them edited: sorted again, the others keep their order. -/
theorem insertionSort_edited {before after : List AuditRow} {row : AuditRow}
    (hsorted : (before ++ after).Pairwise fun a b => a.seq < b.seq)
    (hunique : ((before ++ row :: after).map (·.seq)).Nodup) :
    ∃ front back, front ++ back = before ++ after ∧
      (before ++ row :: after).insertionSort (fun a b => a.seq ≤ b.seq) =
        front ++ row :: back := by
  have hperm := List.perm_insertionSort (fun a b : AuditRow => a.seq ≤ b.seq)
    (before ++ row :: after)
  have hmem : row ∈ (before ++ row :: after).insertionSort fun a b => a.seq ≤ b.seq :=
    hperm.mem_iff.mpr (by simp)
  obtain ⟨front, back, hsplit⟩ := List.append_of_mem hmem
  refine ⟨front, back, ?_, hsplit⟩
  -- The sorted rows have different numbers, so their order is strict.
  have hle : (front ++ row :: back).Pairwise fun a b => a.seq ≤ b.seq := by
    rw [← hsplit]
    exact List.pairwise_insertionSort _ _
  have hne : (front ++ row :: back).Pairwise fun a b => a.seq ≠ b.seq := by
    rw [hsplit] at hperm
    exact List.pairwise_map.mp ((hperm.map _).nodup_iff.mpr hunique)
  have hlt : (front ++ row :: back).Pairwise fun a b => a.seq < b.seq := by
    refine (hle.and hne).imp ?_
    intro a b hab
    exact lt_of_le_of_ne hab.1 hab.2
  have hothers : (front ++ back).Pairwise fun a b => a.seq < b.seq :=
    hlt.sublist (List.Sublist.append_left (List.sublist_cons_self _ _) _)
  have hsame : (front ++ back).Perm (before ++ after) := by
    rw [hsplit] at hperm
    have hcons := (List.perm_middle.symm.trans hperm).trans List.perm_middle
    exact hcons.cons_inv
  refine List.Perm.eq_of_pairwise ?_ hothers hsorted hsame
  intro a b _ _ hab hba
  exact absurd hba (lt_asymm hab)

section Loading

variable [SerdeJson]

/-- Loading a split list of rows. -/
theorem mapM_rowToRecord_append {front back : List AuditRow} {records : List AuditRecord}
    (h : (front ++ back).mapM rowToRecord = .ok records) :
    ∃ fs bs, front.mapM rowToRecord = .ok fs ∧ back.mapM rowToRecord = .ok bs ∧
      records = fs ++ bs := by
  rw [List.mapM_append] at h
  cases hfront : front.mapM rowToRecord with
  | error e =>
      rw [hfront] at h
      cases h
  | ok fs =>
      cases hback : back.mapM rowToRecord with
      | error e =>
          rw [hfront, hback] at h
          cases h
      | ok bs =>
          rw [hfront, hback] at h
          cases h
          exact ⟨fs, bs, rfl, rfl, rfl⟩

theorem mapM_rowToRecord_cons {row : AuditRow} {rows : List AuditRow}
    {records : List AuditRecord} (h : (row :: rows).mapM rowToRecord = .ok records) :
    ∃ r rs, rowToRecord row = .ok r ∧ rows.mapM rowToRecord = .ok rs ∧ records = r :: rs := by
  rw [List.mapM_cons] at h
  cases hrow : rowToRecord row with
  | error e =>
      rw [hrow] at h
      cases h
  | ok r =>
      cases hrows : rows.mapM rowToRecord with
      | error e =>
          rw [hrow, hrows] at h
          cases h
      | ok rs =>
          rw [hrow, hrows] at h
          cases h
          exact ⟨r, rs, rfl, rfl, rfl⟩

theorem rowToRecord_ok {row : AuditRow} {r : AuditRecord} (h : rowToRecord row = .ok r) :
    SerdeJson.fromStr row.payload = .ok r.payload ∧ r.recordHash = row.recordHash := by
  unfold rowToRecord at h
  split at h
  next payload hpayload =>
    cases h
    exact ⟨hpayload, rfl⟩
  · cases h

end Loading

/-! ## The place of a record in a sound chain -/

section Place

/-- Two records in one place of a chain name the same predecessor. -/
theorem prevHash_eq {prev : Option AuditRecord} {r r' : AuditRecord} (h : Follows prev r)
    (h' : Follows prev r') : r'.payload.prevHash = r.payload.prevHash := by
  cases prev with
  | none =>
      have hfirst : r.payload.prevHash = genesisPrevHash := h
      have hfirst' : r'.payload.prevHash = genesisPrevHash := h'
      rw [hfirst, hfirst']
  | some previous => rw [h.2, h'.2]

variable [SerdeJson] [Sha256]

/-- What stands behind a beginning of a sound chain. -/
theorem sound_at {xs ys : List AuditRecord} {r : AuditRecord} (h : Sound (xs ++ r :: ys)) :
    Intact r ∧ Follows xs.getLast? r ∧ SoundFrom (some r) ys := by
  have hbehind := (soundFrom_append.mp h).2
  rw [Option.or_none] at hbehind
  exact hbehind

/-- A record cannot have the same sound beginning in front of it with and without
another record in between: the numbers differ, and only the genesis has nothing in
front of it. -/
theorem not_sound_between {xs ys zs : List AuditRecord} {r x : AuditRecord}
    (hwith : Sound (xs ++ r :: x :: ys)) (hwithout : Sound (xs ++ x :: zs))
    (hgenesis : r.payload.computeHash ≠ genesisPrevHash) : False := by
  obtain ⟨hintact, hr, -, hx, -⟩ := sound_at hwith
  obtain ⟨-, hx', -⟩ := sound_at hwithout
  have hhash : r.payload.computeHash = r.recordHash := hintact
  cases hlast : xs.getLast? with
  | none =>
      rw [hlast] at hx'
      have hfirst : x.payload.prevHash = genesisPrevHash := hx'
      exact hgenesis (hhash.trans (hx.2.symm.trans hfirst))
  | some y =>
      rw [hlast] at hr hx'
      have hstep : y.payload.seq + 1 + 1 = y.payload.seq + 1 := by
        rw [← hr.1, ← hx.1, hx'.1, hr.1]
      have hcount := congrArg UInt64.toNat hstep
      simp only [UInt64.toNat_add, UInt64.toNat_one] at hcount
      omega

/-- A record that is put among the others of a sound chain, so that the chain is sound
again, stands where the one it replaces stood. -/
theorem place_kept {before after front back : List AuditRecord} {r r' : AuditRecord}
    (hsound : Sound (before ++ r :: after)) (hsound' : Sound (front ++ r' :: back))
    (hothers : front ++ back = before ++ after)
    (hr : r.payload.computeHash ≠ genesisPrevHash)
    (hr' : r'.payload.computeHash ≠ genesisPrevHash) : front = before ∧ back = after := by
  rcases List.append_eq_append_iff.mp hothers with ⟨skipped, hbefore, hback⟩ |
    ⟨skipped, hfront, hafter⟩
  · cases skipped with
    | nil => simp_all
    | cons x skipped =>
        -- The record came to stand further in front.
        rw [hback] at hsound'
        rw [hbefore, List.append_assoc] at hsound
        exact (not_sound_between hsound' hsound hr').elim
  · cases skipped with
    | nil => simp_all
    | cons x skipped =>
        -- The record came to stand further behind.
        rw [hafter] at hsound
        rw [hfront, List.append_assoc] at hsound'
        exact (not_sound_between hsound hsound' hr).elim

/-- The hash of these payloads has no collision and never is the genesis. -/
structure HashTellsApart (payloads : List AuditPayload) : Prop where
  collisionFree : Set.InjOn Sha256.digest {bytes | ∃ p ∈ payloads, bytes = p.hashInput}
  notGenesis : ∀ p ∈ payloads, p.computeHash ≠ genesisPrevHash

/-- Payloads with one hash behind one predecessor have one text. -/
theorem HashTellsApart.json_eq {payloads : List AuditPayload} (h : HashTellsApart payloads)
    {p q : AuditPayload} (hp : p ∈ payloads) (hq : q ∈ payloads)
    (hprev : p.prevHash = q.prevHash) (hhash : p.computeHash = q.computeHash) :
    p.json = q.json := by
  have hstream : p.hashInput = q.hashInput :=
    h.collisionFree ⟨p, hp, rfl⟩ ⟨q, hq, rfl⟩ (Grant.hexEncode_injective hhash)
  unfold AuditPayload.hashInput at hstream
  rw [hprev] at hstream
  exact utf8_injective (List.append_cancel_left hstream)

end Place

/-! ## What an edit can have done -/

section Edits

variable [SerdeJson]

/-- An edited table loads as the other records in their order, with the edited one
somewhere among them. -/
theorem loadChain_update {t t' : AuditTable} {written records : List AuditRecord}
    (hrows : t.rows = written.map rowOf)
    (hsorted : (written.map rowOf).Pairwise fun a b => a.seq < b.seq)
    (hread : ∀ r ∈ written, ReadsBack r) {i : Nat} {e : RowEdit} (hi : i < written.length)
    (hupdate : t.update i e = some t') (hload : t'.loadChain = .ok records) :
    ∃ before r after front r' back, written = before ++ r :: after ∧ before.length = i ∧
      records = front ++ r' :: back ∧ front ++ back = before ++ after ∧
      SerdeJson.fromStr e.payload = .ok r'.payload ∧ r'.recordHash = e.recordHash := by
  have hlength : i < (written.map rowOf).length := by
    rw [List.length_map]
    exact hi
  obtain ⟨rows₁, row, rows₂, hsplit, hlen, hmodified⟩ := List.exists_of_modify e.apply hlength
  obtain ⟨before, rest, rfl, rfl, hrest⟩ := List.map_eq_append_iff.mp hsplit
  obtain ⟨r, after, rfl, rfl, rfl⟩ := List.map_eq_cons_iff.mp hrest
  have hrows' : t'.rows = before.map rowOf ++ e.apply (rowOf r) :: after.map rowOf := by
    rw [AuditTable.update_rows hupdate, hrows, hmodified]
  have hothers : (before.map rowOf ++ after.map rowOf).Pairwise fun a b => a.seq < b.seq := by
    rw [hsplit] at hsorted
    exact hsorted.sublist (List.Sublist.append_left (List.sublist_cons_self _ _) _)
  have hunique := t'.seqUnique
  rw [hrows'] at hunique
  obtain ⟨front, back, hkept, hsort⟩ := insertionSort_edited hothers hunique
  unfold AuditTable.loadChain at hload
  rw [hrows', hsort] at hload
  obtain ⟨fs, cs, hfront, hcons, rfl⟩ := mapM_rowToRecord_append hload
  obtain ⟨r', bs, hr', hback, rfl⟩ := mapM_rowToRecord_cons hcons
  have hloaded : (front ++ back).mapM rowToRecord = .ok (fs ++ bs) := by
    rw [List.mapM_append, hfront, hback]
    rfl
  have hwritten : (front ++ back).mapM rowToRecord = .ok (before ++ after) := by
    rw [hkept, ← List.map_append]
    apply mapM_rowToRecord
    intro a ha
    apply hread
    rcases List.mem_append.mp ha with ha | ha
    · simp [ha]
    · simp [ha]
  refine ⟨before, r, after, fs, r', bs, rfl, by simpa using hlen, rfl, ?_, ?_⟩
  · exact Except.ok.inj (hloaded.symm.trans hwritten)
  · exact rowToRecord_ok hr'

/-- What the verification looks at in a row and in a record: text and hash. -/
def AuditRow.visible (row : AuditRow) : String × Hash := (row.payload, row.recordHash)

def AuditRecord.visible (r : AuditRecord) : String × Hash := (r.payload.json, r.recordHash)

theorem map_visible (records : List AuditRecord) :
    (records.map rowOf).map AuditRow.visible = records.map AuditRecord.visible := by
  rw [List.map_map]
  rfl

variable [Sha256]

/-- What is in the place of a record of a sound chain when the chain is sound again:
something behind the same predecessor, and with the same text and hash unless it is the
last record. -/
theorem edit_noticed {before after front back : List AuditRecord} {r r' : AuditRecord}
    (hsound : Sound (before ++ r :: after)) (hsound' : Sound (front ++ r' :: back))
    (hothers : front ++ back = before ++ after)
    (hapart : HashTellsApart (r'.payload :: (before ++ r :: after).map (·.payload))) :
    front = before ∧ back = after ∧ Intact r' ∧ r'.payload.prevHash = r.payload.prevHash ∧
      (after = [] ∨ r'.recordHash = r.recordHash ∧ r'.payload.json = r.payload.json) := by
  have hr : r.payload ∈ r'.payload :: (before ++ r :: after).map (·.payload) := by simp
  have hr' : r'.payload ∈ r'.payload :: (before ++ r :: after).map (·.payload) := by simp
  obtain ⟨rfl, rfl⟩ := place_kept hsound hsound' hothers (hapart.notGenesis _ hr)
    (hapart.notGenesis _ hr')
  obtain ⟨hintact, hfollows, hrest⟩ := sound_at hsound
  obtain ⟨hintact', hfollows', hrest'⟩ := sound_at hsound'
  have hprev := prevHash_eq hfollows hfollows'
  refine ⟨rfl, rfl, hintact', hprev, ?_⟩
  cases back with
  | nil => exact .inl rfl
  | cons next back =>
      -- The successor names the hash of the record it was written behind.
      have hhash : r'.recordHash = r.recordHash := by
        rw [← hrest'.2.1.2, hrest.2.1.2]
      have hcompute : r'.payload.computeHash = r.payload.computeHash := by
        have h : r.payload.computeHash = r.recordHash := hintact
        have h' : r'.payload.computeHash = r'.recordHash := hintact'
        rw [h, h', hhash]
      exact .inr ⟨hhash, hapart.json_eq hr' hr hprev hcompute⟩

/-- The edit leaves the hash, and the new text reads as a payload with the canonical
text that was stored. -/
structure RowEdit.Respells (e : RowEdit) (row : AuditRow) : Prop where
  recordHash : e.recordHash = row.recordHash
  payload : ∃ p, SerdeJson.fromStr e.payload = .ok p ∧ p.json = row.payload

/-- The edit puts another payload behind the same predecessor, with its own hash. -/
def RowEdit.Reseals (e : RowEdit) (row : AuditRow) : Prop :=
  ∃ p, SerdeJson.fromStr e.payload = .ok p ∧ p.prevHash = row.prevHash ∧
    p.computeHash = e.recordHash

/-- `load_chain_mut` and `verify_chain`, without an error and without a break. -/
def AuditTable.Verifies (profile : Profile) (t : AuditTable) : Prop :=
  ∃ records, t.loadChain = .ok records ∧ verifyChain profile records = .intact

/-- What an edit of a stored row that verifies has done: nothing the verification looks
at, or it sealed the last row again. -/
theorem edit_outcome {t t' : AuditTable} {written records : List AuditRecord}
    (hrows : t.rows = written.map rowOf)
    (hsorted : (written.map rowOf).Pairwise fun a b => a.seq < b.seq)
    (hread : ∀ r ∈ written, ReadsBack r) (hsound : Sound written) {i : Nat} {row : AuditRow}
    {e : RowEdit} (hrow : t.rows[i]? = some row)
    (hapart : ∀ p, SerdeJson.fromStr e.payload = .ok p →
      HashTellsApart (p :: written.map (·.payload)))
    (hupdate : t.update i e = some t') (hload : t'.loadChain = .ok records)
    (hsound' : Sound records) :
    (e.Respells row ∧ records.map AuditRecord.visible = t.rows.map AuditRow.visible) ∨
      (i + 1 = t.rows.length ∧ e.Reseals row ∧
        records.dropLast.map AuditRecord.visible = t.rows.dropLast.map AuditRow.visible) := by
  have hi : i < written.length := by
    have hlt := (List.getElem?_eq_some_iff.mp hrow).1
    rwa [hrows, List.length_map] at hlt
  obtain ⟨before, r, after, front, r', back, rfl, rfl, rfl, hothers, hpayload, hhash⟩ :=
    loadChain_update hrows hsorted hread hi hupdate hload
  obtain ⟨rfl, rfl, hsealed, hprev, hlast⟩ :=
    edit_noticed hsound hsound' hothers (hapart _ hpayload)
  have hrow' : row = rowOf r := by
    rw [hrows] at hrow
    simpa using hrow.symm
  rw [hrows, hrow']
  rcases hlast with rfl | ⟨hsame, hjson⟩
  · right
    refine ⟨by simp, ⟨r'.payload, hpayload, hprev, hsealed.trans hhash⟩, ?_⟩
    rw [List.map_append, List.map_singleton, List.dropLast_concat, List.dropLast_concat,
      map_visible]
  · left
    refine ⟨⟨hhash.symm.trans hsame, r'.payload, hpayload, hjson⟩, ?_⟩
    have hvisible : r'.visible = r.visible := Prod.ext hjson hsame
    rw [map_visible, List.map_append, List.map_append, List.map_cons, List.map_cons, hvisible]

end Edits

/-! ## Every stored chain, every edit -/

section Stored

variable {ι : Type} [DecidableEq ι]

/-- The table after some steps of some writers. -/
def storedBy [SerdeJson] [Sha256] (actions : List (Action ι)) : AuditTable :=
  (run System.step actions (System.initial : System ι)).2.table

/-- The entries they committed, in order. -/
def committedBy [SerdeJson] [Sha256] (actions : List (Action ι)) : List (NewEntry × UInt64) :=
  commits (run System.step actions (System.initial : System ι)).1

theorem rows_of_commits [SerdeJson] [Sha256] {actions : List (Action ι)}
    {entries : List (NewEntry × UInt64)} (h : committedBy actions = entries) :
    (storedBy actions).rows = (chainOf entries).records.map rowOf := by
  rw [← h]
  exact (refines_run actions).stored

variable [JsonReader] [Sha256]

/-- The stored chain of entries whose rates read back: every stored text reads as a
payload with this canonical text, and the chain verifies.  After an edit of a stored row
it verifies only where the rows still load with the same texts and hashes in the same
order, or where the row is the last one and was sealed again behind the same
predecessor. -/
theorem stored_chain_integrity (profile : Profile) (actions : List (Action ι))
    (hrates : ∀ entry ∈ committedBy actions, RateReadsBack entry.1.intent.t2.ratePerMin)
    (hparse : ∀ r ∈ (chainOf (committedBy actions)).records, Parses r.payload) :
    (∀ row ∈ (storedBy actions).rows,
      ∃ p, SerdeJson.fromStr row.payload = .ok p ∧ p.json = row.payload) ∧
    (storedBy actions).Verifies profile ∧
    ∀ i row e t' records, (storedBy actions).rows[i]? = some row →
      (∀ p, SerdeJson.fromStr e.payload = .ok p →
        HashTellsApart (p :: (chainOf (committedBy actions)).records.map (·.payload))) →
      (storedBy actions).update i e = some t' → t'.loadChain = .ok records →
      verifyChain profile records = .intact →
      (e.Respells row ∧
        records.map AuditRecord.visible = (storedBy actions).rows.map AuditRow.visible) ∨
      (i + 1 = (storedBy actions).rows.length ∧ e.Reseals row ∧
        records.dropLast.map AuditRecord.visible =
          (storedBy actions).rows.dropLast.map AuditRow.visible) := by
  have hinv := refines_run actions
  have hrows : (storedBy actions).rows = (chainOf (committedBy actions)).records.map rowOf :=
    hinv.stored
  have hread : ∀ r ∈ (chainOf (committedBy actions)).records, ReadsBack r :=
    readsBack_of_entries hrates hparse
  have hsound : Sound (chainOf (committedBy actions)).records := (appendAll_sound _).1
  have hsorted : ((chainOf (committedBy actions)).records.map rowOf).Pairwise
      fun a b => a.seq < b.seq := rows_sorted hinv.small
  refine ⟨?_, ?_, ?_⟩
  · intro row hrow
    rw [hrows] at hrow
    obtain ⟨r, hr, rfl⟩ := List.mem_map.mp hrow
    exact ⟨r.payload, hread r hr, rfl⟩
  · exact ⟨_, loadChain_eq hrows hinv.small hread, verifyChain_chainOf hinv.small profile⟩
  · intro i row e t' records hrow hapart hupdate hload hintact
    exact edit_outcome hrows hsorted hread hsound hrow hapart hupdate hload
      (sound_of_intact hintact)

end Stored

/-! ## One or two stored records -/

/-- The steps of one append. -/
def appendOne (entry : NewEntry) (timestampMs : UInt64) : List (Action Unit) :=
  [.start () entry timestampMs, .lock (), .readHead (), .insert (), .commit ()]

section Single

/-- An edit goes through where the constraints admit its rows. -/
theorem update_admitted {t : AuditTable} {i : Nat} {e : RowEdit} {rows : List AuditRow}
    (hrows : t.rows.modify i e.apply = rows) (hseq : ∀ row ∈ rows, 0 ≤ row.seq)
    (hseqs : (rows.map (·.seq)).Nodup) (hhashes : (rows.map (·.recordHash)).Nodup) :
    ∃ t', t.update i e = some t' ∧ t'.rows = rows := by
  subst hrows
  unfold AuditTable.update
  rw [dif_pos ⟨hseq, hseqs, hhashes⟩]
  exact ⟨_, rfl, rfl⟩

/-- An edit of the only row, where the column takes the number. -/
theorem update_single {t : AuditTable} {row : AuditRow} (hrows : t.rows = [row]) {e : RowEdit}
    (hseq : 0 ≤ e.seq) : ∃ t', t.update 0 e = some t' ∧ t'.rows = [e.apply row] := by
  refine update_admitted ?_ ?_ (by simp) (by simp)
  · rw [hrows]
    rfl
  · simpa [RowEdit.apply] using hseq

variable [SerdeJson] [Sha256]

theorem storedBy_appendOne (entry : NewEntry) (timestampMs : UInt64) :
    (storedBy (appendOne entry timestampMs)).rows =
      [rowOf (.sealPayload (entry.payload 0 timestampMs genesisPrevHash))] := rfl

/-- One row verifies when its text reads as a payload behind the genesis that has the
row's hash. -/
theorem verifies_single {t : AuditTable} {row : AuditRow} {p : AuditPayload}
    (hrows : t.rows = [row]) (hread : SerdeJson.fromStr row.payload = .ok p)
    (hgenesis : p.prevHash = genesisPrevHash) (profile : Profile) :
    t.Verifies profile ↔ p.computeHash = row.recordHash := by
  have hload : t.loadChain = .ok [⟨p, row.recordHash⟩] := by
    unfold AuditTable.loadChain
    rw [hrows, List.insertionSort_cons, List.insertionSort_nil, List.orderedInsert_nil,
      List.mapM_cons, List.mapM_nil]
    unfold rowToRecord
    rw [hread]
    rfl
  have hverify : verifyChain profile [⟨p, row.recordHash⟩] = .intact ↔
      p.computeHash = row.recordHash := by
    unfold verifyChain
    rw [verifyFrom_cons_intact (by simp)]
    exact ⟨fun h => h.1, fun h => ⟨h, hgenesis, rfl⟩⟩
  constructor
  · rintro ⟨records, hrecords, hintact⟩
    cases hload.symm.trans hrecords
    exact hverify.mp hintact
  · intro hhash
    exact ⟨_, hload, hverify.mpr hhash⟩

/-- A few payloads whose hashes are known. -/
theorem HashTellsApart.of_hashes {payloads : List AuditPayload}
    (hapart : ∀ p ∈ payloads, ∀ q ∈ payloads, p.computeHash = q.computeHash → p = q)
    (hgenesis : ∀ p ∈ payloads, p.computeHash ≠ genesisPrevHash) : HashTellsApart payloads := by
  constructor
  · rintro _ ⟨p, hp, rfl⟩ _ ⟨q, hq, rfl⟩ hdigest
    have hhash : p.computeHash = q.computeHash := congrArg hexEncode hdigest
    rw [hapart p hp q hq hhash]
  · exact hgenesis

/-- The edit of the only row goes through and is not noticed. -/
theorem edit_unnoticed {t : AuditTable} {row : AuditRow} (hrows : t.rows = [row]) {e : RowEdit}
    {p : AuditPayload} (hseq : 0 ≤ e.seq) (hread : SerdeJson.fromStr e.payload = .ok p)
    (hgenesis : p.prevHash = genesisPrevHash) (hhash : p.computeHash = e.recordHash)
    (hchanged : e.apply row ≠ row) :
    ∃ t', t.update 0 e = some t' ∧ t'.rows ≠ t.rows ∧ t'.Verifies .checked := by
  obtain ⟨t', hupdate, hrows'⟩ := update_single hrows hseq
  refine ⟨t', hupdate, ?_, (verifies_single hrows' hread hgenesis .checked).mpr hhash⟩
  rw [hrows, hrows']
  intro heq
  exact hchanged (List.cons.inj heq).1

end Single

/-- The first record with another decision. -/
def firstBlocked : AuditPayload := { firstSelect with decision := .block }

/-- `SELECT 1` with a rate that is not a number. -/
def unmeasured : NewEntry :=
  { selectOne with
    intent := { selectOne.intent with
      t2 := { selectOne.intent.t2 with ratePerMin := some ⟨0x7ff8000000000000⟩ } } }

def unmeasuredText : String :=
  "\x7b\"seq\":0,\"statement_text\":\"SELECT 1\",\"decision\":\"ALLOW\",\"reason_code\":\"ok\"," ++
    "\"principal\":\x7b\"role\":\"pgb_agent\"\x7d,\"intent\":\x7b\"t0\":\x7b\"role\":\"\"\x7d," ++
    "\"t1\":\x7b\"statement_text\":\"\",\"annotation\":\x7b\x7d\x7d," ++
    "\"t2\":\x7b\"reads_before_write\":false,\"rate_per_min\":null\x7d\x7d," ++
    "\"timestamp_unix_millis\":42,\"prev_hash\":\"" ++ genesisPrevHash ++ "\"\x7d"

/-- The crate on these texts; it passes over a space behind the value. -/
@[reducible] def fewTexts : JsonReader :=
  .knowing (selectTexts ++
    [(selectOneText "0" "42" "ALLOW" genesisPrevHash ++ " ", firstSelect),
      (selectOneText "0" "42" "BLOCK" genesisPrevHash, firstBlocked),
      (unmeasuredText, unmeasured.payload 0 42 genesisPrevHash)])

/-- A space behind the text of a stored record, another number, and another decision under
its own hash: the record is edited and still verifies.  A record whose rate is not a
number does not verify as it was written. -/
theorem stored_edits_unnoticed :
    letI := fewTexts
    letI := Sha256.standard
    (∀ e ∈ [RowEdit.mk 0 firstHash (selectOneText "0" "42" "ALLOW" genesisPrevHash ++ " "),
        ⟨5, firstHash, selectOneText "0" "42" "ALLOW" genesisPrevHash⟩,
        ⟨0, firstBlocked.computeHash, selectOneText "0" "42" "BLOCK" genesisPrevHash⟩],
      ∃ t', (storedBy (appendOne selectOne 42)).update 0 e = some t' ∧
        t'.rows ≠ (storedBy (appendOne selectOne 42)).rows ∧ t'.Verifies .checked) ∧
    ¬ (storedBy (appendOne unmeasured 42)).Verifies .checked := by
  let _ := fewTexts
  let _ := Sha256.standard
  have hhash : firstSelect.computeHash = firstHash := (select_hashes _).1
  constructor
  · intro e he
    simp only [List.mem_cons, List.not_mem_nil, or_false] at he
    have hrows := storedBy_appendOne selectOne 42
    rcases he with rfl | rfl | rfl
    · refine edit_unnoticed hrows (p := firstSelect) (by decide) (by decide +kernel) rfl hhash ?_
      intro heq
      have htext : selectOneText "0" "42" "ALLOW" genesisPrevHash ++ " " = _ :=
        congrArg AuditRow.payload heq
      exact absurd htext (by decide +kernel)
    · refine edit_unnoticed hrows (p := firstSelect) (by decide) (by decide +kernel) rfl hhash ?_
      intro heq
      have hseq : (5 : Int) = asI64 0 := congrArg AuditRow.seq heq
      exact absurd hseq (by decide)
    · refine edit_unnoticed hrows (p := firstBlocked) (by decide) (by decide +kernel) rfl rfl ?_
      intro heq
      have htext : selectOneText "0" "42" "BLOCK" genesisPrevHash = _ :=
        congrArg AuditRow.payload heq
      exact absurd htext (by decide +kernel)
  · have hread : SerdeJson.fromStr
        (rowOf (.sealPayload (unmeasured.payload 0 42 genesisPrevHash))).payload =
        .ok firstSelect := by
      decide +kernel
    have hother : firstSelect.computeHash ≠
        (unmeasured.payload 0 42 genesisPrevHash).computeHash := by
      decide +kernel
    intro hverifies
    exact hother ((verifies_single (storedBy_appendOne unmeasured 42) hread rfl _).mp hverifies)

/-- Both records of `SELECT 1`, one after the other. -/
def appendBoth : List (Action Unit) := appendOne selectOne 42 ++ appendOne selectOne 43

theorem committedBy_appendBoth :
    letI := fewTexts
    letI := Sha256.standard
    committedBy appendBoth = twoSelects := by
  decide +kernel

/-- The edit that puts a space behind the text of the first record. -/
def spaceEdit : RowEdit :=
  ⟨0, firstHash, selectOneText "0" "42" "ALLOW" genesisPrevHash ++ " "⟩

theorem apart_twoSelects :
    letI := fewTexts
    letI := Sha256.standard
    HashTellsApart [firstSelect, firstSelect, secondSelect] := by
  let _ := fewTexts
  let _ := Sha256.standard
  have hfirst : firstSelect.computeHash = firstHash := (select_hashes _).1
  have hsecond : secondSelect.computeHash = secondHash := (select_hashes _).2
  have hne : firstHash ≠ secondHash := by decide
  apply HashTellsApart.of_hashes
  · intro p hp q hq hhash
    simp only [List.mem_cons, List.not_mem_nil, or_false] at hp hq
    rcases hp with rfl | rfl | rfl
    all_goals rcases hq with rfl | rfl | rfl
    all_goals simp_all
  · intro p hp
    simp only [List.mem_cons, List.not_mem_nil, or_false] at hp
    rcases hp with rfl | rfl | rfl
    · rw [hfirst]
      decide
    · rw [hfirst]
      decide
    · rw [hsecond]
      decide

theorem appendBoth_rows :
    letI := fewTexts
    letI := Sha256.standard
    (storedBy appendBoth).rows =
      [rowOf (.sealPayload firstSelect), rowOf (.sealPayload secondSelect)] := by
  let _ := fewTexts
  exact (@rows_of_commits Unit _ fewTexts.toSerdeJson .standard appendBoth twoSelects
    committedBy_appendBoth).trans (congrArg (List.map rowOf) (chainOf_twoSelects _))

/-- The edited table loads as the records that were written. -/
theorem spaceEdit_loads {t : AuditTable} :
    letI := fewTexts
    letI := Sha256.standard
    t.rows = [rowOf (.sealPayload firstSelect), rowOf (.sealPayload secondSelect)] →
    ∃ t', t.update 0 spaceEdit = some t' ∧ t'.loadChain = .ok (chainOf twoSelects).records := by
  let _ := fewTexts
  let _ := Sha256.standard
  intro hrows
  have hfirst : firstSelect.computeHash = firstHash := (select_hashes _).1
  have hsecond : secondSelect.computeHash = secondHash := (select_hashes _).2
  have hread : SerdeJson.fromStr spaceEdit.payload = .ok firstSelect := by
    decide +kernel
  have hsecondReads : rowToRecord (rowOf (.sealPayload secondSelect)) =
      .ok (.sealPayload secondSelect) := by
    decide +kernel
  have hedited : rowToRecord ⟨0, genesisPrevHash, firstHash, spaceEdit.payload⟩ =
      .ok (.sealPayload firstSelect) := by
    unfold rowToRecord AuditRecord.sealPayload
    rw [hread, hfirst]
  have hsecondRow : rowOf (.sealPayload secondSelect) =
      ⟨1, firstHash, secondHash, secondSelect.json⟩ := by
    rw [← hsecond]
    rfl
  have hmodified : t.rows.modify 0 spaceEdit.apply =
      [⟨0, genesisPrevHash, firstHash, spaceEdit.payload⟩, rowOf (.sealPayload secondSelect)] := by
    rw [hrows]
    rfl
  obtain ⟨t', hupdate, hrows'⟩ := update_admitted hmodified (by simp [hsecondRow])
    (by simp [hsecondRow]) (by simp [hsecondRow, firstHash, secondHash])
  refine ⟨t', hupdate, ?_⟩
  have hsorted : t'.rows.insertionSort (fun a b => a.seq ≤ b.seq) = t'.rows := by
    apply List.Pairwise.insertionSort_eq
    rw [hrows', hsecondRow]
    simp
  unfold AuditTable.loadChain
  rw [hsorted, hrows', List.mapM_cons, List.mapM_cons, List.mapM_nil, hedited, hsecondReads,
    chainOf_twoSelects]
  rfl

/-- A space behind the text of the first of two linked records. -/
theorem stored_chain_integrity_selectOne :
    letI := fewTexts
    letI := Sha256.standard
    let t := storedBy appendBoth
    t.rows.length = 2 ∧ t.Verifies .checked ∧
      ∃ row t' records, t.rows[0]? = some row ∧ t.update 0 spaceEdit = some t' ∧
        t'.loadChain = .ok records ∧ verifyChain .checked records = .intact ∧
        ((spaceEdit.Respells row ∧
            records.map AuditRecord.visible = t.rows.map AuditRow.visible) ∨
          (0 + 1 = t.rows.length ∧ spaceEdit.Reseals row ∧
            records.dropLast.map AuditRecord.visible = t.rows.dropLast.map AuditRow.visible)) := by
  let _ := fewTexts
  let _ := Sha256.standard
  have hcommitted := committedBy_appendBoth
  have hrates : ∀ entry ∈ committedBy appendBoth,
      RateReadsBack entry.1.intent.t2.ratePerMin := by
    rw [hcommitted]
    exact rates_twoSelects
  have hparse : ∀ r ∈ (chainOf (committedBy appendBoth)).records, Parses r.payload := by
    rw [hcommitted]
    exact twoSelects_parse _
  have hrows := appendBoth_rows
  have hread : SerdeJson.fromStr spaceEdit.payload = .ok firstSelect := by
    decide +kernel
  obtain ⟨t', hupdate, hload⟩ := spaceEdit_loads hrows
  have hintact : verifyChain .checked (chainOf twoSelects).records = .intact :=
    verifyChain_chainOf (by decide) .checked
  obtain ⟨-, hverifies, hedits⟩ := stored_chain_integrity .checked appendBoth hrates hparse
  refine ⟨by rw [hrows]; rfl, hverifies, rowOf (.sealPayload firstSelect), t', _,
    by rw [hrows]; rfl, hupdate, hload, hintact, ?_⟩
  refine hedits 0 _ spaceEdit t' _ (by rw [hrows]; rfl) ?_ hupdate hload hintact
  intro p hp
  rw [hread] at hp
  cases hp
  rw [hcommitted, chainOf_twoSelects]
  exact apart_twoSelects

end PgBrakes.Ports.Audit
