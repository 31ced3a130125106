import PgBrakes.Verified.HashChain
import PgBrakes.Verified.MachineWord
import PgBrakes.Ports.AuditRecord

/-!
# The audit chain and its verification

A port of `crates/audit/src/chain.rs`.  Appending stamps an entry with the next
sequence number and the hash of the last record, and seals it.  Verification walks a
list of records and reports the first break.  The two write the rules of the chain
down separately: `Sound` states what the walk checks, and `replay` appends the
entries of a list of records again, in order.

The walk computes `previous.seq + 1` on `u64`.  A build with overflow checks stops
there at the last sequence number and one without them wraps around; the workspace's
release profile leaves the checks off, the test profile has them.

## Main results

* `verifyChain_wrapping` — the walk without overflow checks accepts the sound lists.
* `replay_eq_iff` — a list is its own replay exactly when it is sound and its first
  record has the sequence number 0.
* `exact_iff` — the walk and the appends agree on a list exactly when it does not
  start a sound chain elsewhere and does not go on behind the last sequence number.
-/

namespace PgBrakes.Ports.Audit

open PgBrakes.Verified.HashChain
open PgBrakes.Verified.MachineWord
open PgBrakes.Ports.KeyChecksum
open PgBrakes.Ports.Approval (Decision)

/-- The first place a chain fails verification. -/
inductive ChainBreak where
  | badGenesis (index : Nat) (foundPrevHash : Hash)
  | hashMismatch (index : Nat) (seq : UInt64) (storedHash recomputedHash : Hash)
  | brokenLink (index : Nat) (seq : UInt64) (expectedPrevHash actualPrevHash : Hash)
  | seqGap (index : Nat) (expectedSeq foundSeq : UInt64)
deriving DecidableEq

/-- How a verification ends: with the answer of the function, or with the overflow a
checked build stops at. -/
inductive Verification where
  | intact
  | broken (at_ : ChainBreak)
  | overflow
deriving DecidableEq

/-- `u64::MAX`. -/
def lastSeq : UInt64 := UInt64.ofNat (2 ^ 64 - 1)

/-- `n + 1` on `u64`; a checked build has no answer at the end. -/
def plusOne : Profile → UInt64 → Option UInt64
  | .checked, n => if n = lastSeq then none else some (n + 1)
  | .wrapping, n => some (n + 1)

theorem plusOne_checked_last : plusOne .checked lastSeq = none := rfl

theorem plusOne_checked_of_ne {n : UInt64} (h : n ≠ lastSeq) :
    plusOne .checked n = some (n + 1) := if_neg h

section

variable [SerdeJson] [Sha256]

/-- The loop of `verify_chain`, with the record it looked at last. -/
def verifyFrom (profile : Profile) : Option AuditRecord → Nat → List AuditRecord → Verification
  | _, _, [] => .intact
  | prev, index, record :: rest =>
      if record.payload.computeHash ≠ record.recordHash then
        .broken (.hashMismatch index record.payload.seq record.recordHash
          record.payload.computeHash)
      else
        match prev with
        | none =>
            if record.payload.prevHash ≠ genesisPrevHash then
              .broken (.badGenesis index record.payload.prevHash)
            else verifyFrom profile (some record) (index + 1) rest
        | some previous =>
            match plusOne profile previous.payload.seq with
            | none => .overflow
            | some expectedSeq =>
                if record.payload.seq ≠ expectedSeq then
                  .broken (.seqGap index expectedSeq record.payload.seq)
                else if record.payload.prevHash ≠ previous.recordHash then
                  .broken (.brokenLink index record.payload.seq record.payload.prevHash
                    previous.recordHash)
                else verifyFrom profile (some record) (index + 1) rest

/-- Verify a list of records as a hash chain. -/
def verifyChain (profile : Profile) (records : List AuditRecord) : Verification :=
  verifyFrom profile none 0 records

end

/-! ## Appending -/

/-- What happened, before it has a place in the chain. -/
structure NewEntry where
  statementText : String
  decision : Decision
  reasonCode : String
  reason : Option String
  principal : Principal
  intent : IntentTiers
  writeSafety : WriteSafetyRefs
deriving DecidableEq

/-- The payload of an entry at a place of the chain. -/
def NewEntry.payload (entry : NewEntry) (seq timestampMs : UInt64) (prevHash : Hash) :
    AuditPayload :=
  { seq := seq
    statementText := entry.statementText
    decision := entry.decision
    reasonCode := entry.reasonCode
    reason := entry.reason
    principal := entry.principal
    intent := entry.intent
    writeSafety := entry.writeSafety
    timestampUnixMillis := timestampMs
    prevHash := prevHash }

/-- The entry a payload was made from. -/
def AuditPayload.entry (p : AuditPayload) : NewEntry :=
  { statementText := p.statementText
    decision := p.decision
    reasonCode := p.reasonCode
    reason := p.reason
    principal := p.principal
    intent := p.intent
    writeSafety := p.writeSafety }

/-- The in-memory chain. -/
structure AuditChain where
  records : List AuditRecord
deriving DecidableEq

namespace AuditChain

def new : AuditChain := ⟨[]⟩

/-- The hash of the last record, or the genesis. -/
def headHash (c : AuditChain) : Hash :=
  match c.records.getLast? with
  | some r => r.recordHash
  | none => genesisPrevHash

def nextSeq (c : AuditChain) : UInt64 := UInt64.ofNat c.records.length

variable [SerdeJson] [Sha256]

/-- The record an entry becomes at the end of the chain. -/
def nextRecord (c : AuditChain) (entry : NewEntry) (timestampMs : UInt64) : AuditRecord :=
  .sealPayload (entry.payload c.nextSeq timestampMs c.headHash)

def append (c : AuditChain) (entry : NewEntry) (timestampMs : UInt64) : AuditChain :=
  ⟨c.records ++ [c.nextRecord entry timestampMs]⟩

/-- One append after the other. -/
def appendAll (c : AuditChain) (entries : List (NewEntry × UInt64)) : AuditChain :=
  entries.foldl (fun chain entry => chain.append entry.1 entry.2) c

end AuditChain

/-! ## Sound lists -/

/-- What a record owes the record in front of it. -/
def Follows : Option AuditRecord → AuditRecord → Prop
  | none, r => r.payload.prevHash = genesisPrevHash
  | some previous, r =>
      r.payload.seq = previous.payload.seq + 1 ∧ r.payload.prevHash = previous.recordHash

/-- The first record has the genesis sequence number. -/
def StartsAtZero (records : List AuditRecord) : Prop :=
  ∀ r ∈ records.head?, r.payload.seq = 0

theorem startsAtZero_of_snoc {rs : List AuditRecord} {r : AuditRecord}
    (h : StartsAtZero (rs ++ [r])) : StartsAtZero rs := by
  intro a ha
  refine h a ?_
  simp only [List.head?_append, Option.mem_def] at ha ⊢
  rw [ha]
  rfl

section

variable [SerdeJson] [Sha256]

/-- The stored hash is the hash of the payload. -/
def Intact (r : AuditRecord) : Prop := r.payload.computeHash = r.recordHash

def SoundFrom : Option AuditRecord → List AuditRecord → Prop
  | _, [] => True
  | prev, r :: rs => Intact r ∧ Follows prev r ∧ SoundFrom (some r) rs

/-- Every record is intact and follows the one in front of it; the first one names
the genesis. -/
def Sound (records : List AuditRecord) : Prop := SoundFrom none records

theorem soundFrom_append {prev : Option AuditRecord} {xs ys : List AuditRecord} :
    SoundFrom prev (xs ++ ys) ↔ SoundFrom prev xs ∧ SoundFrom (xs.getLast?.or prev) ys := by
  induction xs generalizing prev with
  | nil => simp [SoundFrom]
  | cons x xs ih =>
      have hlast : ((x :: xs).getLast?).or prev = (xs.getLast?).or (some x) := by
        cases hxs : xs.getLast? with
        | none => simp [List.getLast?_cons, hxs]
        | some y => simp [List.getLast?_cons, hxs]
      simp only [List.cons_append, SoundFrom, ih, hlast, and_assoc]

theorem sound_snoc {rs : List AuditRecord} {r : AuditRecord} :
    Sound (rs ++ [r]) ↔ Sound rs ∧ Intact r ∧ Follows rs.getLast? r := by
  unfold Sound
  rw [soundFrom_append]
  simp [SoundFrom]

/-- The sequence numbers of such a list count its records. -/
theorem seq_of_sound {rs : List AuditRecord} {r : AuditRecord} (hsound : Sound (rs ++ [r]))
    (hzero : StartsAtZero (rs ++ [r])) : r.payload.seq = UInt64.ofNat rs.length := by
  induction rs using List.reverseRecOn generalizing r with
  | nil => exact hzero r (by simp)
  | append_singleton rs k ih =>
      obtain ⟨hrs, -, hfollows⟩ := sound_snoc.mp hsound
      rw [List.getLast?_concat] at hfollows
      rw [hfollows.1, ih hrs (startsAtZero_of_snoc hzero), List.length_append,
        List.length_singleton, UInt64.ofNat_add]
      rfl

end

/-! ## What the walk accepts -/

section Walk

variable [SerdeJson] [Sha256]

/-- One step of the walk, where the arithmetic has an answer. -/
theorem verifyFrom_cons_intact {profile : Profile} {prev : Option AuditRecord} {index : Nat}
    {r : AuditRecord} {rs : List AuditRecord}
    (hplus : ∀ previous ∈ prev, plusOne profile previous.payload.seq =
      some (previous.payload.seq + 1)) :
    verifyFrom profile prev index (r :: rs) = .intact ↔
      Intact r ∧ Follows prev r ∧ verifyFrom profile (some r) (index + 1) rs = .intact := by
  unfold Intact
  by_cases hhash : r.payload.computeHash = r.recordHash
  · cases prev with
    | none =>
        by_cases hprev : r.payload.prevHash = genesisPrevHash
        · simp [verifyFrom, hhash, hprev, Follows]
        · simp [verifyFrom, hhash, hprev, Follows]
    | some previous =>
        have hseq := hplus previous rfl
        by_cases hnext : r.payload.seq = previous.payload.seq + 1
        · by_cases hprev : r.payload.prevHash = previous.recordHash
          · simp [verifyFrom, hhash, hseq, hnext, hprev, Follows]
          · simp [verifyFrom, hhash, hseq, hnext, hprev, Follows]
        · simp [verifyFrom, hhash, hseq, hnext, Follows]
  · simp [verifyFrom, hhash]

theorem verifyFrom_wrapping {prev : Option AuditRecord} {index : Nat}
    {records : List AuditRecord} :
    verifyFrom .wrapping prev index records = .intact ↔ SoundFrom prev records := by
  induction records generalizing prev index with
  | nil => simp [verifyFrom, SoundFrom]
  | cons r rs ih =>
      rw [verifyFrom_cons_intact (fun _ _ => rfl), ih]
      rfl

/-- Without overflow checks the walk accepts the sound lists. -/
theorem verifyChain_wrapping {records : List AuditRecord} :
    verifyChain .wrapping records = .intact ↔ Sound records :=
  verifyFrom_wrapping

/-- A sound beginning ends at the last sequence number and an intact record comes
behind it. -/
def PastTheEnd (prev : Option AuditRecord) (records : List AuditRecord) : Prop :=
  ∃ before last next after, records = before ++ last :: next :: after ∧
    SoundFrom prev (before ++ [last]) ∧ last.payload.seq = lastSeq ∧ Intact next

/-- The record looked at last has the last sequence number, and an intact one comes. -/
def AtTheEnd (prev : Option AuditRecord) (records : List AuditRecord) : Prop :=
  ∃ previous ∈ prev, previous.payload.seq = lastSeq ∧ ∃ next ∈ records.head?, Intact next

theorem pastTheEnd_cons {prev : Option AuditRecord} {r : AuditRecord} {rs : List AuditRecord} :
    PastTheEnd prev (r :: rs) ↔
      Intact r ∧ Follows prev r ∧ (AtTheEnd (some r) rs ∨ PastTheEnd (some r) rs) := by
  constructor
  · rintro ⟨before, last, next, after, hsplit, hsound, hlast, hnext⟩
    cases before with
    | nil =>
        obtain ⟨rfl, rfl⟩ := List.cons.inj hsplit
        obtain ⟨hr, hfollows, -⟩ := hsound
        exact ⟨hr, hfollows, .inl ⟨r, rfl, hlast, next, rfl, hnext⟩⟩
    | cons b before =>
        obtain ⟨rfl, rfl⟩ := List.cons.inj hsplit
        obtain ⟨hr, hfollows, hrest⟩ := hsound
        exact ⟨hr, hfollows, .inr ⟨before, last, next, after, rfl, hrest, hlast, hnext⟩⟩
  · rintro ⟨hr, hfollows, ⟨previous, hprevious, hlast, next, hhead, hnext⟩ |
      ⟨before, last, next, after, rfl, hsound, hlast, hnext⟩⟩
    · cases hprevious
      obtain ⟨after, rfl⟩ := List.head?_eq_some_iff.mp hhead
      exact ⟨[], r, next, after, rfl, ⟨hr, hfollows, trivial⟩, hlast, hnext⟩
    · exact ⟨r :: before, last, next, after, rfl, ⟨hr, hfollows, hsound⟩, hlast, hnext⟩

/-- Where a build with overflow checks stops. -/
theorem verifyFrom_checked_overflow {prev : Option AuditRecord} {index : Nat}
    {records : List AuditRecord} :
    verifyFrom .checked prev index records = .overflow ↔
      AtTheEnd prev records ∨ PastTheEnd prev records := by
  induction records generalizing prev index with
  | nil => simp [verifyFrom, AtTheEnd, PastTheEnd]
  | cons r rs ih =>
      rw [pastTheEnd_cons]
      by_cases hhash : Intact r
      · have hhash' : r.payload.computeHash = r.recordHash := hhash
        cases prev with
        | none =>
            by_cases hprev : r.payload.prevHash = genesisPrevHash
            · simp [verifyFrom, hhash', hprev, ih, AtTheEnd, Follows, hhash]
            · simp [verifyFrom, hhash', hprev, AtTheEnd, Follows]
        | some previous =>
            by_cases hend : previous.payload.seq = lastSeq
            · simp [verifyFrom, hhash', plusOne_checked_last, AtTheEnd, hend, hhash]
            · have hplus := plusOne_checked_of_ne hend
              by_cases hnext : r.payload.seq = previous.payload.seq + 1
              · by_cases hprev : r.payload.prevHash = previous.recordHash
                · simp [verifyFrom, hhash', hplus, hnext, hprev, ih, AtTheEnd, hend, Follows,
                    hhash]
                · simp [verifyFrom, hhash', hplus, hnext, hprev, AtTheEnd, hend, Follows]
              · simp [verifyFrom, hhash', hplus, hnext, AtTheEnd, hend, Follows]
      · have hhash' : ¬ r.payload.computeHash = r.recordHash := hhash
        simp [verifyFrom, hhash', AtTheEnd, hhash]

/-- A checked build either stops at the overflow or answers as the other one. -/
theorem verifyFrom_checked (prev : Option AuditRecord) (index : Nat)
    (records : List AuditRecord) :
    verifyFrom .checked prev index records = .overflow ∨
      verifyFrom .checked prev index records = verifyFrom .wrapping prev index records := by
  induction records generalizing prev index with
  | nil => exact .inr rfl
  | cons r rs ih =>
      have hrest := ih (some r) (index + 1)
      simp only [verifyFrom]
      split
      · exact .inr rfl
      · cases prev with
        | none =>
            simp only
            split
            · exact .inr rfl
            · exact hrest
        | some previous =>
            by_cases hend : previous.payload.seq = lastSeq
            · left
              simp only [hend, plusOne_checked_last]
            · have hwrap : plusOne .wrapping previous.payload.seq =
                  some (previous.payload.seq + 1) := rfl
              simp only [plusOne_checked_of_ne hend, hwrap]
              split
              · exact .inr rfl
              · split
                · exact .inr rfl
                · exact hrest

theorem verifyChain_checked_overflow {records : List AuditRecord} :
    verifyChain .checked records = .overflow ↔ PastTheEnd none records := by
  unfold verifyChain
  rw [verifyFrom_checked_overflow]
  simp [AtTheEnd]

/-- Away from the end of the sequence numbers every build accepts the sound lists. -/
theorem verifyChain_intact {records : List AuditRecord} (hend : ¬ PastTheEnd none records)
    (profile : Profile) : verifyChain profile records = .intact ↔ Sound records := by
  cases profile with
  | wrapping => exact verifyChain_wrapping
  | checked =>
      rcases verifyFrom_checked none 0 records with hover | hsame
      · exact absurd (verifyChain_checked_overflow.mp hover) hend
      · rw [← verifyChain_wrapping]
        unfold verifyChain
        rw [hsame]

end Walk

/-! ## What the appends produce -/

section Replay

variable [SerdeJson] [Sha256]

/-- Append the entries of a list of records to an empty chain, in order. -/
def replay (records : List AuditRecord) : AuditChain :=
  AuditChain.new.appendAll
    (records.map fun r => (r.payload.entry, r.payload.timestampUnixMillis))

theorem replay_snoc (rs : List AuditRecord) (r : AuditRecord) :
    replay (rs ++ [r]) =
      (replay rs).append r.payload.entry r.payload.timestampUnixMillis := by
  simp [replay, AuditChain.appendAll]

/-- A record is the next one of a chain exactly when it is intact and has the number
and the link the chain gives out. -/
theorem nextRecord_eq_iff {c : AuditChain} {r : AuditRecord} :
    c.nextRecord r.payload.entry r.payload.timestampUnixMillis = r ↔
      Intact r ∧ r.payload.seq = c.nextSeq ∧ r.payload.prevHash = c.headHash := by
  constructor
  · intro h
    rw [← h]
    exact ⟨rfl, rfl, rfl⟩
  · rintro ⟨hintact, hseq, hprev⟩
    rw [AuditRecord.eq_sealPayload_of_hash hintact]
    unfold AuditChain.nextRecord
    rw [← hseq, ← hprev]
    rfl

/-- At the end of a sound list from zero, following the last record means having the
number and the link the chain gives out. -/
theorem follows_iff_next {rs : List AuditRecord} {r : AuditRecord} (hsound : Sound rs)
    (hzero : StartsAtZero rs) :
    (Follows rs.getLast? r ∧ StartsAtZero (rs ++ [r])) ↔
      r.payload.seq = (AuditChain.mk rs).nextSeq ∧
        r.payload.prevHash = (AuditChain.mk rs).headHash := by
  induction rs using List.reverseRecOn with
  | nil => simp [Follows, StartsAtZero, AuditChain.nextSeq, AuditChain.headHash, and_comm]
  | append_singleton rs k _ =>
      have hk := seq_of_sound hsound hzero
      have hfirst : StartsAtZero (rs ++ [k] ++ [r]) ↔ StartsAtZero (rs ++ [k]) := by
        simp [StartsAtZero]
      have hnext : (AuditChain.mk (rs ++ [k])).nextSeq = k.payload.seq + 1 := by
        simp [AuditChain.nextSeq, hk, UInt64.ofNat_add]
      have hhead : (AuditChain.mk (rs ++ [k])).headHash = k.recordHash := by
        simp [AuditChain.headHash]
      rw [List.getLast?_concat, hfirst, hnext, hhead]
      exact ⟨fun h => h.1, fun h => ⟨h, hzero⟩⟩

/-- A list of records is its own replay exactly when it is sound and starts at
zero. -/
theorem replay_eq_iff {records : List AuditRecord} :
    (replay records).records = records ↔ Sound records ∧ StartsAtZero records := by
  induction records using List.reverseRecOn with
  | nil => simp [replay, AuditChain.appendAll, AuditChain.new, Sound, SoundFrom, StartsAtZero]
  | append_singleton rs r ih =>
      have hsplit : (replay (rs ++ [r])).records = rs ++ [r] ↔
          (replay rs).records = rs ∧
            (replay rs).nextRecord r.payload.entry r.payload.timestampUnixMillis = r := by
        rw [replay_snoc]
        unfold AuditChain.append
        constructor
        · intro h
          obtain ⟨hinit, hlast⟩ := List.append_inj' h rfl
          exact ⟨hinit, List.cons.inj hlast |>.1⟩
        · rintro ⟨hinit, hlast⟩
          simp only [hlast, hinit]
      rw [hsplit, ih, nextRecord_eq_iff, sound_snoc]
      constructor
      · rintro ⟨⟨hsound, hzero⟩, hintact, hnext⟩
        have hchain : replay rs = ⟨rs⟩ := congrArg AuditChain.mk (ih.mpr ⟨hsound, hzero⟩)
        rw [hchain] at hnext
        obtain ⟨hfollows, hzero'⟩ := (follows_iff_next hsound hzero).mpr hnext
        exact ⟨⟨hsound, hintact, hfollows⟩, hzero'⟩
      · rintro ⟨⟨hsound, hintact, hfollows⟩, hzero'⟩
        have hzero := startsAtZero_of_snoc hzero'
        have hchain : replay rs = ⟨rs⟩ := congrArg AuditChain.mk (ih.mpr ⟨hsound, hzero⟩)
        rw [hchain]
        exact ⟨⟨hsound, hzero⟩, hintact, (follows_iff_next hsound hzero).mp ⟨hfollows, hzero'⟩⟩

/-- Whatever is appended to an empty chain is sound and starts at zero. -/
theorem appendAll_sound (entries : List (NewEntry × UInt64)) :
    Sound (AuditChain.new.appendAll entries).records ∧
      StartsAtZero (AuditChain.new.appendAll entries).records := by
  rw [← replay_eq_iff]
  induction entries using List.reverseRecOn with
  | nil => rfl
  | append_singleton entries entry ih =>
      have hchain : AuditChain.new.appendAll (entries ++ [entry]) =
          (AuditChain.new.appendAll entries).append entry.1 entry.2 := by
        simp [AuditChain.appendAll]
      have hreplay : replay (AuditChain.new.appendAll entries).records =
          AuditChain.new.appendAll entries := congrArg AuditChain.mk ih
      rw [hchain]
      unfold AuditChain.append
      rw [replay_snoc, hreplay]
      rfl

/-- The walk and the appends agree on a list of records: it verifies when appends
produced it, it verifies only as the result of appending its own entries, and the
arithmetic of the walk does not overflow on it. -/
structure Exact (records : List AuditRecord) : Prop where
  produced : ∀ profile entries, (AuditChain.new.appendAll entries).records = records →
    verifyChain profile records = .intact
  verified : ∀ profile, verifyChain profile records = .intact →
    (replay records).records = records
  noOverflow : verifyChain .checked records ≠ .overflow

/-- The verifier and the writer agree exactly on the lists that are not sound from a
first number other than zero, and that do not go on with an intact record behind a
sound beginning that ends at the last number. -/
theorem exact_iff (records : List AuditRecord) :
    Exact records ↔
      ¬ (Sound records ∧ ¬ StartsAtZero records) ∧
        ¬ ∃ before last next after, records = before ++ last :: next :: after ∧
          Sound (before ++ [last]) ∧ last.payload.seq = lastSeq ∧ Intact next := by
  constructor
  · intro h
    constructor
    · rintro ⟨hsound, hzero⟩
      have hreplay := h.verified .wrapping (verifyChain_wrapping.mpr hsound)
      exact hzero (replay_eq_iff.mp hreplay).2
    · intro hend
      exact h.noOverflow (verifyChain_checked_overflow.mpr hend)
  · rintro ⟨hzero, hend⟩
    have haccepts := verifyChain_intact hend
    refine ⟨?_, ?_, fun hover => hend (verifyChain_checked_overflow.mp hover)⟩
    · intro profile entries hentries
      rw [haccepts, ← hentries]
      exact (appendAll_sound entries).1
    · intro profile hintact
      have hsound := (haccepts profile).mp hintact
      exact replay_eq_iff.mpr ⟨hsound, not_not.mp fun hnot => hzero ⟨hsound, hnot⟩⟩

end Replay

/-! ## A chain that does not start at its genesis -/

/-- The `serde_json` crate on a few payloads: it reads back what it writes for them. -/
@[reducible] def SerdeJson.knowing (payloads : List AuditPayload) : SerdeJson :=
  { f64 := fun _ => "null"
    fromStr := fun text =>
      let _writer : SerdeJson := ⟨fun _ => "null", fun _ => .error "expected value"⟩
      match payloads.find? fun p => AuditPayload.json p = text with
      | some p => .ok p
      | none => .error "expected value at line 1 column 1" }

/-- The entry of a plain `SELECT 1`. -/
def selectOne : NewEntry :=
  { statementText := "SELECT 1"
    decision := .allow
    reasonCode := "ok"
    reason := none
    principal := ⟨"pgb_agent", none, none⟩
    intent := .default
    writeSafety := ⟨none, none⟩ }

/-- The record of `SELECT 1` under the sequence number `seq`, with the genesis in front
of it. -/
def selectOneAt [SerdeJson] [Sha256] (seq : UInt64) : AuditRecord :=
  .sealPayload (selectOne.payload seq 42 genesisPrevHash)

theorem sound_selectOneAt [SerdeJson] [Sha256] (seq : UInt64) : Sound [selectOneAt seq] :=
  ⟨rfl, rfl, trivial⟩

/-- One record with the number 5 and the genesis in front of it verifies, and two
records behind the last number overflow. -/
theorem lateGenesis_not_exact :
    letI := SerdeJson.knowing []
    letI := Sha256.standard
    ¬ Exact [selectOneAt 5] ∧ ¬ Exact [selectOneAt lastSeq, selectOneAt 0] := by
  let _ := SerdeJson.knowing []
  let _ := Sha256.standard
  constructor
  · intro h
    have hintact := verifyChain_wrapping.mpr (sound_selectOneAt 5)
    have hreplay := replay_eq_iff.mp (h.verified .wrapping hintact)
    exact absurd (hreplay.2 (selectOneAt 5) rfl) (by decide)
  · intro h
    refine h.noOverflow (verifyChain_checked_overflow.mpr ?_)
    exact ⟨[], selectOneAt lastSeq, selectOneAt 0, [], rfl, sound_selectOneAt lastSeq, rfl, rfl⟩

end PgBrakes.Ports.Audit
