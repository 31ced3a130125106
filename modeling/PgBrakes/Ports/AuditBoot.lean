import PgBrakes.Ports.AuditAnchor
import PgBrakes.Ports.AuditWriters

/-!
# Booting over the anchored audit chain

A port of `crates/audit/src/boot.rs`: the two ways a process starts.  The owner of the
anchor verifies and then anchors, any other process verifies only.  A boot loads the
stored chain, verifies it, and compares its head with the newest anchor when there is
one.

## Main results

* `AuditBoot.boot_ok` — an accepted boot has found a verified chain with the anchored
  head.
* `tamper_evident` — a boot against an anchor over a verified chain accepts that chain
  and no other.
-/

namespace PgBrakes.Ports.Audit

open PgBrakes.Verified.History
open PgBrakes.Verified.MachineWord
open PgBrakes.Ports.KeyChecksum
open PgBrakes.Ports.Approval (SinkError)

/-- Why a boot refuses to start.  A checked build that overflows while it verifies
panics, which stops it too. -/
inductive BootError where
  | connect (message : String)
  | sink (e : SinkError)
  | worm (message : String)
  | chainIntegrity (at_ : ChainBreak)
  | anchorHeadMismatch (anchoredHead actualHead : Hash) (anchoredSeq : UInt64)
  | anchor (e : AnchorError)
  | panicked
deriving DecidableEq

/-- The role of a process over the shared anchor. -/
inductive AnchorRole where
  | owner
  | verify
deriving DecidableEq

/-- The boot handle: the anchor log, the anchorer, and the key that verifies a log
opened from its file. -/
structure AuditBoot where
  worm : WormAnchor
  anchorer : Anchorer
  verifier : LocalKms
deriving DecidableEq

namespace AuditBoot

def withWorm (signer : LocalKms) (intervalMillis : Nat) (worm : WormAnchor) : AuditBoot :=
  { worm := worm
    anchorer := .new signer intervalMillis
    verifier := signer }

section

variable [SerdeJson] [Sha256]

/-- Load the stored chain and verify it. -/
def loadVerified (profile : Profile) (table : AuditTable) :
    Except BootError (List AuditRecord) :=
  match table.loadChain with
  | .error e => .error (.sink e)
  | .ok records =>
      match verifyChain profile records with
      | .intact => .ok records
      | .broken at_ => .error (.chainIntegrity at_)
      | .overflow => .error .panicked

theorem loadVerified_ok {profile : Profile} {table : AuditTable} {records : List AuditRecord} :
    loadVerified profile table = .ok records ↔
      table.loadChain = .ok records ∧ verifyChain profile records = .intact := by
  constructor
  · intro h
    unfold loadVerified at h
    split at h
    · cases h
    next rs hload =>
      split at h
      next hverify =>
        cases h
        exact ⟨hload, hverify⟩
      · cases h
      · cases h
  · rintro ⟨hload, hverify⟩
    simp only [loadVerified, hload, hverify]

end

section

variable [HmacSha256]

def assertHeadMatchesDurableAnchor (b : AuditBoot) (records : List AuditRecord) :
    Except BootError Unit :=
  match verifyRecordsAgainstAnchorWith records b.worm b.verifier with
  | .error e => .error (.anchor e)
  | .ok .verified => .ok ()
  | .ok (.headMismatch anchored actual seq) => .error (.anchorHeadMismatch anchored actual seq)

/-- The check of both boots: against the newest anchor, when one was published. -/
def assertAgainstAnchor (b : AuditBoot) (records : List AuditRecord) : Except BootError Unit :=
  if b.worm.latest.isSome then b.assertHeadMatchesDurableAnchor records else .ok ()

/-- The head check against an entry published over a chain. -/
theorem assertHead_published {b : AuditBoot} {anchored records : List AuditRecord}
    (hlatest : b.worm.latest = some (Anchorer.entryFor b.verifier anchored)) :
    b.assertHeadMatchesDurableAnchor records = .ok () ↔
      (headOf records).1 = (headOf anchored).1 := by
  unfold assertHeadMatchesDurableAnchor
  rw [verifyAgainst_published hlatest]
  by_cases hhead : (headOf records).1 = (headOf anchored).1
  · simp [hhead]
  · simp [hhead]

variable [SerdeJson] [Sha256]

/-- What a boot checks before anything is anchored: the records it has found. -/
def check (profile : Profile) (b : AuditBoot) (table : AuditTable) :
    Except BootError (List AuditRecord) :=
  match loadVerified profile table with
  | .error e => .error e
  | .ok records => (b.assertAgainstAnchor records).map fun _ => records

omit [SerdeJson] [Sha256] in
/-- `maybe_anchor_records` through the handle. -/
def publish (b : AuditBoot) (records : List AuditRecord) (nowMonotonicMillis : Nat)
    (io : Except String Unit) : Except BootError (Option Anchored) × AuditBoot :=
  let out := b.anchorer.maybeAnchorRecords records nowMonotonicMillis b.worm io
  (out.1.mapError .worm, { b with anchorer := out.2.1, worm := out.2.2 })

/-- The owner's boot: verify, then anchor the current head forward. -/
def verifyThenAnchor (profile : Profile) (b : AuditBoot) (table : AuditTable)
    (nowMonotonicMillis : Nat) (io : Except String Unit) : Except BootError Unit × AuditBoot :=
  match b.check profile table with
  | .error e => (.error e, b)
  | .ok records =>
      ((b.publish records nowMonotonicMillis io).1.map fun _ => (),
        (b.publish records nowMonotonicMillis io).2)

/-- The boot of everyone else: verify, never anchor. -/
def verifyOnly (profile : Profile) (b : AuditBoot) (table : AuditTable) :
    Except BootError Unit :=
  (b.check profile table).map fun _ => ()

def boot (profile : Profile) (b : AuditBoot) (role : AnchorRole) (table : AuditTable)
    (nowMonotonicMillis : Nat) (io : Except String Unit) : Except BootError Unit × AuditBoot :=
  match role with
  | .owner => b.verifyThenAnchor profile table nowMonotonicMillis io
  | .verify => (b.verifyOnly profile table, b)

/-- The check alone, which fails when nothing was published. -/
def startupVerify (profile : Profile) (b : AuditBoot) (table : AuditTable) :
    Except BootError Unit :=
  match loadVerified profile table with
  | .error e => .error e
  | .ok records => b.assertHeadMatchesDurableAnchor records

/-! ## What a boot accepts -/

theorem check_ok {profile : Profile} {b : AuditBoot} {table : AuditTable}
    {records : List AuditRecord} :
    b.check profile table = .ok records ↔
      loadVerified profile table = .ok records ∧ b.assertAgainstAnchor records = .ok () := by
  unfold check
  cases loadVerified profile table with
  | error e => simp
  | ok found =>
      constructor
      · intro h
        cases hassert : b.assertAgainstAnchor found with
        | error e => simp [hassert, Except.map] at h
        | ok u =>
            simp only [hassert, Except.map, Except.ok.injEq] at h
            subst h
            exact ⟨rfl, hassert⟩
      · rintro ⟨hfound, hassert⟩
        cases hfound
        simp only [hassert, Except.map]

/-- Each of the checks accepts only a verified chain with the anchored head. -/
theorem boot_ok {profile : Profile} {b : AuditBoot} {table : AuditTable}
    {anchored : List AuditRecord} {role : AnchorRole} {now : Nat} {io : Except String Unit}
    (hlatest : b.worm.latest = some (Anchorer.entryFor b.verifier anchored))
    (h : (b.boot profile role table now io).1 = .ok ()) :
    ∃ records, table.loadChain = .ok records ∧ verifyChain profile records = .intact ∧
      (headOf records).1 = (headOf anchored).1 := by
  have hchecked : ∃ records, b.check profile table = .ok records := by
    unfold boot verifyThenAnchor verifyOnly at h
    cases hcheck : b.check profile table with
    | ok records => exact ⟨records, rfl⟩
    | error e => cases role <;> simp [hcheck, Except.map] at h
  obtain ⟨records, hrecords⟩ := hchecked
  obtain ⟨hload, hassert⟩ := check_ok.mp hrecords
  obtain ⟨hchain, hintact⟩ := loadVerified_ok.mp hload
  have hhead : b.assertHeadMatchesDurableAnchor records = .ok () := by
    simpa [assertAgainstAnchor, hlatest] using hassert
  exact ⟨records, hchain, hintact, (assertHead_published hlatest).mp hhead⟩

theorem startupVerify_ok {profile : Profile} {b : AuditBoot} {table : AuditTable}
    {anchored : List AuditRecord}
    (hlatest : b.worm.latest = some (Anchorer.entryFor b.verifier anchored))
    (h : b.startupVerify profile table = .ok ()) :
    ∃ records, table.loadChain = .ok records ∧ verifyChain profile records = .intact ∧
      (headOf records).1 = (headOf anchored).1 := by
  unfold startupVerify at h
  cases hload : loadVerified profile table with
  | error e => simp [hload] at h
  | ok records =>
      obtain ⟨hchain, hintact⟩ := loadVerified_ok.mp hload
      simp only [hload] at h
      exact ⟨records, hchain, hintact, (assertHead_published hlatest).mp h⟩

end

end AuditBoot

section Tampering

variable [SerdeJson] [Sha256] [HmacSha256]

/-- Two verified chains with one head are one chain.  Against an anchor that the same
key published over a verified chain `ys`, every boot therefore accepts a stored chain
only when it is `ys`, and refuses it after any change. -/
theorem tamper_evident (profile : Profile) {xs ys : List AuditRecord}
    (hapart : ToldApart (xs ++ ys)) (hys : verifyChain profile ys = .intact) :
    (verifyChain profile xs = .intact → (headOf xs).1 = (headOf ys).1 →
      (headOf xs).2.1 = (headOf ys).2.1 → xs = ys) ∧
    ∀ (b : AuditBoot) (table : AuditTable) (now : Nat) (io : Except String Unit),
      table.loadChain = .ok xs →
      b.worm.latest = some (Anchorer.entryFor b.verifier ys) →
      (∀ role, (b.boot profile role table now io).1 = .ok () → xs = ys) ∧
        (b.startupVerify profile table = .ok () → xs = ys) ∧
        (xs ≠ ys → (∀ role, ∃ e, (b.boot profile role table now io).1 = .error e) ∧
          ∃ e, b.startupVerify profile table = .error e) := by
  have hsame : ∀ records, verifyChain profile records = .intact → records = xs →
      (headOf records).1 = (headOf ys).1 → xs = ys := by
    intro records hrecords hxs hhead
    subst hxs
    exact eq_of_head hapart (sound_of_intact hrecords) (sound_of_intact hys) hhead
  refine ⟨fun hxs hhead _ => hsame xs hxs rfl hhead, ?_⟩
  intro b table now io hload hlatest
  have hboot : ∀ role, (b.boot profile role table now io).1 = .ok () → xs = ys := by
    intro role hok
    obtain ⟨records, hrecords, hintact, hhead⟩ := AuditBoot.boot_ok hlatest hok
    exact hsame records hintact (Except.ok.inj (hrecords.symm.trans hload)) hhead
  have hstartup : b.startupVerify profile table = .ok () → xs = ys := by
    intro hok
    obtain ⟨records, hrecords, hintact, hhead⟩ := AuditBoot.startupVerify_ok hlatest hok
    exact hsame records hintact (Except.ok.inj (hrecords.symm.trans hload)) hhead
  refine ⟨hboot, hstartup, fun hne => ⟨fun role => ?_, ?_⟩⟩
  · cases hresult : (b.boot profile role table now io).1 with
    | error e => exact ⟨e, rfl⟩
    | ok u => exact absurd (hboot role hresult) hne
  · cases hresult : b.startupVerify profile table with
    | error e => exact ⟨e, rfl⟩
    | ok u => exact absurd (hstartup hresult) hne

end Tampering

/-- The development key. -/
def devKms : LocalKms := ⟨"audit-chain-head", utf8 "boot-test-key-000001"⟩

/-- The table that holds the first of two records. -/
def truncatedTable [SerdeJson] [Sha256] : AuditTable :=
  (run System.step (twoWriters.take 7) (System.initial : System Bool)).2.table

theorem truncatedTable_loads :
    letI := twoTexts
    letI := Sha256.standard
    truncatedTable.loadChain = .ok [.sealPayload firstSelect] := by
  decide +kernel

theorem toldApart_twoSelects :
    letI := twoTexts
    letI := Sha256.standard
    ToldApart [.sealPayload firstSelect, .sealPayload firstSelect, .sealPayload secondSelect] := by
  let _ := twoTexts
  let _ := Sha256.standard
  have hfirst : firstSelect.computeHash = firstHash := (select_hashes _).1
  have hsecond : secondSelect.computeHash = secondHash := (select_hashes _).2
  have hstreams : ∀ p q : AuditPayload, Sha256.digest p.hashInput = Sha256.digest q.hashInput →
      p.computeHash = q.computeHash := fun _ _ h => congrArg hexEncode h
  have hne : firstHash ≠ secondHash := by decide
  have htexts : firstSelect.canonicalBytes ≠ secondSelect.canonicalBytes := by decide +kernel
  have hpayload : ∀ r ∈ [AuditRecord.sealPayload firstSelect, .sealPayload firstSelect,
      .sealPayload secondSelect], r.payload = firstSelect ∨ r.payload = secondSelect := by
    simp [AuditRecord.sealPayload]
  refine ⟨PgBrakes.Verified.Sha256.digest_length, ?_, ?_, ?_⟩
  · rintro _ ⟨r, hr, rfl⟩ _ ⟨r', hr', rfl⟩ hdigest
    have hhash := hstreams _ _ hdigest
    rcases hpayload r hr with hp | hp
    all_goals rcases hpayload r' hr' with hp' | hp'
    all_goals simp_all
  · rintro _ ⟨r, hr, rfl⟩ _ ⟨r', hr', rfl⟩ hbytes
    rcases hpayload r hr with hp | hp
    all_goals rcases hpayload r' hr' with hp' | hp'
    all_goals simp_all
  · intro r hr
    rcases hpayload r hr with hp | hp
    · rw [hp, hfirst]
      decide
    · rw [hp, hsecond]
      decide

/-- A chain of two linked records was anchored, and the first one is found alone. -/
theorem tamper_evident_truncated :
    letI := twoTexts
    letI := Sha256.standard
    letI := HmacSha256.standard
    let b := AuditBoot.withWorm devKms 1000
      (.openFile [Anchorer.entryFor devKms [.sealPayload firstSelect, .sealPayload secondSelect]])
    (∃ e, (b.boot .checked .owner truncatedTable 0 (.ok ())).1 = .error e) ∧
      ∃ e, (b.boot .checked .verify truncatedTable 0 (.ok ())).1 = .error e := by
  let _ := twoTexts
  let _ := Sha256.standard
  let _ := HmacSha256.standard
  intro b
  have hchain := chainOf_twoSelects (selectTexts ++ [])
  have hsound : verifyChain .checked [.sealPayload firstSelect, .sealPayload secondSelect] =
      .intact := by
    rw [← hchain]
    exact verifyChain_chainOf (by decide) .checked
  have hall := (tamper_evident .checked toldApart_twoSelects hsound).2 b truncatedTable 0 (.ok ())
    truncatedTable_loads rfl
  have hrefused := (hall.2.2 (by simp)).1
  exact ⟨hrefused .owner, hrefused .verify⟩

end PgBrakes.Ports.Audit
