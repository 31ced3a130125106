import PgBrakes.Ports.AuditChain

/-!
# The signed anchor of the audit chain

A port of `crates/audit/src/kms.rs` and `anchor.rs`.  From time to time the head of
the chain is signed and appended to a log outside the database.  A list of records is
later compared with the newest entry: its signature must verify, and the head of the
list must be the head it signs.

The message authentication code of the `hmac` crate enters as the class `HmacSha256`.
An entry is one line of the anchor file, and `writeln!` writes the line before its line
break: a write that fails can leave a part of the line behind, or all of it without the
break.  The text of an entry stays with the `serde_json` crate, which reads a whole line
and neither a part of one nor two of them in a row.

## Main results

* `eq_of_head` — two verified chains with one head are one chain.
* `verifyAgainst_published` — a list passes against an entry that was published over
  a chain exactly when it has the head of that chain.
-/

namespace PgBrakes.Ports.Audit

open PgBrakes.Verified.SelfDelimiting
open PgBrakes.Verified.HashChain
open PgBrakes.Verified.MachineWord
open PgBrakes.Ports.KeyChecksum
open PgBrakes.Ports.Grant (hexDecode hexDecode_hexEncode)

/-! ## Signing the head -/

/-- HMAC-SHA256 of the `hmac` crate: key, message, tag. -/
class HmacSha256 where
  tag : List UInt8 → List UInt8 → List UInt8

/-- The function the crate implements: the key is filled up to a block, or hashed when
it is longer. -/
@[reducible] def HmacSha256.standard : HmacSha256 where
  tag key message :=
    let short := if key.length ≤ 64 then key else PgBrakes.Verified.Sha256.digest key
    let block := short ++ List.replicate (64 - short.length) 0
    PgBrakes.Verified.Sha256.digest (block.map (· ^^^ 0x5c) ++
      PgBrakes.Verified.Sha256.digest (block.map (· ^^^ 0x36) ++ message))

/-- The local signing capability: a key and its id. -/
structure LocalKms where
  keyId : String
  key : List UInt8
deriving DecidableEq

structure HeadSignature where
  keyId : String
  signature : String
deriving DecidableEq

/-- The bytes that are signed. -/
def headSigningInput (headHash : Hash) (seq timestampUnixMillis : UInt64) : List UInt8 :=
  utf8 "pgb-audit-anchor:v1" ++ [0] ++ beBytes 8 (utf8 headHash).length ++ utf8 headHash ++
    beBytes 8 seq.toNat ++ beBytes 8 timestampUnixMillis.toNat

namespace LocalKms

variable [HmacSha256]

def signHead (kms : LocalKms) (headHash : Hash) (seq timestampUnixMillis : UInt64) :
    HeadSignature :=
  { keyId := kms.keyId
    signature := hexEncode
      (HmacSha256.tag kms.key (headSigningInput headHash seq timestampUnixMillis)) }

def verifyHead (kms : LocalKms) (headHash : Hash) (seq timestampUnixMillis : UInt64)
    (sig : HeadSignature) : Bool :=
  if sig.keyId ≠ kms.keyId then false
  else
    match hexDecode sig.signature.toList with
    | none => false
    | some raw => HmacSha256.tag kms.key (headSigningInput headHash seq timestampUnixMillis) = raw

/-- A signature verifies under the key that made it. -/
theorem verifyHead_signHead (kms : LocalKms) (headHash : Hash)
    (seq timestampUnixMillis : UInt64) :
    kms.verifyHead headHash seq timestampUnixMillis
      (kms.signHead headHash seq timestampUnixMillis) = true := by
  simp [verifyHead, signHead, hexDecode_hexEncode]

end LocalKms

/-! ## The log of anchors -/

/-- A signed snapshot of the head. -/
structure AnchorEntry where
  headHash : Hash
  seq : UInt64
  timestampUnixMillis : UInt64
  signature : HeadSignature
deriving DecidableEq

/-- What a tick that published reports. -/
structure Anchored where
  seq : UInt64
  headHash : Hash
deriving DecidableEq

inductive AnchorError where
  | noAnchor
  | badSignature (seq : UInt64)
  | noVerifier
deriving DecidableEq

def AnchorError.toString : AnchorError → String
  | .noAnchor => "no anchor has been published yet"
  | .badSignature seq =>
      "anchored head signature is invalid (anchor tampered): seq " ++ jsonU64 seq
  | .noVerifier => "no KMS verifier available; call verify_against_anchor_with(.., verifier)"

inductive AnchorVerification where
  | verified
  | headMismatch (anchoredHead actualHead : Hash) (anchoredSeq : UInt64)
deriving DecidableEq

/-- The head of a list of records: hash, number and time of the last one. -/
def headOf (records : List AuditRecord) : Hash × UInt64 × UInt64 :=
  match records.getLast? with
  | some r => (r.recordHash, r.payload.seq, r.payload.timestampUnixMillis)
  | none => (genesisPrevHash, 0, 0)

/-- The append-only log.  It carries the verifier of the anchorer that wrote through
it; a log that was opened from its file has none. -/
structure WormAnchor where
  entries : List AnchorEntry
  verifier : Option LocalKms
deriving DecidableEq

namespace WormAnchor

def new : WormAnchor := ⟨[], none⟩

/-- Open the file with the entries published so far. -/
def openFile (published : List AnchorEntry) : WormAnchor := ⟨published, none⟩

def latest (w : WormAnchor) : Option AnchorEntry := w.entries.getLast?

/-- Append an entry; an I/O error of the file leaves the log as it was. -/
def append (w : WormAnchor) (entry : AnchorEntry) (io : Except String Unit) :
    Except String WormAnchor :=
  match io with
  | .ok () => .ok { w with entries := w.entries ++ [entry] }
  | .error e => .error ("worm anchor file io error: " ++ e)

end WormAnchor

/-- What the text between two line breaks of the anchor file reads as. -/
inductive AnchorLine where
  | entry (e : AnchorEntry)
  /-- No entry. -/
  | torn
deriving DecidableEq

def AnchorLine.parse : AnchorLine → Except String AnchorEntry
  | .entry e => .ok e
  | .torn => .error "corrupt worm anchor file (bad entry json)"

/-- The anchor file: its lines, and what stands behind the last line break. -/
structure AnchorFile where
  lines : List AnchorLine
  rest : Option AnchorLine
deriving DecidableEq

/-- What a failed write of a line has left in the file. -/
inductive Remains where
  | nothing
  /-- Some of its bytes, and not all. -/
  | part
  /-- All of it but the line break. -/
  | unended
deriving DecidableEq

/-- What the file system answers to the write of a line. -/
inductive FileAnswer where
  | written
  | failed (error : String) (remains : Remains)
deriving DecidableEq

def FileAnswer.io : FileAnswer → Except String Unit
  | .written => .ok ()
  | .failed error _ => .error error

namespace AnchorFile

def empty : AnchorFile := ⟨[], none⟩

/-- A whole line behind what stands there already. -/
def joined (f : AnchorFile) (entry : AnchorEntry) : AnchorLine :=
  if f.rest.isSome then .torn else .entry entry

def write (f : AnchorFile) (entry : AnchorEntry) : FileAnswer → AnchorFile
  | .written => ⟨f.lines ++ [f.joined entry], none⟩
  | .failed _ .nothing => f
  | .failed _ .part => { f with rest := some .torn }
  | .failed _ .unended => { f with rest := some (f.joined entry) }

/-- The entries of a file without torn lines. -/
def entries (f : AnchorFile) : Except String (List AnchorEntry) :=
  (f.lines ++ f.rest.toList).mapM AnchorLine.parse

/-- `WormAnchor::open_file`, with what the file system answers. -/
def openFile (f : AnchorFile) (answer : Except String Unit) : Except String WormAnchor :=
  match answer with
  | .error e => .error ("worm anchor file io error: " ++ e)
  | .ok () => f.entries.map WormAnchor.openFile

theorem entries_empty : empty.entries = .ok [] := rfl

/-- A whole line behind a line break is one more entry, also where its own break is
missing. -/
theorem entries_snoc {f : AnchorFile} {published : List AnchorEntry}
    (h : f.entries = .ok published) (hrest : f.rest = none) (entry : AnchorEntry) :
    AnchorFile.entries ⟨f.lines ++ [.entry entry], none⟩ = .ok (published ++ [entry]) ∧
      AnchorFile.entries ⟨f.lines, some (.entry entry)⟩ = .ok (published ++ [entry]) := by
  unfold entries at h
  rw [hrest, Option.toList_none, List.append_nil] at h
  have hsnoc : (f.lines ++ [AnchorLine.entry entry]).mapM AnchorLine.parse =
      .ok (published ++ [entry]) := by
    rw [List.mapM_append, h]
    rfl
  constructor
  · simpa [entries] using hsnoc
  · simpa [entries] using hsnoc

end AnchorFile

/-- Decides at each tick whether to publish. -/
structure Anchorer where
  signer : LocalKms
  intervalMillis : Nat
  lastAnchorAt : Option Nat
deriving DecidableEq

namespace Anchorer

variable [HmacSha256]

def new (signer : LocalKms) (intervalMillis : Nat) : Anchorer := ⟨signer, intervalMillis, none⟩

/-- The first tick is due, and then every tick an interval behind the last anchor. -/
def due (a : Anchorer) (nowMonotonicMillis : Nat) : Bool :=
  match a.lastAnchorAt with
  | none => true
  | some prev => decide (nowMonotonicMillis - prev ≥ a.intervalMillis)

/-- The entry a signer publishes over a list of records. -/
def entryFor (signer : LocalKms) (records : List AuditRecord) : AnchorEntry :=
  let head := headOf records
  { headHash := head.1
    seq := head.2.1
    timestampUnixMillis := head.2.2
    signature := signer.signHead head.1 head.2.1 head.2.2 }

/-- `maybe_anchor_records`: the answer, the anchorer and the log behind it. -/
def maybeAnchorRecords (a : Anchorer) (records : List AuditRecord) (nowMonotonicMillis : Nat)
    (worm : WormAnchor) (io : Except String Unit) :
    Except String (Option Anchored) × Anchorer × WormAnchor :=
  if a.due nowMonotonicMillis = false then (.ok none, a, worm)
  else
    let entry := entryFor a.signer records
    match worm.append entry io with
    | .error e => (.error e, a, worm)
    | .ok worm' =>
        (.ok (some ⟨entry.seq, entry.headHash⟩),
          { a with lastAnchorAt := some nowMonotonicMillis },
          { worm' with verifier := some a.signer })

end Anchorer

section

variable [HmacSha256]

/-- `verify_records_against_anchor_with`: the newest entry must be signed, and its head
must be the head of the records. -/
def verifyRecordsAgainstAnchorWith (records : List AuditRecord) (worm : WormAnchor)
    (verifier : LocalKms) : Except AnchorError AnchorVerification :=
  match worm.latest with
  | none => .error .noAnchor
  | some anchor =>
      if verifier.verifyHead anchor.headHash anchor.seq anchor.timestampUnixMillis
          anchor.signature = false then
        .error (.badSignature anchor.seq)
      else if (headOf records).1 = anchor.headHash then .ok .verified
      else .ok (.headMismatch anchor.headHash (headOf records).1 anchor.seq)

/-- Against an entry the same key published over a chain, a list passes exactly when
it has the head hash of that chain. -/
theorem verifyAgainst_published {kms : LocalKms} {worm : WormAnchor}
    {anchored records : List AuditRecord}
    (hlatest : worm.latest = some (Anchorer.entryFor kms anchored)) :
    verifyRecordsAgainstAnchorWith records worm kms =
      if (headOf records).1 = (headOf anchored).1 then .ok .verified
      else .ok (.headMismatch (headOf anchored).1 (headOf records).1 (headOf anchored).2.1) := by
  have hsigned := kms.verifyHead_signHead (headOf anchored).1 (headOf anchored).2.1
    (headOf anchored).2.2
  unfold verifyRecordsAgainstAnchorWith
  simp only [hlatest]
  rw [if_neg]
  · rfl
  · intro hbad
    exact absurd (hsigned.symm.trans hbad) (by decide)

end

/-! ## The head pins the chain down -/

theorem headOf_eq_headFrom (records : List AuditRecord) :
    (headOf records).1 = headFrom AuditRecord.recordHash genesisPrevHash records := by
  induction records using List.reverseRecOn with
  | nil => rfl
  | append_singleton rs r _ =>
      rw [headFrom_snoc]
      simp [headOf]

section Head

variable [SerdeJson] [Sha256]

/-- What keeps the records of a list apart: the hash has no collision among their
streams and never gives the genesis, and the encoding is injective on their
payloads. -/
structure ToldApart (records : List AuditRecord) : Prop where
  /-- A SHA-256 digest has 32 bytes. -/
  digestLength : ∀ bytes, (Sha256.digest bytes).length = 32
  collisionFree : Set.InjOn Sha256.digest {bytes | ∃ r ∈ records, bytes = r.payload.hashInput}
  canonical : Set.InjOn AuditPayload.canonicalBytes {p | ∃ r ∈ records, p = r.payload}
  /-- No payload hashes to all zeros. -/
  notGenesis : ∀ r ∈ records, r.payload.computeHash ≠ genesisPrevHash

theorem intact_of_sound {prev : Option AuditRecord} {records : List AuditRecord}
    (h : SoundFrom prev records) : ∀ r ∈ records, Intact r := by
  induction records generalizing prev with
  | nil => simp
  | cons r rs ih =>
      obtain ⟨hr, -, hrest⟩ := h
      intro a ha
      rcases List.mem_cons.mp ha with rfl | ha
      · exact hr
      · exact ih hrest a ha

/-- A sound list is linked by its hashes. -/
theorem linkedFrom_of_sound {prev : Option AuditRecord} {records : List AuditRecord}
    (h : SoundFrom prev records) :
    LinkedFrom AuditRecord.recordHash (fun r => r.payload.prevHash)
      ((prev.map AuditRecord.recordHash).getD genesisPrevHash) records := by
  induction records generalizing prev with
  | nil => trivial
  | cons r rs ih =>
      obtain ⟨-, hfollows, hrest⟩ := h
      refine ⟨?_, ih hrest⟩
      cases prev with
      | none => exact hfollows
      | some previous => exact hfollows.2

/-- The predecessors' hashes in a sound list all have 64 characters. -/
theorem prevHash_length (hlen : ∀ bytes, (Sha256.digest bytes).length = 32)
    {prev : Option AuditRecord} {records : List AuditRecord} (hprev : ∀ p ∈ prev, Intact p)
    (h : SoundFrom prev records) :
    ∀ r ∈ records, (utf8 r.payload.prevHash).length = 64 := by
  induction records generalizing prev with
  | nil => simp
  | cons r rs ih =>
      obtain ⟨hr, hfollows, hrest⟩ := h
      intro a ha
      rcases List.mem_cons.mp ha with rfl | ha
      · cases prev with
        | none =>
            have hgenesis : a.payload.prevHash = genesisPrevHash := hfollows
            rw [hgenesis]
            exact utf8_genesisPrevHash_length
        | some previous =>
            have hintact : previous.payload.computeHash = previous.recordHash :=
              hprev previous rfl
            rw [hfollows.2, ← hintact]
            exact utf8_computeHash_length hlen _
      · refine ih ?_ hrest a ha
        intro p hp
        cases hp
        exact hr

/-- A verified list is sound, whatever the build. -/
theorem sound_of_intact {profile : Profile} {records : List AuditRecord}
    (h : verifyChain profile records = .intact) : Sound records := by
  cases profile with
  | wrapping => exact verifyChain_wrapping.mp h
  | checked =>
      have hend : ¬ PastTheEnd none records := by
        intro hend
        rw [verifyChain_checked_overflow.mpr hend] at h
        cases h
      exact (verifyChain_intact hend .checked).mp h

/-- Two sound chains with one head hash are one chain. -/
theorem eq_of_head {xs ys : List AuditRecord} (hapart : ToldApart (xs ++ ys))
    (hx : Sound xs) (hy : Sound ys) (hhead : (headOf xs).1 = (headOf ys).1) : xs = ys := by
  have hxi := intact_of_sound hx
  have hyi := intact_of_sound hy
  have hxl := prevHash_length hapart.digestLength (by simp) hx
  have hyl := prevHash_length hapart.digestLength (by simp) hy
  have hnot : ∀ r ∈ xs ++ ys, Intact r → r.recordHash ≠ genesisPrevHash := by
    intro r hr hri
    have hri' : r.payload.computeHash = r.recordHash := hri
    rw [← hri']
    exact hapart.notGenesis r hr
  rw [headOf_eq_headFrom, headOf_eq_headFrom] at hhead
  refine LinkedFrom.eq_of_head (linkedFrom_of_sound hx) (linkedFrom_of_sound hy) ?_ ?_ ?_ hhead
  · intro x hxm y hym heq
    have hx' : x.payload.computeHash = x.recordHash := hxi x hxm
    have hy' : y.payload.computeHash = y.recordHash := hyi y hym
    have hpayload : x.payload = y.payload := by
      refine computeHash_injective ((hxl x hxm).trans (hyl y hym).symm) ?_ ?_ ?_
      · exact hapart.collisionFree ⟨x, by simp [hxm], rfl⟩ ⟨y, by simp [hym], rfl⟩
      · exact hapart.canonical ⟨x, by simp [hxm], rfl⟩ ⟨y, by simp [hym], rfl⟩
      · rw [hx', hy', heq]
    obtain ⟨_, _⟩ := x
    obtain ⟨_, _⟩ := y
    simp_all
  · intro x hxm
    exact hnot x (by simp [hxm]) (hxi x hxm)
  · intro y hym
    exact hnot y (by simp [hym]) (hyi y hym)

end Head

end PgBrakes.Ports.Audit
