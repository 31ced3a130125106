import PgBrakes.Ports.Approval

/-!
# Audit records and their canonical encoding

A port of `crates/audit/src/record.rs`, with the intent tiers of
`crates/policy/src/intent.rs` that every payload embeds.  A payload is hashed as
the compact JSON that `serde_json` writes for it, behind the bytes of the hash it
names as its predecessor's; a record is a payload with that hash.

The writer is spelled out: the order of the fields, the blocks that are skipped when
they are empty, and the escapes of a string.  Two things stay with the `serde_json`
crate and enter as the class `SerdeJson`: the text of a floating-point number, and
reading a text back.

## Main results

* `computeHash_injective` — equal hashes come from equal payloads, where the hash
  function and the encoding keep the two apart.
-/

namespace PgBrakes.Ports.Audit

open PgBrakes.Ports.KeyChecksum
open PgBrakes.Ports.Approval (Decision)
open PgBrakes.Ports.Grant (hexEncode_injective)

/-- A SHA-256 digest in lower-case hexadecimal. -/
abbrev Hash := String

/-- The predecessor hash of the first record, 64 zeros. -/
def genesisPrevHash : Hash :=
  "0000000000000000000000000000000000000000000000000000000000000000"

/-! ## The logged intent -/

/-- A map with its keys in order, as `BTreeMap` keeps it. -/
structure SortedMap where
  entries : List (String × String)
  sorted : entries.Pairwise fun a b => a.1 < b.1
deriving DecidableEq

def SortedMap.empty : SortedMap := ⟨[], List.Pairwise.nil⟩

/-- The bits of an `f64`. -/
structure F64 where
  bits : UInt64
deriving DecidableEq

structure TierT0 where
  role : String
  purpose : Option String
deriving DecidableEq

structure IntentAnnotation where
  intent : Option String
  ticket : Option String
  actor : Option String
deriving DecidableEq

structure TierT1 where
  statementText : String
  statementClass : Option String
  applicationName : Option String
  gucs : SortedMap
  annotation : IntentAnnotation
deriving DecidableEq

structure ObservedStep where
  stepClass : String
  tables : List String
  atMonotonicMillis : UInt64
deriving DecidableEq

structure TierT2 where
  querySequence : List ObservedStep
  readsBeforeWrite : Bool
  ratePerMin : Option F64
  tables : List String
deriving DecidableEq

/-- The tiers T0 to T2, logged with every action. -/
structure IntentTiers where
  t0 : TierT0
  t1 : TierT1
  t2 : TierT2
deriving DecidableEq

/-- `IntentTiers::default`: every text empty, every option and list absent. -/
def IntentTiers.default : IntentTiers :=
  { t0 := ⟨"", none⟩
    t1 := ⟨"", none, none, SortedMap.empty, ⟨none, none, none⟩⟩
    t2 := ⟨[], false, none, []⟩ }

/-! ## Payloads -/

structure Principal where
  role : String
  sessionId : Option String
  principal : Option String
deriving DecidableEq

structure WriteSafetyRefs where
  dryRunId : Option String
  blastRadiusRef : Option String
deriving DecidableEq

def WriteSafetyRefs.isEmpty (w : WriteSafetyRefs) : Bool :=
  w.dryRunId.isNone && w.blastRadiusRef.isNone

/-- The hashed portion of a record: everything except its own hash. -/
structure AuditPayload where
  /-- The position in the chain; 0 is the genesis record. -/
  seq : UInt64
  statementText : String
  decision : Decision
  reasonCode : String
  reason : Option String
  principal : Principal
  intent : IntentTiers
  writeSafety : WriteSafetyRefs
  timestampUnixMillis : UInt64
  prevHash : Hash
deriving DecidableEq

/-- What the `serde_json` crate decides. -/
class SerdeJson where
  /-- The text of an `f64`. -/
  f64 : F64 → String
  /-- `serde_json::from_str`, with the error as it is displayed. -/
  fromStr : String → Except String AuditPayload

/-! ## The JSON writer -/

/-- One character inside a JSON string. -/
def escapeChar (c : Char) : List Char :=
  if c = '"' then ['\\', '"']
  else if c = '\\' then ['\\', '\\']
  else if c.toNat = 8 then ['\\', 'b']
  else if c.toNat = 9 then ['\\', 't']
  else if c.toNat = 10 then ['\\', 'n']
  else if c.toNat = 12 then ['\\', 'f']
  else if c.toNat = 13 then ['\\', 'r']
  else if c.toNat < 32 then
    ['\\', 'u', '0', '0', hexDigit (c.toNat / 16), hexDigit (c.toNat % 16)]
  else [c]

def jsonString (s : String) : String :=
  "\"" ++ String.ofList (s.toList.flatMap escapeChar) ++ "\""

def jsonArray (items : List String) : String :=
  "[" ++ String.intercalate "," items ++ "]"

/-- An object with its fields in the order given. -/
def jsonObject (fields : List (String × String)) : String :=
  let members := fields.map fun field => jsonString field.1 ++ ":" ++ field.2
  "\x7b" ++ String.intercalate "," members ++ "\x7d"

def jsonBool (b : Bool) : String := if b then "true" else "false"

def jsonU64 (n : UInt64) : String := toString n.toNat

/-- A field that is written only when it is there, `skip_serializing_if`. -/
def skipNone (name : String) (value : Option String) : List (String × String) :=
  value.toList.map fun text => (name, text)

/-- A list that is written only when it has items. -/
def skipEmpty (name : String) (items : List String) : List (String × String) :=
  if items.isEmpty then [] else [(name, jsonArray items)]

section Encode

variable [SerdeJson]

/-- The variants are renamed to upper case. -/
def jsonDecision : Decision → String
  | .allow => jsonString "ALLOW"
  | .block => jsonString "BLOCK"
  | .reject => jsonString "REJECT"

def TierT0.json (t : TierT0) : String :=
  jsonObject <|
    [("role", jsonString t.role)] ++ skipNone "purpose" (t.purpose.map jsonString)

def IntentAnnotation.json (a : IntentAnnotation) : String :=
  jsonObject <|
    skipNone "intent" (a.intent.map jsonString) ++
      skipNone "ticket" (a.ticket.map jsonString) ++
      skipNone "actor" (a.actor.map jsonString)

/-- A map is an object; an empty one is skipped. -/
def SortedMap.fields (name : String) (m : SortedMap) : List (String × String) :=
  if m.entries.isEmpty then []
  else [(name, jsonObject (m.entries.map fun entry => (entry.1, jsonString entry.2)))]

def TierT1.json (t : TierT1) : String :=
  jsonObject <|
    [("statement_text", jsonString t.statementText)] ++
      skipNone "statement_class" (t.statementClass.map jsonString) ++
      skipNone "application_name" (t.applicationName.map jsonString) ++
      t.gucs.fields "gucs" ++ [("annotation", t.annotation.json)]

def ObservedStep.json (s : ObservedStep) : String :=
  jsonObject <|
    [("class", jsonString s.stepClass)] ++ skipEmpty "tables" (s.tables.map jsonString) ++
      [("at_monotonic_millis", jsonU64 s.atMonotonicMillis)]

def TierT2.json (t : TierT2) : String :=
  jsonObject <|
    skipEmpty "query_sequence" (t.querySequence.map ObservedStep.json) ++
      [("reads_before_write", jsonBool t.readsBeforeWrite)] ++
      skipNone "rate_per_min" (t.ratePerMin.map SerdeJson.f64) ++
      skipEmpty "tables" (t.tables.map jsonString)

def IntentTiers.json (t : IntentTiers) : String :=
  jsonObject [("t0", t.t0.json), ("t1", t.t1.json), ("t2", t.t2.json)]

def Principal.json (p : Principal) : String :=
  jsonObject <|
    [("role", jsonString p.role)] ++ skipNone "session_id" (p.sessionId.map jsonString) ++
      skipNone "principal" (p.principal.map jsonString)

def WriteSafetyRefs.json (w : WriteSafetyRefs) : String :=
  jsonObject <|
    skipNone "dry_run_id" (w.dryRunId.map jsonString) ++
      skipNone "blast_radius_ref" (w.blastRadiusRef.map jsonString)

namespace AuditPayload

/-- `serde_json::to_string`: the fields in the order of the struct. -/
def json (p : AuditPayload) : String :=
  jsonObject <|
    [("seq", jsonU64 p.seq), ("statement_text", jsonString p.statementText),
      ("decision", jsonDecision p.decision), ("reason_code", jsonString p.reasonCode)] ++
    skipNone "reason" (p.reason.map jsonString) ++
    [("principal", p.principal.json)] ++
    (if p.intent = IntentTiers.default then [] else [("intent", p.intent.json)]) ++
    (if p.writeSafety.isEmpty then [] else [("write_safety", p.writeSafety.json)]) ++
    [("timestamp_unix_millis", jsonU64 p.timestampUnixMillis),
      ("prev_hash", jsonString p.prevHash)]

/-- The bytes that are hashed. -/
def canonicalBytes (p : AuditPayload) : List UInt8 := utf8 p.json

/-- The stream the hash absorbs: the bytes of the predecessor's hash, then the
encoding. -/
def hashInput (p : AuditPayload) : List UInt8 := utf8 p.prevHash ++ p.canonicalBytes

def computeHash [Sha256] (p : AuditPayload) : Hash := hexEncode (Sha256.digest p.hashInput)

end AuditPayload

end Encode

/-! ## Hashes -/

theorem utf8_ofList_length (cs : List Char) :
    (utf8 (String.ofList cs)).length = (cs.map Char.utf8Size).sum := by
  rw [utf8_length]
  induction cs with
  | nil => rfl
  | cons c cs ih =>
      have hsplit : String.ofList (c :: cs) = String.singleton c ++ String.ofList cs := by
        apply String.toList_inj.mp
        simp
      rw [hsplit, String.utf8ByteSize_append, String.utf8ByteSize_singleton, ih, List.map_cons,
        List.sum_cons]

theorem hexDigit_utf8Size {n : Nat} (h : n < 16) : (hexDigit n).utf8Size = 1 := by
  have hall : ∀ m : Fin 16, (hexDigit m.val).utf8Size = 1 := by decide
  exact hall ⟨n, h⟩

theorem utf8_hexEncode_length (bs : List UInt8) :
    (utf8 (hexEncode bs)).length = 2 * bs.length := by
  unfold hexEncode
  rw [utf8_ofList_length]
  induction bs with
  | nil => rfl
  | cons b bs ih =>
      have hb : b.toNat < 256 := b.toNat_lt
      have hhi := hexDigit_utf8Size (n := b.toNat / 16) (by omega)
      have hlo := hexDigit_utf8Size (n := b.toNat % 16) (by omega)
      simp only [List.flatMap_cons, List.cons_append, List.nil_append, List.map_cons,
        List.sum_cons, hhi, hlo, ih, List.length_cons]
      omega

theorem utf8_genesisPrevHash_length : (utf8 genesisPrevHash).length = 64 := rfl

variable [SerdeJson] [Sha256]

/-- A hash has 64 characters, as the genesis has. -/
theorem utf8_computeHash_length (hlen : ∀ bytes, (Sha256.digest bytes).length = 32)
    (p : AuditPayload) : (utf8 p.computeHash).length = 64 := by
  unfold AuditPayload.computeHash
  rw [utf8_hexEncode_length, hlen]

/-- Equal hashes come from equal payloads.  The two predecessors' hashes have one
length, so the stream splits where they end. -/
theorem computeHash_injective {p q : AuditPayload}
    (hprev : (utf8 p.prevHash).length = (utf8 q.prevHash).length)
    (hdigest : Sha256.digest p.hashInput = Sha256.digest q.hashInput → p.hashInput = q.hashInput)
    (hjson : p.canonicalBytes = q.canonicalBytes → p = q)
    (h : p.computeHash = q.computeHash) : p = q := by
  have hstream : p.hashInput = q.hashInput := hdigest (hexEncode_injective h)
  exact hjson (List.append_inj_right hstream hprev)

/-! ## Records -/

/-- A payload with its hash. -/
structure AuditRecord where
  payload : AuditPayload
  recordHash : Hash
deriving DecidableEq

namespace AuditRecord

/-- Seal a payload by computing its hash. -/
def sealPayload (payload : AuditPayload) : AuditRecord :=
  { payload := payload, recordHash := payload.computeHash }

@[simp] theorem sealPayload_payload (p : AuditPayload) : (sealPayload p).payload = p := rfl

theorem eq_sealPayload_of_hash {r : AuditRecord} (h : r.payload.computeHash = r.recordHash) :
    r = sealPayload r.payload := by
  obtain ⟨payload, recordHash⟩ := r
  simp only [sealPayload, AuditRecord.mk.injEq, true_and]
  exact h.symm

end AuditRecord

end PgBrakes.Ports.Audit
