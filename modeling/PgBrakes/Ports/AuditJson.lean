import Mathlib.Data.String.Basic
import PgBrakes.Verified.JsonValue
import PgBrakes.Ports.AuditRecord

/-!
# Reading an audit payload back

The derived `Serialize` and `Deserialize` of the structs in `crates/audit/src/record.rs`
and `crates/policy/src/intent.rs`, over JSON values.  Every struct is written with its
fields in order; the attributes say which of them are left out where they are empty, and
which may be missing.  A payload is written where the hash is computed, and read where a
row of the audit table is loaded.

The text stays with the `serde_json` crate: the digits of a finite `f64`, a text as a
value, digits as an `f64`, and the error it displays.  A number that is not finite is
written as `null`, and `null` reads as no number at all.

## Main results

* `AuditPayload.json_eq_render` — the canonical text is the text of the value.
* `AuditPayload.fromJson_toJson` — what a payload reads back as: itself, up to its
  `rate_per_min`.
-/

namespace PgBrakes.Ports.Audit

open PgBrakes.Verified.JsonValue
open PgBrakes.Ports.Approval (Decision)

/-- Whether an `f64` is a number: its exponent is not all ones. -/
def F64.isFinite (x : F64) : Bool := x.bits >>> 52 &&& 0x7ff != 0x7ff

/-- What the `serde_json` crate decides about texts. -/
class JsonReader where
  /-- The digits of a finite `f64`. -/
  f64 : F64 → String
  /-- A text as a value, where it is one. -/
  parse : String → Option Json
  /-- The digits of a number as an `f64`. -/
  readF64 : String → Option F64
  /-- The displayed error on a text that is no payload. -/
  error : String → String

/-! ## Values and their text -/

mutual

/-- The compact text of a value. -/
def render : Json → String
  | .null => "null"
  | .bool b => jsonBool b
  | .number digits => digits
  | .text s => jsonString s
  | .array items => jsonArray (renderItems items)
  | .object members => jsonObject (renderMembers members)

def renderItems : List Json → List String
  | [] => []
  | item :: items => render item :: renderItems items

def renderMembers : List (String × Json) → List (String × String)
  | [] => []
  | (name, value) :: members => (name, render value) :: renderMembers members

end

theorem renderItems_eq_map (items : List Json) : renderItems items = items.map render := by
  induction items with
  | nil => rfl
  | cons item items ih =>
      show render item :: renderItems items = render item :: items.map render
      rw [ih]

theorem renderMembers_eq_map (members : List (String × Json)) :
    renderMembers members = members.map fun member => (member.1, render member.2) := by
  induction members with
  | nil => rfl
  | cons member members ih =>
      obtain ⟨name, value⟩ := member
      show (name, render value) :: renderMembers members = (name, render value) :: _
      rw [ih]

@[simp] theorem render_bool (b : Bool) : render (.bool b) = jsonBool b := rfl

@[simp] theorem render_number (digits : String) : render (.number digits) = digits := rfl

@[simp] theorem render_text (s : String) : render (.text s) = jsonString s := rfl

@[simp] theorem render_array (items : List Json) :
    render (.array items) = jsonArray (items.map render) := by
  rw [← renderItems_eq_map]
  rfl

@[simp] theorem render_object (members : List (String × Json)) :
    render (.object members) =
      jsonObject (members.map fun member => (member.1, render member.2)) := by
  rw [← renderMembers_eq_map]
  rfl

@[simp] theorem render_comp_text : render ∘ Json.text = jsonString := by
  funext s
  rfl

/-- A number without sign, fraction and exponent, where it fits. -/
def readU64 : Json → Option UInt64
  | .number digits =>
      if digits ≠ "" ∧ digits.toList.all Char.isDigit then
        let n := Nat.ofDigitChars 10 digits.toList 0
        if n < 2 ^ 64 then some (UInt64.ofNat n) else none
      else none
  | _ => none

@[simp] theorem readU64_jsonU64 (n : UInt64) : readU64 (.number (jsonU64 n)) = some n := by
  have hdigits : (jsonU64 n).toList = Nat.toDigits 10 n.toNat := by
    rw [jsonU64, Nat.toString_eq_repr, Nat.toList_repr]
  have hne : jsonU64 n ≠ "" := by
    rw [jsonU64, Nat.toString_eq_repr]
    exact Nat.repr_ne_empty
  have hall : (jsonU64 n).toList.all Char.isDigit = true := by
    rw [hdigits, List.all_eq_true]
    intro c hc
    exact Nat.isDigit_of_mem_toDigits (by decide) (by decide) hc
  have hvalue : Nat.ofDigitChars 10 (jsonU64 n).toList 0 = n.toNat := by
    rw [hdigits]
    exact Nat.ofDigitChars_toDigits (by decide) (by decide)
  simp only [readU64]
  rw [if_pos ⟨hne, hall⟩, hvalue]
  rw [if_pos n.toNat_lt, UInt64.ofNat_toNat]

/-! ## Sorted maps -/

namespace SortedMap

/-- `BTreeMap::insert` on the entries: a key that is there gets the new value. -/
def insertEntry (key value : String) : List (String × String) → List (String × String)
  | [] => [(key, value)]
  | entry :: entries =>
      if key < entry.1 then (key, value) :: entry :: entries
      else if key = entry.1 then (key, value) :: entries
      else entry :: insertEntry key value entries

theorem mem_insertEntry {key value : String} {entries : List (String × String)}
    {entry : String × String} (h : entry ∈ insertEntry key value entries) :
    entry = (key, value) ∨ entry ∈ entries := by
  induction entries with
  | nil => exact .inl (List.mem_singleton.mp h)
  | cons first entries ih =>
      unfold insertEntry at h
      split at h
      · exact List.mem_cons.mp h
      · split at h
        · rcases List.mem_cons.mp h with h | h
          · exact .inl h
          · exact .inr (List.mem_cons_of_mem _ h)
        · rcases List.mem_cons.mp h with h | h
          · exact .inr (h ▸ List.mem_cons_self)
          · rcases ih h with h | h
            · exact .inl h
            · exact .inr (List.mem_cons_of_mem _ h)

theorem insertEntry_sorted {entries : List (String × String)}
    (h : entries.Pairwise fun a b => a.1 < b.1) (key value : String) :
    (insertEntry key value entries).Pairwise fun a b => a.1 < b.1 := by
  induction entries with
  | nil => exact List.pairwise_singleton _ _
  | cons first entries ih =>
      rw [List.pairwise_cons] at h
      unfold insertEntry
      split
      next hlt =>
        refine List.pairwise_cons.mpr ⟨?_, List.pairwise_cons.mpr h⟩
        intro entry hentry
        rcases List.mem_cons.mp hentry with rfl | hentry
        · exact hlt
        · exact lt_trans hlt (h.1 entry hentry)
      next hge =>
        split
        next heq =>
          refine List.pairwise_cons.mpr ⟨?_, h.2⟩
          intro entry hentry
          rw [heq]
          exact h.1 entry hentry
        next hne =>
          refine List.pairwise_cons.mpr ⟨?_, ih h.2⟩
          intro entry hentry
          rcases mem_insertEntry hentry with rfl | hentry
          · exact lt_of_le_of_ne (not_lt.mp hge) (Ne.symm hne)
          · exact h.1 entry hentry

def insert (m : SortedMap) (key value : String) : SortedMap :=
  ⟨insertEntry key value m.entries, insertEntry_sorted m.sorted key value⟩

/-- A key behind all others comes last. -/
theorem insertEntry_last {entries : List (String × String)} {key : String}
    (h : ∀ entry ∈ entries, entry.1 < key) (value : String) :
    insertEntry key value entries = entries ++ [(key, value)] := by
  induction entries with
  | nil => rfl
  | cons first entries ih =>
      have hfirst := h first (by simp)
      unfold insertEntry
      rw [if_neg (not_lt_of_gt hfirst), if_neg (ne_of_gt hfirst),
        ih fun entry hentry => h entry (by simp [hentry])]
      rfl

/-- An object is read member by member; a key that comes again replaces the first. -/
def readMembers (m : SortedMap) : List (String × Json) → Option SortedMap
  | [] => some m
  | (key, value) :: members =>
      match readText value with
      | some text => readMembers (m.insert key text) members
      | none => none

def fromJson : Json → Option SortedMap
  | .object members => readMembers empty members
  | _ => none

def toJson (m : SortedMap) : Json :=
  .object (m.entries.map fun entry => (entry.1, .text entry.2))

/-- Members in the order of their keys are appended one by one. -/
theorem readMembers_sorted {m n : SortedMap} {rest : List (String × String)}
    (h : n.entries = m.entries ++ rest) :
    readMembers m (rest.map fun entry => (entry.1, .text entry.2)) = some n := by
  induction rest generalizing m with
  | nil =>
      obtain ⟨entries, sorted⟩ := m
      obtain ⟨entries', sorted'⟩ := n
      simp only [List.append_nil] at h
      subst h
      rfl
  | cons entry rest ih =>
      have hsorted := n.sorted
      rw [h, List.pairwise_append] at hsorted
      have hlast : insertEntry entry.1 entry.2 m.entries = m.entries ++ [entry] :=
        insertEntry_last (fun a ha => hsorted.2.2 a ha entry (by simp)) entry.2
      show readMembers (m.insert entry.1 entry.2) _ = some n
      apply ih
      show n.entries = insertEntry entry.1 entry.2 m.entries ++ rest
      rw [hlast, h, List.append_assoc]
      rfl

theorem fromJson_toJson (m : SortedMap) : fromJson m.toJson = some m :=
  readMembers_sorted rfl

end SortedMap

/-! ## The structs -/

/-- A list that is left out where it is empty. -/
def itemsSlot {α : Type} (write : α → Json) (items : List α) : Option Json :=
  if items.isEmpty then none else some (.array (items.map write))

/-- The variants of `Decision` under their upper-case names, alone or as the one member
of an object. -/
def readDecision : Json → Option Decision
  | .text "ALLOW" | .object [("ALLOW", .null)] => some .allow
  | .text "BLOCK" | .object [("BLOCK", .null)] => some .block
  | .text "REJECT" | .object [("REJECT", .null)] => some .reject
  | _ => none

def writeDecision : Decision → Json
  | .allow => .text "ALLOW"
  | .block => .text "BLOCK"
  | .reject => .text "REJECT"

namespace TierT0

def toJson (t : TierT0) : Json :=
  .struct [("role", some (.text t.role)), ("purpose", t.purpose.map .text)]

def fromJson (value : Json) : Option TierT0 := do
  let field ← value.fields ["role", "purpose"]
  let role ← required readText (field "role")
  let purpose ← orDefault none (readOption readText) (field "purpose")
  return ⟨role, purpose⟩

end TierT0

namespace IntentAnnotation

def toJson (a : IntentAnnotation) : Json :=
  .struct [("intent", a.intent.map .text), ("ticket", a.ticket.map .text),
    ("actor", a.actor.map .text)]

def fromJson (value : Json) : Option IntentAnnotation := do
  let field ← value.fields ["intent", "ticket", "actor"]
  let intent ← orDefault none (readOption readText) (field "intent")
  let ticket ← orDefault none (readOption readText) (field "ticket")
  let actor ← orDefault none (readOption readText) (field "actor")
  return ⟨intent, ticket, actor⟩

end IntentAnnotation

namespace TierT1

def toJson (t : TierT1) : Json :=
  .struct [("statement_text", some (.text t.statementText)),
    ("statement_class", t.statementClass.map .text),
    ("application_name", t.applicationName.map .text),
    ("gucs", if t.gucs.entries.isEmpty then none else some t.gucs.toJson),
    ("annotation", some t.annotation.toJson)]

def fromJson (value : Json) : Option TierT1 := do
  let field ← value.fields
    ["statement_text", "statement_class", "application_name", "gucs", "annotation"]
  let statementText ← required readText (field "statement_text")
  let statementClass ← orDefault none (readOption readText) (field "statement_class")
  let applicationName ← orDefault none (readOption readText) (field "application_name")
  let gucs ← orDefault SortedMap.empty SortedMap.fromJson (field "gucs")
  let annotation ← orDefault ⟨none, none, none⟩ IntentAnnotation.fromJson (field "annotation")
  return ⟨statementText, statementClass, applicationName, gucs, annotation⟩

end TierT1

namespace ObservedStep

def toJson (s : ObservedStep) : Json :=
  .struct [("class", some (.text s.stepClass)), ("tables", itemsSlot .text s.tables),
    ("at_monotonic_millis", some (.number (jsonU64 s.atMonotonicMillis)))]

def fromJson (value : Json) : Option ObservedStep := do
  let field ← value.fields ["class", "tables", "at_monotonic_millis"]
  let stepClass ← required readText (field "class")
  let tables ← orDefault [] (readSeq readText) (field "tables")
  let atMonotonicMillis ← required readU64 (field "at_monotonic_millis")
  return ⟨stepClass, tables, atMonotonicMillis⟩

end ObservedStep

namespace Principal

def toJson (p : Principal) : Json :=
  .struct [("role", some (.text p.role)), ("session_id", p.sessionId.map .text),
    ("principal", p.principal.map .text)]

def fromJson (value : Json) : Option Principal := do
  let field ← value.fields ["role", "session_id", "principal"]
  let role ← required readText (field "role")
  let sessionId ← orDefault none (readOption readText) (field "session_id")
  let principal ← orDefault none (readOption readText) (field "principal")
  return ⟨role, sessionId, principal⟩

end Principal

namespace WriteSafetyRefs

def toJson (w : WriteSafetyRefs) : Json :=
  .struct [("dry_run_id", w.dryRunId.map .text),
    ("blast_radius_ref", w.blastRadiusRef.map .text)]

def fromJson (value : Json) : Option WriteSafetyRefs := do
  let field ← value.fields ["dry_run_id", "blast_radius_ref"]
  let dryRunId ← orDefault none (readOption readText) (field "dry_run_id")
  let blastRadiusRef ← orDefault none (readOption readText) (field "blast_radius_ref")
  return ⟨dryRunId, blastRadiusRef⟩

end WriteSafetyRefs

section Reader

variable [JsonReader]

/-- An `f64`; a number that is not finite is written as `null`. -/
def writeF64 (x : F64) : Json := if x.isFinite then .number (JsonReader.f64 x) else .null

def readF64 : Json → Option F64
  | .number digits => JsonReader.readF64 digits
  | _ => none

namespace TierT2

def toJson (t : TierT2) : Json :=
  .struct [("query_sequence", itemsSlot ObservedStep.toJson t.querySequence),
    ("reads_before_write", some (.bool t.readsBeforeWrite)),
    ("rate_per_min", t.ratePerMin.map writeF64),
    ("tables", itemsSlot .text t.tables)]

def fromJson (value : Json) : Option TierT2 := do
  let field ← value.fields ["query_sequence", "reads_before_write", "rate_per_min", "tables"]
  let querySequence ← orDefault [] (readSeq ObservedStep.fromJson) (field "query_sequence")
  let readsBeforeWrite ← orDefault false readBool (field "reads_before_write")
  let ratePerMin ← orDefault none (readOption readF64) (field "rate_per_min")
  let tables ← orDefault [] (readSeq readText) (field "tables")
  return ⟨querySequence, readsBeforeWrite, ratePerMin, tables⟩

end TierT2

namespace IntentTiers

def toJson (t : IntentTiers) : Json :=
  .struct [("t0", some t.t0.toJson), ("t1", some t.t1.toJson), ("t2", some t.t2.toJson)]

def fromJson (value : Json) : Option IntentTiers := do
  let field ← value.fields ["t0", "t1", "t2"]
  let t0 ← orDefault IntentTiers.default.t0 TierT0.fromJson (field "t0")
  let t1 ← orDefault IntentTiers.default.t1 TierT1.fromJson (field "t1")
  let t2 ← orDefault IntentTiers.default.t2 TierT2.fromJson (field "t2")
  return ⟨t0, t1, t2⟩

end IntentTiers

namespace AuditPayload

def toJson (p : AuditPayload) : Json :=
  .struct [("seq", some (.number (jsonU64 p.seq))),
    ("statement_text", some (.text p.statementText)),
    ("decision", some (writeDecision p.decision)),
    ("reason_code", some (.text p.reasonCode)),
    ("reason", p.reason.map .text),
    ("principal", some p.principal.toJson),
    ("intent", if p.intent = IntentTiers.default then none else some p.intent.toJson),
    ("write_safety", if p.writeSafety.isEmpty then none else some p.writeSafety.toJson),
    ("timestamp_unix_millis", some (.number (jsonU64 p.timestampUnixMillis))),
    ("prev_hash", some (.text p.prevHash))]

def fromJson (value : Json) : Option AuditPayload := do
  let field ← value.fields
    ["seq", "statement_text", "decision", "reason_code", "reason", "principal", "intent",
      "write_safety", "timestamp_unix_millis", "prev_hash"]
  let seq ← required readU64 (field "seq")
  let statementText ← required readText (field "statement_text")
  let decision ← required readDecision (field "decision")
  let reasonCode ← required readText (field "reason_code")
  let reason ← orDefault none (readOption readText) (field "reason")
  let principal ← required Principal.fromJson (field "principal")
  let intent ← orDefault IntentTiers.default IntentTiers.fromJson (field "intent")
  let writeSafety ← orDefault ⟨none, none⟩ WriteSafetyRefs.fromJson (field "write_safety")
  let timestampUnixMillis ← required readU64 (field "timestamp_unix_millis")
  let prevHash ← required readText (field "prev_hash")
  return ⟨seq, statementText, decision, reasonCode, reason, principal, intent, writeSafety,
    timestampUnixMillis, prevHash⟩

end AuditPayload

/-- The crate with the derived impls: how a payload is written, and `from_str`. -/
instance JsonReader.toSerdeJson : SerdeJson where
  f64 x := render (writeF64 x)
  fromStr text :=
    match (JsonReader.parse text).bind AuditPayload.fromJson with
    | some payload => .ok payload
    | none => .error (JsonReader.error text)

end Reader

/-! ## The canonical text -/

section Text

/-- A record is written slot by slot. -/
def renderSlots : List (String × Option Json) → List (String × String)
  | [] => []
  | (name, value) :: slots => skipNone name (value.map render) ++ renderSlots slots

theorem render_struct (slots : List (String × Option Json)) :
    render (.struct slots) = jsonObject (renderSlots slots) := by
  have hslots : renderMembers (Json.filled slots) = renderSlots slots := by
    induction slots with
    | nil => rfl
    | cons slot slots ih =>
        obtain ⟨name, _ | value⟩ := slot
        · exact ih
        · show (name, render value) :: renderMembers (Json.filled slots) =
            (name, render value) :: renderSlots slots
          rw [ih]
  show jsonObject (renderMembers (Json.filled slots)) = _
  rw [hslots]

@[simp] theorem renderSlots_nil : renderSlots [] = [] := rfl

@[simp] theorem renderSlots_cons (name : String) (value : Option Json)
    (slots : List (String × Option Json)) :
    renderSlots ((name, value) :: slots) =
      skipNone name (value.map render) ++ renderSlots slots := rfl

@[simp] theorem skipNone_some (name text : String) : skipNone name (some text) = [(name, text)] :=
  rfl

/-- A list that is left out, as a slot and as a member. -/
@[simp] theorem skipNone_itemsSlot {α : Type} (name : String) (write : α → Json)
    (items : List α) :
    skipNone name ((itemsSlot write items).map render) =
      skipEmpty name (items.map fun item => render (write item)) := by
  cases items with
  | nil => rfl
  | cons item items => simp [itemsSlot, skipEmpty, skipNone, Function.comp_def]

theorem TierT0.render_toJson (t : TierT0) : t.json = render t.toJson := by
  simp [TierT0.json, toJson, render_struct]

theorem IntentAnnotation.render_toJson (a : IntentAnnotation) : a.json = render a.toJson := by
  simp [toJson, render_struct, IntentAnnotation.json]

theorem SortedMap.render_toJson (name : String) (m : SortedMap) :
    m.fields name =
      skipNone name ((if m.entries.isEmpty then none else some m.toJson).map render) := by
  unfold SortedMap.fields
  split
  · rfl
  · simp [toJson, Function.comp_def]

theorem TierT1.render_toJson (t : TierT1) : t.json = render t.toJson := by
  rw [TierT1.json, SortedMap.render_toJson, IntentAnnotation.render_toJson]
  simp [toJson, render_struct]

theorem ObservedStep.render_toJson (s : ObservedStep) : s.json = render s.toJson := by
  simp [ObservedStep.json, toJson, render_struct]

theorem Principal.render_toJson (p : Principal) : p.json = render p.toJson := by
  simp [Principal.json, toJson, render_struct]

theorem WriteSafetyRefs.render_toJson (w : WriteSafetyRefs) : w.json = render w.toJson := by
  simp [WriteSafetyRefs.json, toJson, render_struct]

theorem render_writeDecision (d : Decision) : jsonDecision d = render (writeDecision d) := by
  cases d with
  | allow => rfl
  | block => rfl
  | reject => rfl

variable [JsonReader]

theorem TierT2.render_toJson (t : TierT2) : t.json = render t.toJson := by
  have hrate : skipNone "rate_per_min" (t.ratePerMin.map SerdeJson.f64) =
      skipNone "rate_per_min" ((t.ratePerMin.map writeF64).map render) := by
    cases t.ratePerMin with
    | none => rfl
    | some x => rfl
  have hsteps : t.querySequence.map ObservedStep.json =
      t.querySequence.map fun step => render step.toJson :=
    List.map_congr_left fun step _ => step.render_toJson
  rw [TierT2.json, hrate, hsteps]
  simp [toJson, render_struct]

theorem IntentTiers.render_toJson (t : IntentTiers) : t.json = render t.toJson := by
  rw [IntentTiers.json, TierT0.render_toJson, TierT1.render_toJson, TierT2.render_toJson]
  simp [toJson, render_struct]

/-- The canonical text of a payload is the text of its value. -/
theorem AuditPayload.json_eq_render (p : AuditPayload) : p.json = render p.toJson := by
  have hintent : (if p.intent = IntentTiers.default then [] else [("intent", p.intent.json)]) =
      skipNone "intent" ((if p.intent = IntentTiers.default then none
        else some p.intent.toJson).map render) := by
    split
    · rfl
    · rw [IntentTiers.render_toJson]
      rfl
  have hrefs : (if p.writeSafety.isEmpty then [] else [("write_safety", p.writeSafety.json)]) =
      skipNone "write_safety" ((if p.writeSafety.isEmpty then none
        else some p.writeSafety.toJson).map render) := by
    split
    · rfl
    · rw [WriteSafetyRefs.render_toJson]
      rfl
  rw [AuditPayload.json, hintent, hrefs, Principal.render_toJson, render_writeDecision]
  simp [toJson, render_struct]

end Text

/-! ## Payloads read back -/

section RoundTrip

@[simp] theorem orDefault_itemsSlot_text (items : List String) :
    orDefault [] (readSeq readText) (itemsSlot .text items) = some items :=
  orDefault_items_text items

theorem TierT0.fromJson_toJson (t : TierT0) : fromJson t.toJson = some t := by
  simp [fromJson, toJson, fields_struct, List.lookup_cons]

theorem IntentAnnotation.fromJson_toJson (a : IntentAnnotation) :
    fromJson a.toJson = some a := by
  simp [fromJson, toJson, fields_struct, List.lookup_cons]

theorem SortedMap.eq_empty_of_isEmpty {m : SortedMap} (h : m.entries.isEmpty) : m = empty := by
  obtain ⟨entries, sorted⟩ := m
  have hnil : entries = [] := List.isEmpty_iff.mp h
  subst hnil
  rfl

theorem TierT1.fromJson_toJson (t : TierT1) : fromJson t.toJson = some t := by
  have hgucs : orDefault SortedMap.empty SortedMap.fromJson
      (if t.gucs.entries.isEmpty then none else some t.gucs.toJson) = some t.gucs := by
    apply orDefault_skip
    · exact SortedMap.eq_empty_of_isEmpty
    · exact t.gucs.fromJson_toJson
  have hannotation : orDefault ⟨none, none, none⟩ IntentAnnotation.fromJson
      (some t.annotation.toJson) = some t.annotation := t.annotation.fromJson_toJson
  simp [fromJson, toJson, fields_struct, List.lookup_cons, hgucs, hannotation,
    -List.isEmpty_iff]

theorem ObservedStep.fromJson_toJson (s : ObservedStep) : fromJson s.toJson = some s := by
  simp [fromJson, toJson, fields_struct, List.lookup_cons]

theorem Principal.fromJson_toJson (p : Principal) : fromJson p.toJson = some p := by
  simp [fromJson, toJson, fields_struct, List.lookup_cons]

theorem WriteSafetyRefs.fromJson_toJson (w : WriteSafetyRefs) : fromJson w.toJson = some w := by
  simp [fromJson, toJson, fields_struct, List.lookup_cons]

theorem WriteSafetyRefs.eq_of_isEmpty {w : WriteSafetyRefs} (h : w.isEmpty) :
    w = ⟨none, none⟩ := by
  obtain ⟨_ | _, _ | _⟩ := w
  · rfl
  · cases h
  · cases h
  · cases h

theorem readDecision_write (d : Decision) : readDecision (writeDecision d) = some d := by
  cases d with
  | allow => rfl
  | block => rfl
  | reject => rfl

variable [JsonReader]

/-- The rate a reader finds in the place of a written one. -/
def readBackRate (rate : Option F64) : Option (Option F64) :=
  orDefault none (readOption readF64) (rate.map writeF64)

/-- A rate that is there is a finite number, and its digits read as it. -/
def RateReadsBack (rate : Option F64) : Prop :=
  ∀ x ∈ rate, x.isFinite = true ∧ JsonReader.readF64 (JsonReader.f64 x) = some x

theorem readBackRate_some (x : F64) :
    readBackRate (some x) =
      if x.isFinite then (JsonReader.readF64 (JsonReader.f64 x)).map some else some none := by
  show readOption readF64 (writeF64 x) = _
  unfold writeF64
  split
  · rfl
  · rfl

theorem readBackRate_eq_iff {rate : Option F64} :
    readBackRate rate = some rate ↔ RateReadsBack rate := by
  cases rate with
  | none => simp [readBackRate, orDefault, RateReadsBack]
  | some x =>
      rw [readBackRate_some]
      by_cases hfinite : x.isFinite = true
      · simp [RateReadsBack, hfinite]
      · simp [RateReadsBack, hfinite]

/-- The payload with another rate. -/
def AuditPayload.withRate (p : AuditPayload) (rate : Option F64) : AuditPayload :=
  { p with intent := { p.intent with t2 := { p.intent.t2 with ratePerMin := rate } } }

theorem TierT2.fromJson_toJson (t : TierT2) :
    fromJson t.toJson =
      (readBackRate t.ratePerMin).map fun rate => { t with ratePerMin := rate } := by
  have hsteps : orDefault [] (readSeq ObservedStep.fromJson)
      (itemsSlot ObservedStep.toJson t.querySequence) = some t.querySequence :=
    orDefault_items fun step _ => step.fromJson_toJson
  have hreads : orDefault false readBool (some (.bool t.readsBeforeWrite)) =
      some t.readsBeforeWrite := rfl
  have hfields : fromJson t.toJson = (readBackRate t.ratePerMin).bind fun rate =>
      some { t with ratePerMin := rate } := by
    unfold readBackRate
    simp [fromJson, toJson, fields_struct, List.lookup_cons, hsteps, hreads]
  rw [hfields, Option.map_eq_bind]
  rfl

theorem IntentTiers.fromJson_toJson (t : IntentTiers) :
    fromJson t.toJson =
      (readBackRate t.t2.ratePerMin).map fun rate =>
        { t with t2 := { t.t2 with ratePerMin := rate } } := by
  have ht0 : orDefault IntentTiers.default.t0 TierT0.fromJson (some t.t0.toJson) = some t.t0 :=
    t.t0.fromJson_toJson
  have ht1 : orDefault IntentTiers.default.t1 TierT1.fromJson (some t.t1.toJson) = some t.t1 :=
    t.t1.fromJson_toJson
  have ht2 : orDefault IntentTiers.default.t2 TierT2.fromJson (some t.t2.toJson) = _ :=
    t.t2.fromJson_toJson
  have hfields : fromJson t.toJson =
      ((readBackRate t.t2.ratePerMin).map fun rate => { t.t2 with ratePerMin := rate }).bind
        fun t2 => some { t with t2 := t2 } := by
    simp [fromJson, toJson, fields_struct, List.lookup_cons, ht0, ht1, ht2]
  rw [hfields, Option.bind_map, Option.map_eq_bind]
  rfl

/-- What a payload reads back as: only the rate can be another one, or no number at all. -/
theorem AuditPayload.fromJson_toJson (p : AuditPayload) :
    fromJson p.toJson = (readBackRate p.intent.t2.ratePerMin).map p.withRate := by
  have hintent : orDefault IntentTiers.default IntentTiers.fromJson
      (if p.intent = IntentTiers.default then none else some p.intent.toJson) =
      (readBackRate p.intent.t2.ratePerMin).map fun rate =>
        { p.intent with t2 := { p.intent.t2 with ratePerMin := rate } } := by
    split
    next hdefault =>
      -- The default tiers have no rate.
      rw [hdefault]
      rfl
    · exact p.intent.fromJson_toJson
  have hrefs : orDefault ⟨none, none⟩ WriteSafetyRefs.fromJson
      (if p.writeSafety.isEmpty then none else some p.writeSafety.toJson) =
      some p.writeSafety := by
    apply orDefault_skip
    · exact WriteSafetyRefs.eq_of_isEmpty
    · exact p.writeSafety.fromJson_toJson
  have hfields : fromJson p.toJson =
      ((readBackRate p.intent.t2.ratePerMin).map fun rate =>
        { p.intent with t2 := { p.intent.t2 with ratePerMin := rate } }).bind
        fun intent => some { p with intent := intent } := by
    simp [fromJson, toJson, fields_struct, List.lookup_cons, Principal.fromJson_toJson,
      readDecision_write, hintent, hrefs]
  rw [hfields, Option.bind_map, Option.map_eq_bind]
  rfl

/-- The crate reads the canonical text of a payload as the value it was written from. -/
def Parses (p : AuditPayload) : Prop := JsonReader.parse (render p.toJson) = some p.toJson

theorem fromStr_json {p : AuditPayload} (hparse : Parses p) :
    SerdeJson.fromStr p.json =
      match (readBackRate p.intent.t2.ratePerMin).map p.withRate with
      | some q => .ok q
      | none => .error (JsonReader.error p.json) := by
  have hparse' : JsonReader.parse p.json = some p.toJson := by
    rw [AuditPayload.json_eq_render]
    exact hparse
  simp only [SerdeJson.fromStr, hparse', Option.bind_some, AuditPayload.fromJson_toJson]

end RoundTrip

end PgBrakes.Ports.Audit
