import Mathlib.Data.List.Nodup

/-!
# JSON values and the readers of records

A record is written as an object with one member for each field, and a field that has
nothing to say may be left out.  A reader looks each field up by its name: members with
other names are passed over, a name that comes twice is an error, and a field that is
missing is an error or stands for its default.  An array is read as the list of the
fields in their order.

What a record needs to read back is then said field by field: the written value of a
field reads as the field, and a field is left out only where it is its default.

## Main results

* `fields_struct` — the reader of a record finds every slot as it was written.
* `orDefault_skip`, `orDefault_map` — a field that is left out reads back.
-/

namespace PgBrakes.Verified.JsonValue

/-- A JSON value; a number stays the digits it is written with. -/
inductive Json where
  | null
  | bool (b : Bool)
  | number (digits : String)
  | text (s : String)
  | array (items : List Json)
  | object (members : List (String × Json))

namespace Json

/-- The slots of a record that hold a value. -/
def filled : List (String × Option Json) → List (String × Json)
  | [] => []
  | (_, none) :: slots => filled slots
  | (name, some value) :: slots => (name, value) :: filled slots

/-- A record: its slots in order, without the empty ones. -/
def struct (slots : List (String × Option Json)) : Json := .object (filled slots)

/-- What the reader of a record finds under the names of its fields. -/
def fields (names : List String) : Json → Option (String → Option Json)
  | .object members =>
      if ∀ name ∈ names, (members.filter fun member => member.1 = name).length ≤ 1 then
        some fun name => members.lookup name
      else none
  | .array items =>
      if items.length ≤ names.length then some fun name => (names.zip items).lookup name
      else none
  | _ => none

/-- What the reader finds in a value that was read before as such: of the members of one
name it has kept the last. -/
def valueFields (names : List String) : Json → Option (String → Option Json)
  | .object members => some fun name => members.reverse.lookup name
  | .array items =>
      if items.length ≤ names.length then some fun name => (names.zip items).lookup name
      else none
  | _ => none

end Json

/-! ## Readers -/

section Readers

variable {α : Type}

/-- A field that has to be there. -/
def required (read : Json → Option α) (slot : Option Json) : Option α := slot.bind read

/-- A field that may be missing. -/
def orDefault (default : α) (read : Json → Option α) : Option Json → Option α
  | none => some default
  | some value => read value

def readText : Json → Option String
  | .text s => some s
  | _ => none

def readBool : Json → Option Bool
  | .bool b => some b
  | _ => none

/-- A value, or `null` for none. -/
def readOption (read : Json → Option α) : Json → Option (Option α)
  | .null => some none
  | value => (read value).map some

def readSeq (read : Json → Option α) : Json → Option (List α)
  | .array items => items.mapM read
  | _ => none

@[simp] theorem required_some (read : Json → Option α) (value : Json) :
    required read (some value) = read value := rfl

@[simp] theorem readText_text (s : String) : readText (.text s) = some s := rfl

@[simp] theorem readBool_bool (b : Bool) : readBool (.bool b) = some b := rfl

/-- A field that is left out where it is its default. -/
theorem orDefault_skip {read : Json → Option α} {default a : α} {value : Json} {skip : Prop}
    [Decidable skip] (hskip : skip → a = default) (hread : read value = some a) :
    orDefault default read (if skip then none else some value) = some a := by
  by_cases h : skip
  · rw [if_pos h, hskip h]
    rfl
  · rw [if_neg h]
    exact hread

/-- An option that is left out where it is none. -/
theorem orDefault_map {read : Json → Option α} {write : α → Json} {a : Option α}
    (hread : ∀ x ∈ a, read (write x) = some x) (hnull : ∀ x, write x ≠ .null) :
    orDefault none (readOption read) (a.map write) = some a := by
  cases a with
  | none => rfl
  | some x =>
      have hx := hread x rfl
      show readOption read (write x) = some (some x)
      unfold readOption
      split
      · exact absurd ‹_› (hnull x)
      · rw [hx]
        rfl

@[simp] theorem orDefault_map_text (a : Option String) :
    orDefault none (readOption readText) (a.map .text) = some a :=
  orDefault_map (fun _ _ => rfl) (fun _ => Json.noConfusion)

/-- An array reads back item by item. -/
theorem readSeq_map {read : Json → Option α} {write : α → Json} {items : List α}
    (hread : ∀ x ∈ items, read (write x) = some x) :
    readSeq read (.array (items.map write)) = some items := by
  show (items.map write).mapM read = some items
  induction items with
  | nil => rfl
  | cons x items ih =>
      have hrest := ih fun y hy => hread y (by simp [hy])
      rw [List.map_cons, List.mapM_cons, hread x (by simp), hrest]
      rfl

/-- An array that is left out where it has no items. -/
theorem orDefault_items {read : Json → Option α} {write : α → Json} {items : List α}
    (hread : ∀ x ∈ items, read (write x) = some x) :
    orDefault [] (readSeq read)
      (if items.isEmpty then none else some (.array (items.map write))) = some items :=
  orDefault_skip (fun h => List.isEmpty_iff.mp h) (readSeq_map hread)

@[simp] theorem orDefault_items_text (items : List String) :
    orDefault [] (readSeq readText)
      (if items.isEmpty then none else some (.array (items.map .text))) = some items :=
  orDefault_items fun _ _ => rfl

end Readers

/-! ## Records read back -/

section Records

open Json

/-- The members of a record have the names of its slots. -/
theorem mem_filled_names {slots : List (String × Option Json)} {name : String}
    (h : name ∈ (filled slots).map (·.1)) : name ∈ slots.map (·.1) := by
  induction slots with
  | nil => exact h
  | cons slot slots ih =>
      obtain ⟨key, _ | value⟩ := slot
      · exact List.mem_cons_of_mem _ (ih h)
      · rcases List.mem_cons.mp h with rfl | hrest
        · exact List.mem_cons_self
        · exact List.mem_cons_of_mem _ (ih hrest)

theorem nodup_filled {slots : List (String × Option Json)}
    (hnodup : (slots.map (·.1)).Nodup) : ((filled slots).map (·.1)).Nodup := by
  induction slots with
  | nil => exact hnodup
  | cons slot slots ih =>
      rw [List.map_cons, List.nodup_cons] at hnodup
      obtain ⟨key, _ | value⟩ := slot
      · exact ih hnodup.2
      · exact List.nodup_cons.mpr
          ⟨fun hmem => hnodup.1 (mem_filled_names hmem), ih hnodup.2⟩

/-- A member is found under its name where its slot is filled. -/
theorem lookup_filled {slots : List (String × Option Json)}
    (hnodup : (slots.map (·.1)).Nodup) (name : String) :
    (filled slots).lookup name = (slots.lookup name).join := by
  induction slots with
  | nil => rfl
  | cons slot slots ih =>
      rw [List.map_cons, List.nodup_cons] at hnodup
      have hrest := ih hnodup.2
      obtain ⟨key, value⟩ := slot
      by_cases hkey : name = key
      · subst hkey
        cases value with
        | none =>
            -- An empty slot has no member, and no other slot has its name.
            have hnone : slots.lookup name = none := by
              rw [List.lookup_eq_none_iff]
              intro other hother
              rw [bne_iff_ne]
              intro heq
              exact hnodup.1 (List.mem_map.mpr ⟨other, hother, heq.symm⟩)
            rw [List.lookup_cons_self, filled, hrest, hnone]
            rfl
        | some value =>
            rw [List.lookup_cons_self, filled, List.lookup_cons_self]
            rfl
      · have hbeq : (name == key) = false := beq_eq_false_iff_ne.mpr hkey
        cases value with
        | none =>
            rw [filled, hrest]
            simp only [List.lookup_cons, hbeq]
        | some value =>
            rw [filled]
            simp only [List.lookup_cons, hbeq]
            exact hrest

/-- No name comes twice among members with different names. -/
theorem filter_name_length {members : List (String × Json)}
    (hnodup : (members.map (·.1)).Nodup) (name : String) :
    (members.filter fun member => member.1 = name).length ≤ 1 := by
  have hcount : (members.filter fun member => member.1 = name).length =
      (members.map (·.1)).count name := by
    rw [List.count, List.countP_map, List.countP_eq_length_filter]
    rfl
  rw [hcount]
  exact List.nodup_iff_count_le_one.mp hnodup name

/-- The reader of a record finds every slot as it was written. -/
theorem fields_struct {slots : List (String × Option Json)} {names : List String}
    (hnames : names = slots.map (·.1)) (hnodup : names.Nodup) :
    (struct slots).fields names = some fun name => (slots.lookup name).join := by
  subst hnames
  have honce : ∀ name ∈ slots.map (·.1),
      ((filled slots).filter fun member => member.1 = name).length ≤ 1 :=
    fun name _ => filter_name_length (nodup_filled hnodup) name
  have hfound : (fun name => (filled slots).lookup name) =
      fun name => (slots.lookup name).join :=
    funext fun name => lookup_filled hnodup name
  simp only [struct, fields]
  rw [if_pos honce, hfound]

/-- A reader that looks for other names finds what the record has under them. -/
theorem fields_struct_of_nodup {slots : List (String × Option Json)}
    (hnodup : (slots.map (·.1)).Nodup) (names : List String) :
    (struct slots).fields names = some fun name => (slots.lookup name).join := by
  have honce : ∀ name ∈ names,
      ((filled slots).filter fun member => member.1 = name).length ≤ 1 :=
    fun name _ => filter_name_length (nodup_filled hnodup) name
  simp only [struct, fields]
  rw [if_pos honce, funext (lookup_filled hnodup)]

/-- Where no name comes twice, the last member of a name is the first. -/
theorem lookup_reverse {members : List (String × Json)}
    (hnodup : (members.map (·.1)).Nodup) (name : String) :
    members.reverse.lookup name = members.lookup name := by
  induction members with
  | nil => rfl
  | cons member members ih =>
      obtain ⟨key, value⟩ := member
      rw [List.map_cons, List.nodup_cons] at hnodup
      rw [List.reverse_cons, List.lookup_append, ih hnodup.2]
      by_cases hkey : name = key
      · subst hkey
        have hnone : members.lookup name = none := by
          rw [List.lookup_eq_none_iff]
          intro other hother
          rw [bne_iff_ne]
          intro heq
          exact hnodup.1 (List.mem_map.mpr ⟨other, hother, heq.symm⟩)
        rw [hnone, List.lookup_cons_self, List.lookup_cons_self]
        rfl
      · have hbeq : (name == key) = false := beq_eq_false_iff_ne.mpr hkey
        simp only [List.lookup_cons, hbeq, List.lookup_nil, Option.or_none]

/-- A record that went through a value reads as it was written. -/
theorem valueFields_struct {slots : List (String × Option Json)}
    (hnodup : (slots.map (·.1)).Nodup) (names : List String) :
    (struct slots).valueFields names = some fun name => (slots.lookup name).join := by
  have hfound : (fun name => (filled slots).reverse.lookup name) =
      fun name => (slots.lookup name).join := by
    funext name
    rw [lookup_reverse (nodup_filled hnodup), lookup_filled hnodup]
  simp only [struct, valueFields, hfound]

end Records

end PgBrakes.Verified.JsonValue
