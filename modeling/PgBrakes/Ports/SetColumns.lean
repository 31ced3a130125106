import PgBrakes.Ports.PgConn
import PgBrakes.Verified.QuotedText

/-!
# The columns a SET clause names

The apply reads the `SET` columns of an update off its text and puts each of them
between quotes in the select of the pre-image.  The parser prints an unquoted
name bare and a quoted one between quotes with its own quotes doubled, and the
code strips the quotes at the ends.  PostgreSQL reads the same clause its own
way: it folds an unquoted name to lower case, and of a dotted target the column
is the first part.

The two readings agree on most statements.  They come apart on an unquoted name
with a capital, on a name with a quote at an end, on one the parser prints
without doubling a quote, and on a dotted target, where the code takes the field
for the column.

## Main results

* `updateSetColumns_exact_iff` — the accepted updates whose list names exactly
  the columns they change.
-/

namespace PgBrakes.Ports.SetColumns

open PgBrakes.Verified.QuotedText
open PgBrakes.Ports.SqlAst
open PgBrakes.Ports.PgRehearsal
open PgBrakes.Ports.PgConn

/-! ## PostgreSQL's reading -/

/-- The name with its ASCII letters in lower case. -/
def folded (name : String) : String := String.ofList (name.toList.map Char.toLower)

/-- The name an identifier stands for: literal between quotes, otherwise folded. -/
def pgName (i : Ident) : String :=
  match i.quoteStyle with
  | none => folded i.value
  | some _ => i.value

/-- The identifier as PostgreSQL's lexer makes it: a bare word, which has no
quote in it, or a name between double quotes. -/
def IsPgIdent (i : Ident) : Prop :=
  i.quoteStyle = none ∧ '"' ∉ i.value.toList ∨ i.quoteStyle = some '"'

/-- A name written between quotes. -/
def quoteIdent (name : String) : String :=
  "\"" ++ String.ofList (doubled '"' name.toList) ++ "\""

/-- Between quotes, as the select list has it, the text is the name of this
column. -/
def Names (c name : String) : Prop := "\"" ++ c ++ "\"" = quoteIdent name

/-- A possibly dotted assignment target. -/
structure Target where
  first : Ident
  rest : List Ident
deriving DecidableEq

namespace Target

/-- The table column of a target; what follows the first part is a field of it. -/
def column (t : Target) : String := pgName t.first

/-- The part the code takes for the column. -/
def last (t : Target) : Ident := (t.first :: t.rest).getLast (List.cons_ne_nil _ _)

end Target

/-- The targets of a clause that are names. -/
def targets (assignments : List Assignment) : List Target :=
  assignments.filterMap fun a =>
    match a.target with
    | .columnName (first :: rest) => some ⟨first, rest⟩
    | _ => none

/-- The columns a clause assigns to. -/
def changed (assignments : List Assignment) : List String :=
  assignments.flatMap fun a =>
    match a.target with
    | .columnName name => name.head?.toList.map pgName
    | .tuple names => names.flatMap fun name => name.head?.toList.map pgName

/-- The list names the changed columns and no others, every entry of it is a
name, and the select of the pre-image has every changed column. -/
structure Exact (assignments : List Assignment) (cols : List String) : Prop where
  named : ∀ k, k ∈ changed assignments ↔ ∃ c ∈ cols, Names c k
  reads : ∀ c ∈ cols, ∃ k, Names c k
  captured : ∀ k ∈ changed assignments, ∃ c ∈ selectColumns cols, Names c k

section

variable [Sql]

/-- What the parser's printer does with an identifier: a bare word is printed as
it is, a quoted name between quotes, with a quote at an end of the text exactly
where the name has one. -/
structure Prints : Prop where
  bare : ∀ value, Sql.displayIdent ⟨value, none⟩ = value
  quoted : ∀ value, ∃ body, Sql.displayIdent ⟨value, some '"'⟩ = "\"" ++ body ++ "\"" ∧
    (Bare '"' body.toList ↔ Bare '"' value.toList)

/-- The identifier is printed as this name with its quotes doubled, bare or
between quotes, and the name has no quote at an end. -/
def Spells (i : Ident) (name : String) : Prop :=
  Bare '"' name.toList ∧ ∃ m n, (Sql.displayIdent i).toList =
    List.replicate m '"' ++ doubled '"' name.toList ++ List.replicate n '"'

/-- A word without capitals, or a quoted name without a quote at an end that is
printed with its quotes doubled. -/
def PlainIdent (i : Ident) : Prop :=
  match i.quoteStyle with
  | none => ∀ c ∈ i.value.toList, c.isUpper = false
  | some _ => Bare '"' i.value.toList ∧ Sql.displayIdent i = quoteIdent i.value

/-- One plain identifier, or a dotted target whose field has the column's name. -/
def Plain (t : Target) : Prop :=
  match t.rest with
  | [] => PlainIdent t.first
  | _ :: _ => Spells t.last t.column

/-- Another target is taken for this one's column, and this one for the column of
another. -/
def Covered (ts : List Target) (t : Target) : Prop :=
  (∃ u ∈ ts, u ≠ t ∧ Spells u.last t.column) ∧ ∃ u ∈ ts, u ≠ t ∧ Spells t.last u.column

/-- What the code makes of a target. -/
def Target.returned (t : Target) : String := trimQuotes (Sql.displayIdent t.last)

end

/-! ## Names between quotes -/

theorem names_iff {c name : String} : Names c name ↔ c.toList = doubled '"' name.toList := by
  rw [Names, quoteIdent, ← String.toList_inj]
  simp only [String.toList_append, String.toList_ofList]
  rw [List.append_cancel_right_eq, List.append_cancel_left_eq]

theorem Names.unique {c k k' : String} (h : Names c k) (h' : Names c k') : k = k' := by
  rw [names_iff] at h h'
  exact String.toList_inj.mp (doubled_injective (h.symm.trans h'))

theorem toLower_eq_self_iff {c : Char} : c.toLower = c ↔ c.isUpper = false := by
  unfold Char.toLower Char.isUpper
  split
  · next h =>
      refine iff_of_false (fun heq => ?_) (by simpa using h)
      have hval : (c.val + ('a'.val - 'A'.val)).toNat = c.val.toNat :=
        congrArg (fun d : Char => d.val.toNat) heq
      have hhigh : c.val.toNat ≤ 90 := h.2
      have hshift : (c.val + ('a'.val - 'A'.val)).toNat = c.val.toNat + 32 := by
        rw [UInt32.toNat_add]
        show (c.val.toNat + 32) % 2 ^ 32 = c.val.toNat + 32
        omega
      omega
  · next h => exact iff_of_true rfl (by simpa using h)

theorem folded_eq_self_iff {s : String} :
    folded s = s ↔ ∀ c ∈ s.toList, c.isUpper = false := by
  rw [← String.toList_inj, folded, String.toList_ofList]
  have hid := List.map_inj_left (l := s.toList) (f := Char.toLower) (g := id)
  rw [List.map_id] at hid
  rw [hid]
  exact forall₂_congr fun c _ => toLower_eq_self_iff

/-! ## One target -/

section

variable [Sql]

/-- What is left of a printed identifier names a column exactly when the
identifier spells it. -/
theorem names_trimQuotes_iff {i : Ident} {name : String} :
    Names (trimQuotes (Sql.displayIdent i)) name ↔ Spells i name := by
  have htrim : (trimQuotes (Sql.displayIdent i)).toList =
      trim '"' (Sql.displayIdent i).toList := String.toList_ofList
  rw [names_iff, htrim, trim_eq_iff, bare_doubled_iff]
  rfl

/-- A bare word spells its own column exactly when nothing of it is folded. -/
theorem spells_word_iff (hprint : Prints) {value : String} (hquote : '"' ∉ value.toList) :
    Spells ⟨value, none⟩ (folded value) ↔ ∀ c ∈ value.toList, c.isUpper = false := by
  rw [← folded_eq_self_iff, ← names_trimQuotes_iff, names_iff, hprint.bare]
  have hbare : Bare '"' value.toList :=
    ⟨fun h => hquote (List.mem_of_mem_head? h), fun h => hquote (List.mem_of_getLast? h)⟩
  have htrim : (trimQuotes value).toList = value.toList := by
    rw [trimQuotes, String.toList_ofList]
    exact trim_eq_iff.mpr ⟨hbare, 0, 0, by simp⟩
  rw [htrim]
  constructor
  · intro h
    have hfold : '"' ∉ (folded value).toList := notMem_of_doubled (h ▸ hquote)
    rw [doubled_of_notMem hfold] at h
    exact (String.toList_inj.mp h).symm
  · intro h
    rw [h, doubled_of_notMem hquote]

/-- A quoted name spells its own column exactly when it has no quote at an end
and its printer doubled those inside. -/
theorem spells_quoted_iff (hprint : Prints) (value : String) :
    Spells ⟨value, some '"'⟩ value ↔
      Bare '"' value.toList ∧ Sql.displayIdent ⟨value, some '"'⟩ = quoteIdent value := by
  obtain ⟨body, hdisplay, hends⟩ := hprint.quoted value
  have htext : (Sql.displayIdent ⟨value, some '"'⟩).toList =
      List.replicate 1 '"' ++ body.toList ++ List.replicate 1 '"' := by
    rw [hdisplay, String.toList_append, String.toList_append]
    rfl
  refine and_congr_right fun hbare => ?_
  have htrim : trim '"' (Sql.displayIdent ⟨value, some '"'⟩).toList = body.toList :=
    trim_eq_iff.mpr ⟨hends.mpr hbare, 1, 1, htext⟩
  constructor
  · rintro ⟨m, n, hspelled⟩
    have hbody := trim_eq_iff.mpr ⟨bare_doubled_iff.mpr hbare, m, n, hspelled⟩
    rw [htrim] at hbody
    rw [hdisplay, quoteIdent, ← hbody, String.ofList_toList]
  · intro hquoted
    refine ⟨1, 1, ?_⟩
    simp only [hquoted, quoteIdent, String.toList_append, String.toList_ofList]
    rfl

theorem plain_iff (hprint : Prints) {t : Target} (hident : IsPgIdent t.first) :
    Plain t ↔ Spells t.last t.column := by
  obtain ⟨⟨value, quoteStyle⟩, rest⟩ := t
  cases rest with
  | nil =>
      rcases hident with ⟨hnone, hquote⟩ | hsome
      · cases hnone
        exact (spells_word_iff hprint hquote).symm
      · cases hsome
        exact (spells_quoted_iff hprint value).symm
  | cons _ _ => exact Iff.rfl

/-! ## The clause -/

/-- An accepted assignment has a name for its target, and gives the first entry of the
list. -/
theorem setColumns_cons_ok {a : Assignment} {assignments : List Assignment}
    {cols : List String} (h : setColumns (a :: assignments) = .ok cols) :
    ∃ first rest cols', a.target = .columnName (first :: rest) ∧
      setColumns assignments = .ok cols' ∧ cols = Target.returned ⟨first, rest⟩ :: cols' := by
  unfold setColumns at h
  rcases hname : a.target with name | names
  · rw [hname] at h
    cases name with
    | nil => cases h
    | cons first rest =>
        dsimp only at h
        rw [List.getLast?_eq_some_getLast (List.cons_ne_nil first rest)] at h
        dsimp only at h
        split at h
        · cases h
        · next cols' hrest =>
            cases h
            exact ⟨first, rest, cols', rfl, hrest, rfl⟩
  · rw [hname] at h
    cases h

/-- The list of an accepted clause: its targets are all names, and each gives one
entry. -/
theorem setColumns_ok : ∀ {assignments : List Assignment} {cols : List String},
    setColumns assignments = .ok cols →
      cols = (targets assignments).map Target.returned ∧
        changed assignments = (targets assignments).map Target.column := by
  intro assignments
  induction assignments with
  | nil =>
      intro cols h
      cases h
      exact ⟨rfl, rfl⟩
  | cons a assignments ih =>
      intro cols h
      obtain ⟨first, rest, cols', hname, hrest, rfl⟩ := setColumns_cons_ok h
      obtain ⟨hcols, hchanged⟩ := ih hrest
      have htargets : targets (a :: assignments) = ⟨first, rest⟩ :: targets assignments := by
        rw [targets, List.filterMap_cons, hname]
        rfl
      have hhead : changed (a :: assignments) = pgName first :: changed assignments := by
        rw [changed, List.flatMap_cons, hname]
        rfl
      rw [htargets, hhead, hcols, hchanged]
      exact ⟨rfl, rfl⟩

/-- Every target is taken for a changed column, and every changed column is some
target's. -/
theorem exact_iff_matched {assignments : List Assignment} {cols : List String}
    (h : setColumns assignments = .ok cols) :
    Exact assignments cols ↔ ∀ t ∈ targets assignments,
      (∃ u ∈ targets assignments, Spells u.last t.column) ∧
        ∃ u ∈ targets assignments, Spells t.last u.column := by
  obtain ⟨rfl, hchanged⟩ := setColumns_ok h
  have hcolumn : ∀ t ∈ targets assignments, t.column ∈ changed assignments := by
    intro t ht
    rw [hchanged]
    exact List.mem_map_of_mem ht
  have hreturned : ∀ t ∈ targets assignments,
      t.returned ∈ (targets assignments).map Target.returned :=
    fun t ht => List.mem_map_of_mem ht
  constructor
  · intro hexact t ht
    constructor
    · obtain ⟨c, hc, hnames⟩ := (hexact.named t.column).mp (hcolumn t ht)
      obtain ⟨u, hu, rfl⟩ := List.mem_map.mp hc
      exact ⟨u, hu, names_trimQuotes_iff.mp hnames⟩
    · obtain ⟨k, hnames⟩ := hexact.reads t.returned (hreturned t ht)
      have hk : k ∈ changed assignments :=
        (hexact.named k).mpr ⟨t.returned, hreturned t ht, hnames⟩
      rw [hchanged] at hk
      obtain ⟨u, hu, rfl⟩ := List.mem_map.mp hk
      exact ⟨u, hu, names_trimQuotes_iff.mp hnames⟩
  · intro hmatched
    have hnamed : ∀ k ∈ changed assignments,
        ∃ c ∈ (targets assignments).map Target.returned, Names c k := by
      intro k hk
      rw [hchanged] at hk
      obtain ⟨t, ht, rfl⟩ := List.mem_map.mp hk
      obtain ⟨u, hu, hspells⟩ := (hmatched t ht).1
      exact ⟨u.returned, hreturned u hu, names_trimQuotes_iff.mpr hspells⟩
    refine ⟨fun k => ⟨hnamed k, ?_⟩, ?_, ?_⟩
    · rintro ⟨c, hc, hnames⟩
      obtain ⟨t, ht, rfl⟩ := List.mem_map.mp hc
      obtain ⟨u, hu, hspells⟩ := (hmatched t ht).2
      rw [hnames.unique (names_trimQuotes_iff.mpr hspells)]
      exact hcolumn u hu
    · intro c hc
      obtain ⟨t, ht, rfl⟩ := List.mem_map.mp hc
      obtain ⟨u, -, hspells⟩ := (hmatched t ht).2
      exact ⟨u.column, names_trimQuotes_iff.mpr hspells⟩
    · intro k hk
      obtain ⟨c, hc, hnames⟩ := hnamed k hk
      exact ⟨c, mem_selectColumns.mpr (.inr hc), hnames⟩

/-- The list of an accepted update is exact when, and only when, every target is
plain or makes up for another and is made up for. -/
theorem updateSetColumns_exact_iff (hprint : Prints) {forwardSql : String} {u : Update}
    {rest : List Statement} {cols : List String}
    (hparse : Sql.parseSql forwardSql = .ok (.update u :: rest))
    (hident : ∀ t ∈ targets u.assignments, IsPgIdent t.first)
    (hcols : updateSetColumns forwardSql = .ok cols) :
    Exact u.assignments cols ↔
      ∀ t ∈ targets u.assignments, Plain t ∨ Covered (targets u.assignments) t := by
  have hset : setColumns u.assignments = .ok cols := by
    unfold updateSetColumns at hcols
    rw [hparse] at hcols
    dsimp only at hcols
    split at hcols
    · cases hcols
    · exact hcols
  rw [exact_iff_matched hset]
  refine forall₂_congr fun t ht => ?_
  rw [plain_iff hprint (hident t ht)]
  constructor
  · rintro ⟨⟨v, hv, hmade⟩, w, hw, htaken⟩
    by_cases hself : Spells t.last t.column
    · exact .inl hself
    · have hvt : v ≠ t := fun heq => hself (heq ▸ hmade)
      have hwt : w ≠ t := fun heq => hself (heq ▸ htaken)
      exact .inr ⟨⟨v, hv, hvt, hmade⟩, w, hw, hwt, htaken⟩
  · rintro (hself | ⟨⟨v, hv, -, hmade⟩, w, hw, -, htaken⟩)
    · exact ⟨⟨t, ht, hself⟩, t, ht, hself⟩
    · exact ⟨⟨v, hv, hmade⟩, w, hw, htaken⟩

end

/-! ## Three statements -/

/-- An update of one row of a table with these targets. -/
def updating (names : List ObjectName) : Update where
  table := ⟨.table [.plain "accounts"], []⟩
  assignments := names.map fun name => ⟨.columnName name, .value "'x'"⟩
  from? := none
  selection := some (.binaryOp (.identifier (.plain "id")) "=" (.value "1"))

/-- A word without capitals, and a quoted name with one. -/
def plainSql : String := "UPDATE accounts SET owner = 'x', \"Note\" = 'x' WHERE id = 1"

/-- A word with a capital. -/
def foldedSql : String := "UPDATE accounts SET Owner = 'x' WHERE id = 1"

/-- A field of a composite column. -/
def dottedSql : String := "UPDATE accounts SET address.city = 'x' WHERE id = 1"

def plainUpdate : Update := updating [[.plain "owner"], [⟨"Note", some '"'⟩]]

def foldedUpdate : Update := updating [[.plain "Owner"]]

def dottedUpdate : Update := updating [[.plain "address", .plain "city"]]

@[reducible] def threeTexts : Sql :=
  Sql.knowing [(plainSql, .update plainUpdate), (foldedSql, .update foldedUpdate),
    (dottedSql, .update dottedUpdate)]

theorem prints_knowing (texts : List (String × Statement)) : @Prints (Sql.knowing texts) :=
  letI := Sql.knowing texts
  ⟨fun _ => rfl, fun value => ⟨value, rfl, Iff.rfl⟩⟩

/-- Both forms of a plain target at once. -/
theorem updateSetColumns_exact_iff_plain :
    letI := threeTexts
    updateSetColumns plainSql = .ok ["owner", "Note"] ∧
      Exact plainUpdate.assignments ["owner", "Note"] := by
  let _ := threeTexts
  have hcols : updateSetColumns plainSql = .ok ["owner", "Note"] := by decide
  refine ⟨hcols, (updateSetColumns_exact_iff (prints_knowing _) (u := plainUpdate) rfl ?_
    hcols).mpr ?_⟩
  · refine List.forall_mem_cons.mpr ⟨.inl ⟨rfl, by decide⟩, ?_⟩
    exact List.forall_mem_cons.mpr ⟨.inr rfl, List.forall_mem_nil _⟩
  · refine List.forall_mem_cons.mpr ⟨.inl ?_, List.forall_mem_cons.mpr ⟨.inl ?_, ?_⟩⟩
    · have hall : ("owner".toList.all fun c => !c.isUpper) = true := by decide
      intro c hc
      simpa using List.all_eq_true.mp hall c hc
    · exact ⟨⟨by decide, by decide⟩, by decide⟩
    · exact List.forall_mem_nil _

/-- `SET Owner` changes the column `owner` and returns `Owner`; `SET address.city`
changes `address` and returns `city`. -/
theorem folded_and_dotted_names_wrong :
    letI := threeTexts
    updateSetColumns foldedSql = .ok ["Owner"] ∧ changed foldedUpdate.assignments = ["owner"] ∧
      ¬ Exact foldedUpdate.assignments ["Owner"] ∧
      updateSetColumns dottedSql = .ok ["city"] ∧ changed dottedUpdate.assignments = ["address"] ∧
      ¬ Exact dottedUpdate.assignments ["city"] := by
  let _ := threeTexts
  refine ⟨by decide, by decide, fun h => ?_, by decide, by decide, fun h => ?_⟩
  · obtain ⟨c, hc, hnames⟩ := (h.named "owner").mp (by decide)
    rw [List.mem_singleton.mp hc] at hnames
    exact absurd hnames (by unfold Names; decide)
  · obtain ⟨c, hc, hnames⟩ := (h.named "address").mp (by decide)
    rw [List.mem_singleton.mp hc] at hnames
    exact absurd hnames (by unfold Names; decide)

end PgBrakes.Ports.SetColumns
