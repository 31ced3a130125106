import PgBrakes.Ports.Predicate
import PgBrakes.Ports.PredicateMeaning

/-!
# What the self-determined gate lets through

The gate compares names in lower case and looks at expressions only, so three
kinds of reference pass it: a name that is the key's in lower case and another
column to the server, a whole row or a query as the argument of a function, and
whatever stands behind `INTERVAL`.  Without these an accepted predicate refers to
the key alone.  The volatility gate behind it takes a stable function for an
immutable one, and never asks about an operator, so code that reads tables passes
as well.

## Main results

* `selfDetermined_iff` — an accepted predicate is determined by the key exactly
  when it holds none of the three references and runs no code that reads tables.
* `quotedKey_not_selfDetermined` — a quoted column next to the key.
-/

namespace PgBrakes.Ports.SelfDetermined

open PgBrakes.Ports.SqlAst
open PgBrakes.Ports.Predicate
open PgBrakes.Ports.PredicateMeaning

/-! ## What is to hold -/

/-- Every reference to data is to the key, and tables that agree on the keys give
the predicate the same keys, in any two databases and over every meaning under
which only the nodes in `reads` run code that reads tables. -/
structure DeterminedBy (reads : Expr → Prop) (key : String) (e : Expr) : Prop where
  pinned : ∀ ref ∈ references e, ref = .column key
  same : ∀ {ν δ : Type} (I : Interp ν δ), I.Respects reads → ∀ (truth : ν → Bool) (db db' : δ)
    (rows rows' : List (String → ν)),
    (rows.map fun row => row key) = (rows'.map fun row => row key) →
    selectedKeys I truth key db rows e = selectedKeys I truth key db' rows' e

/-- None of the references that the gate does not see: a name that is the key's
only in lower case, a whole row or a query as an argument, anything but the key
behind `INTERVAL`. -/
structure Spelled [Sql] (key : String) (e : Expr) : Prop where
  names : ∀ node ∈ e.preorder, ∀ col, columnOf node = some col →
    Sql.toLowercase col.value = bareName (Sql.toLowercase key) → denotes col = key
  args : ∀ name args clauses, Expr.function name args clauses ∈ e.preorder →
    args.flatMap argRefs = []
  intervals : ∀ inner, Expr.interval inner ∈ e.preorder →
    ∀ ref ∈ references inner, ref = .column key

/-- A node that reads tables is seen in the selection of a single row. -/
theorem readsNoTable_of_same {reads : Expr → Prop} {key : String} {e : Expr}
    (h : DeterminedBy reads key e) : ReadsNoTable reads e := by
  intro node hnode hcol hreads
  have hsame := h.same (detector reads) (detector_respects reads) id true false
    [fun _ => false] [fun _ => false] rfl
  simp [selectedKeys, detector_false, detector_true hnode hcol hreads] at hsame

theorem determinedBy_iff (reads : Expr → Prop) (key : String) (e : Expr) :
    DeterminedBy reads key e ↔
      (∀ ref ∈ references e, ref = .column key) ∧ ReadsNoTable reads e := by
  constructor
  · intro h
    exact ⟨h.pinned, readsNoTable_of_same h⟩
  · rintro ⟨hrefs, hreads⟩
    exact ⟨hrefs, fun I hI truth db db' rows rows' => selectedKeys_congr hI truth hrefs hreads⟩

/-! ## The structural walk -/

section Walk

variable [Sql] {key : String} {e : Expr}

theorem Spelled.child (h : Spelled key e) {c : Expr} (hc : c ∈ e.children) : Spelled key c where
  names node hnode := h.names node (Expr.mem_preorder_of_child hc hnode)
  args name args clauses hnode := h.args name args clauses (Expr.mem_preorder_of_child hc hnode)
  intervals inner hnode := h.intervals inner (Expr.mem_preorder_of_child hc hnode)

theorem nonPkColumn_eq_none {ident : Ident} {pkBare : String}
    (h : nonPkColumn ident pkBare = none) : Sql.toLowercase ident.value = pkBare := by
  unfold nonPkColumn at h
  split at h
  · assumption
  · cases h

/-- A node that the atom walk lets through refers to the key alone. -/
theorem nodeRefs_of_atom (h : Spelled key e) {node : Expr} (hnode : node ∈ e.preorder)
    (hatom : classifyAtomOnly (bareName (Sql.toLowercase key)) node = none) :
    ∀ ref ∈ nodeRefs node, ref = .column key := by
  intro ref href
  rcases hcol : columnOf node with _ | col
  · cases node with
    | identifier ident => cases hcol
    | compoundIdentifier parts =>
        have hlast : parts.getLast? = none := hcol
        simp [nodeRefs, hlast] at href
    | subquery q => cases hatom
    | «exists» q => cases hatom
    | inSubquery expr q => cases hatom
    | function name args clauses =>
        rw [nodeRefs, h.args name args clauses hnode] at href
        cases href
    | _ => cases href
  · rw [nodeRefs_of_columnOf hcol, List.mem_singleton] at href
    rw [href]
    have hlower : Sql.toLowercase col.value = bareName (Sql.toLowercase key) := by
      cases node with
      | identifier ident =>
          cases hcol
          exact nonPkColumn_eq_none hatom
      | compoundIdentifier parts =>
          have hlast : parts.getLast? = some col := hcol
          rw [classifyAtomOnly, hlast, Option.bind_some] at hatom
          exact nonPkColumn_eq_none hatom
      | _ => cases hcol
    exact congrArg Ref.column (h.names node hnode col hcol hlower)

/-- Where the atom walk has seen everything below a node, its references are to
the key alone. -/
theorem references_of_atoms (h : Spelled key e) (hself : ∀ ref ∈ nodeRefs e, ref = .column key)
    (hatoms : e.preorder.tail.findSome?
      (classifyAtomOnly (bareName (Sql.toLowercase key))) = none) :
    ∀ ref ∈ references e, ref = .column key := by
  intro ref href
  obtain ⟨node, hnode, hmem⟩ := List.mem_flatMap.mp href
  have hsplit := hnode
  rw [e.preorder_eq] at hsplit
  rcases List.mem_cons.mp hsplit with rfl | htail
  · exact hself ref hmem
  · have hatom := List.findSome?_eq_none_iff.mp hatoms node (by rw [e.preorder_eq]; exact htail)
    exact nodeRefs_of_atom h hnode hatom ref hmem

omit [Sql] in
/-- Where the references of a node and of its direct subexpressions are to the key
alone, all are. -/
theorem references_of_children (hself : ∀ ref ∈ nodeRefs e, ref = .column key)
    (hchildren : ∀ c ∈ e.children, ∀ ref ∈ references c, ref = .column key) :
    ∀ ref ∈ references e, ref = .column key := by
  intro ref href
  rw [references_eq] at href
  rcases List.mem_append.mp href with hmem | hmem
  · exact hself ref hmem
  · obtain ⟨c, hc, hmem⟩ := List.mem_flatMap.mp hmem
    exact hchildren c hc ref hmem

theorem classifyList_eq_none {pkBare : String} {es : List Expr}
    (h : classifyList pkBare es = none) :
    ∀ c ∈ es, classifySelfDeterminedExpr pkBare c = none := by
  induction es with
  | nil => simp
  | cons e es ih =>
      rw [classifyList, Option.or_eq_none_iff] at h
      intro c hc
      rcases List.mem_cons.mp hc with rfl | hc
      · exact h.1
      · exact ih h.2 c hc

theorem classifyOption_eq_none {pkBare : String} {e : Option Expr}
    (h : classifyOption pkBare e = none) :
    ∀ c ∈ e.toList, classifySelfDeterminedExpr pkBare c = none := by
  cases e with
  | none => simp
  | some e =>
      intro c hc
      rw [List.mem_singleton.mp hc]
      exact h

theorem classifyWhens_eq_none {pkBare : String} {whens : List CaseWhen}
    (h : classifyWhens pkBare whens = none) :
    ∀ c ∈ whens.flatMap CaseWhen.children, classifySelfDeterminedExpr pkBare c = none := by
  induction whens with
  | nil => simp
  | cons when whens ih =>
      obtain ⟨condition, result⟩ := when
      rw [classifyWhens, Option.or_eq_none_iff, Option.or_eq_none_iff] at h
      intro c hc
      rw [List.flatMap_cons, CaseWhen.children] at hc
      rcases List.mem_append.mp hc with hc | hc
      · rcases List.mem_cons.mp hc with rfl | hc
        · exact h.1
        · rw [List.mem_singleton.mp hc]
          exact h.2.1
      · exact ih h.2.2 c hc

/-- An accepted predicate without the references the gate does not see refers to
the key alone. -/
theorem references_of_accepted (h : Spelled key e)
    (haccept : classifySelfDeterminedExpr (bareName (Sql.toLowercase key)) e = none) :
    ∀ ref ∈ references e, ref = .column key := by
  induction e using Expr.induction_children with
  | h e ih =>
      -- most nodes refer to nothing themselves, and the gate descends into all of them
      have hdescend : nodeRefs e = [] →
          (∀ c ∈ e.children,
            classifySelfDeterminedExpr (bareName (Sql.toLowercase key)) c = none) →
          ∀ ref ∈ references e, ref = .column key := by
        intro hnone hchildren
        refine references_of_children (by simp [hnone]) fun c hc => ?_
        exact ih c hc (h.child hc) (hchildren c hc)
      cases e with
      | identifier ident =>
          exact references_of_children (nodeRefs_of_atom h (Expr.mem_preorder_self _) haccept)
            (by simp [Expr.children])
      | compoundIdentifier parts =>
          refine references_of_children (nodeRefs_of_atom h (Expr.mem_preorder_self _) ?_)
            (by simp [Expr.children])
          rw [classifySelfDeterminedExpr] at haccept
          rcases hlast : parts.getLast? with _ | col
          · rw [classifyAtomOnly, hlast]
            rfl
          · rw [hlast] at haccept
            rw [classifyAtomOnly, hlast]
            exact haccept
      | compoundFieldAccess root chain =>
          rw [classifySelfDeterminedExpr, Option.or_eq_none_iff] at haccept
          exact references_of_atoms h (by simp [nodeRefs]) haccept.2
      | function name args clauses =>
          refine references_of_atoms h ?_ haccept
          rw [nodeRefs, h.args name args clauses (Expr.mem_preorder_self _)]
          simp
      | interval inner =>
          refine references_of_children (by simp [nodeRefs]) fun c hc => ?_
          rw [List.mem_singleton.mp hc]
          exact h.intervals inner (Expr.mem_preorder_self _)
      | subquery q => cases haccept
      | «exists» q => cases haccept
      | inSubquery expr q => cases haccept
      | anyOp left right => cases haccept
      | allOp left right => cases haccept
      | inUnnest expr arr => cases haccept
      | other label children => cases haccept
      | value text => exact hdescend rfl (by simp [Expr.children])
      | typedString dataType text => exact hdescend rfl (by simp [Expr.children])
      | inList expr list =>
          rw [classifySelfDeterminedExpr, Option.or_eq_none_iff] at haccept
          refine hdescend rfl fun c hc => ?_
          rcases List.mem_cons.mp hc with rfl | hc
          · exact haccept.1
          · exact classifyList_eq_none haccept.2 c hc
      | case operand conditions elseResult =>
          rw [classifySelfDeterminedExpr, Option.or_eq_none_iff, Option.or_eq_none_iff] at haccept
          refine hdescend rfl fun c hc => ?_
          rcases List.mem_append.mp hc with hc | hc
          · rcases List.mem_append.mp hc with hc | hc
            · exact classifyOption_eq_none haccept.1 c hc
            · exact classifyWhens_eq_none haccept.2.1 c hc
          · exact classifyOption_eq_none haccept.2.2 c hc
      | _ =>
          simp only [classifySelfDeterminedExpr, Option.or_eq_none_iff] at haccept
          exact hdescend rfl (by simp [Expr.children, haccept])

end Walk

/-! ## Exactly when -/

/-- An accepted statement has a predicate that its structural walk accepts. -/
theorem predicate_of_accepted [Sql] {ω : Type} {sql key : String}
    {resolver : String → ω → Volatility × ω} {w : ω}
    (h : (selfDeterminedPredicateReason sql key resolver w).1 = none) :
    ∃ e, wherePredicate sql = some e ∧
      classifySelfDeterminedExpr (bareName (Sql.toLowercase key)) e = none := by
  rw [selfDeterminedPredicateReason_eq] at h
  rcases hreason : selfDeterminedPredicateStructuralReason sql key with _ | reason
  · unfold selfDeterminedPredicateStructuralReason at hreason
    unfold wherePredicate
    rcases hparse : parseOne sql with _ | stmt
    · rw [hparse] at hreason
      cases hreason
    rw [hparse] at hreason
    simp only at hreason
    split at hreason
    · cases hreason
    rcases hpredicate : predicateOf stmt with _ | _ | e
    · rw [hpredicate] at hreason
      cases hreason
    · rw [hpredicate] at hreason
      cases hreason
    · rw [hpredicate] at hreason
      exact ⟨e, by simp [hpredicate], hreason⟩
  · rw [hreason] at h
    cases h

/-- An accepted predicate refers to the key alone exactly when none of the
references that the gate does not see stands in it. -/
theorem references_iff_spelled [Sql] {key : String} {e : Expr}
    (haccept : classifySelfDeterminedExpr (bareName (Sql.toLowercase key)) e = none) :
    (∀ ref ∈ references e, ref = .column key) ↔ Spelled key e := by
  constructor
  · intro hall
    have hnode : ∀ node ∈ e.preorder, ∀ ref ∈ nodeRefs node, ref = .column key :=
      fun node hnode ref href => hall ref (List.mem_flatMap.mpr ⟨node, hnode, href⟩)
    refine ⟨?_, ?_, ?_⟩
    · intro node hmem col hcol _
      have hrefs := hnode node hmem
      rw [nodeRefs_of_columnOf hcol] at hrefs
      have heq := hrefs _ (List.mem_singleton_self _)
      exact Ref.column.inj heq
    · intro name args clauses hmem
      refine Classical.byContradiction fun hne => ?_
      obtain ⟨ref, href⟩ := List.exists_mem_of_ne_nil _ hne
      have hcolumn := hnode _ hmem ref href
      obtain ⟨arg, -, harg⟩ := List.mem_flatMap.mp href
      rw [hcolumn] at harg
      cases arg <;> simp [argRefs] at harg
    · intro inner hmem ref href
      obtain ⟨node, hnode', href'⟩ := List.mem_flatMap.mp href
      refine hnode node ?_ ref href'
      exact Expr.mem_preorder_trans hmem (Expr.mem_preorder_of_child (by simp [Expr.children])
        hnode')
  · intro hspelled
    exact references_of_accepted hspelled haccept

/-- An accepted predicate is determined by the key exactly when none of the
references that the gate does not see stands in it, and none of its functions,
operators and other constructs runs code that reads tables. -/
theorem selfDetermined_iff [Sql] {ω : Type} (sql key : String)
    (resolver : String → ω → Volatility × ω) (w : ω)
    (h : (selfDeterminedPredicateReason sql key resolver w).1 = none) :
    ∃ e, wherePredicate sql = some e ∧ ∀ reads : Expr → Prop,
      DeterminedBy reads key e ↔ Spelled key e ∧ ReadsNoTable reads e := by
  obtain ⟨e, he, haccept⟩ := predicate_of_accepted h
  refine ⟨e, he, fun reads => ?_⟩
  rw [determinedBy_iff, references_iff_spelled haccept]

/-! ## A quoted column next to the key -/

/-- A delete of the rows a condition selects. -/
def deleteWhere (e : Expr) : Statement :=
  .delete
    { fromTables := [⟨.table [.plain "accounts"], []⟩]
      using? := none
      selection := some e }

def keyText : String := "DELETE FROM accounts WHERE id = 1"

def keyCondition : Expr := .binaryOp (.identifier (.plain "id")) "=" (.value "1")

/-- A condition on another column, whose name is the key's in lower case. -/
def quotedText : String := "DELETE FROM accounts WHERE \"ID\" = 1"

def quotedCondition : Expr := .binaryOp (.identifier ⟨"ID", some '"'⟩) "=" (.value "1")

@[reducible] def deleteSql : Sql :=
  .knowing [(keyText, deleteWhere keyCondition), (quotedText, deleteWhere quotedCondition)]

/-- The condition on the key is accepted and determined by it, over an equality
that reads no table. -/
theorem selfDetermined_iff_key :
    letI := deleteSql
    ∃ e, wherePredicate keyText = some e ∧ DeterminedBy (fun _ => False) "id" e := by
  let _ := deleteSql
  have haccept : (selfDeterminedPredicateReason keyText "id"
      (steady fun _ => .immutable) ()).1 = none := by
    decide +kernel
  obtain ⟨e, he, hiff⟩ := selfDetermined_iff keyText "id" (steady fun _ => .immutable) () haccept
  have hkey : wherePredicate keyText = some keyCondition := rfl
  rw [hkey] at he
  cases he
  have hwalk : keyCondition.preorder =
      [keyCondition, .identifier (.plain "id"), .value "1"] := rfl
  refine ⟨keyCondition, hkey, (hiff _).mpr ⟨⟨?_, ?_, ?_⟩, fun _ _ _ h => h⟩⟩
  · intro node hnode col hcol _
    rw [hwalk] at hnode
    simp only [List.mem_cons, List.not_mem_nil, or_false] at hnode
    rcases hnode with rfl | rfl | rfl
    · cases hcol
    · cases hcol
      decide
    · cases hcol
  · intro name args clauses hnode
    rw [hwalk] at hnode
    simp [keyCondition] at hnode
  · intro inner hnode
    rw [hwalk] at hnode
    simp [keyCondition] at hnode

/-- The condition on the quoted column is accepted for the key `id`, and refers to
another column. -/
theorem quotedKey_not_selfDetermined :
    letI := deleteSql
    (selfDeterminedPredicateReason quotedText "id" (steady fun _ => .immutable) ()).1 = none ∧
      wherePredicate quotedText = some quotedCondition ∧
      ¬ DeterminedBy (fun _ => False) "id" quotedCondition := by
  let _ := deleteSql
  refine ⟨by decide +kernel, rfl, fun h => ?_⟩
  have hpinned := h.pinned (.column "ID") (by decide +kernel)
  exact absurd (Ref.column.inj hpinned) (by decide)

end PgBrakes.Ports.SelfDetermined
