import PgBrakes.Ports.ExprWalk

/-!
# What a predicate depends on

The value of an expression on a row, over any meaning of operators, functions,
literals and subqueries: the value of a node is a function of the node, of the
database and of the values of its direct subexpressions.  Row data enters through
column names and whole-row arguments, and through code that reads tables: a
function the catalog calls stable may, and so may an operator.  A name is read by
the rules of the server: as it is written inside quotes, and with its ASCII letters
in lower case outside of them.

## Main results

* `value_congr` — an expression whose only references are to one column, and which
  runs no code that reads tables, has the same value on rows that agree on the
  column, whatever the rest of the database is.
* `selectedKeys_congr` — such a predicate selects the same keys in two tables
  that agree on the keys.
* `detector_true`, `detector_false` — a meaning under which an expression tells two databases
  apart as soon as one of its nodes reads tables.
* `value_congr_interp` — two meanings that agree on every node of an expression
  give it the same value.
-/

namespace PgBrakes.Ports.PredicateMeaning

open PgBrakes.Ports.SqlAst

/-! ## References -/

/-- A reference of an expression to data. -/
inductive Ref where
  | column (name : String)
  | wholeRow
  | query
deriving DecidableEq, Repr

/-- The column a name denotes. -/
def denotes (ident : Ident) : String :=
  match ident.quoteStyle with
  | some _ => ident.value
  | none => String.ofList (ident.value.toList.map Char.toLower)

/-- The column name of a node: what stands behind the last dot. -/
def columnOf : Expr → Option Ident
  | .identifier ident => some ident
  | .compoundIdentifier parts => parts.getLast?
  | _ => none

/-- A whole row, or a query, as an argument. -/
def argRefs : FunctionArg → List Ref
  | .expr _ => []
  | .qualifiedWildcard _ => [.wholeRow]
  | .wildcard => []
  | .query _ => [.query]

/-- The references of a node, without those of the nodes below it. -/
def nodeRefs : Expr → List Ref
  | .identifier ident => [.column (denotes ident)]
  | .compoundIdentifier parts => parts.getLast?.toList.map fun col => .column (denotes col)
  | .subquery _ => [.query]
  | .exists _ => [.query]
  | .inSubquery _ _ => [.query]
  | .function _ args _ => args.flatMap argRefs
  | _ => []

/-- The references anywhere in an expression. -/
def references (e : Expr) : List Ref := e.preorder.flatMap nodeRefs

theorem references_eq (e : Expr) :
    references e = nodeRefs e ++ e.children.flatMap references := by
  unfold references
  rw [e.preorder_eq, List.flatMap_cons, List.flatMap_assoc]

/-- No node of an expression, column references apart, runs code that reads
tables. -/
def ReadsNoTable (reads : Expr → Prop) (e : Expr) : Prop :=
  ∀ node ∈ e.preorder, columnOf node = none → ¬ reads node

theorem ReadsNoTable.child {reads : Expr → Prop} {e c : Expr} (h : ReadsNoTable reads e)
    (hc : c ∈ e.children) : ReadsNoTable reads c :=
  fun node hnode => h node (Expr.mem_preorder_of_child hc hnode)

theorem nodeRefs_of_columnOf {e : Expr} {col : Ident} (h : columnOf e = some col) :
    nodeRefs e = [.column (denotes col)] := by
  cases e with
  | identifier ident =>
      cases h
      rfl
  | compoundIdentifier parts =>
      have hlast : parts.getLast? = some col := h
      simp [nodeRefs, hlast]
  | _ => cases h

/-! ## Values -/

section Value

variable {ν δ : Type}

/-- A meaning of everything but the row data: of a node from the database and the
values below it, of a node with a whole-row argument, and of a node with a
query. -/
structure Interp (ν δ : Type) where
  apply : Expr → δ → List ν → ν
  whole : Expr → δ → (String → ν) → List ν → ν
  query : Expr → δ → (String → ν) → List ν → ν

/-- A meaning under which only the given nodes run code that reads tables. -/
def Interp.Respects (I : Interp ν δ) (reads : Expr → Prop) : Prop :=
  ∀ node, ¬ reads node → ∀ db db' values, I.apply node db values = I.apply node db' values

/-- The value of a node from the values of its direct subexpressions. -/
def nodeValue (I : Interp ν δ) (db : δ) (row : String → ν) (e : Expr) (values : List ν) : ν :=
  match columnOf e with
  | some col => row (denotes col)
  | none =>
      if .query ∈ nodeRefs e then I.query e db row values
      else if .wholeRow ∈ nodeRefs e then I.whole e db row values
      else I.apply e db values

/-- The value of an expression on a row. -/
def value (I : Interp ν δ) (db : δ) (row : String → ν) (e : Expr) : ν :=
  nodeValue I db row e (e.children.attach.map fun c => value I db row c.1)
termination_by sizeOf e
decreasing_by exact Expr.sizeOf_lt_of_child c.2

theorem value_eq (I : Interp ν δ) (db : δ) (row : String → ν) (e : Expr) :
    value I db row e = nodeValue I db row e (e.children.map (value I db row)) := by
  rw [value]
  congr 1
  exact List.attach_map_val (f := value I db row)

/-- The key values of the rows a predicate selects. -/
def selectedKeys (I : Interp ν δ) (truth : ν → Bool) (key : String) (db : δ)
    (rows : List (String → ν)) (e : Expr) : List ν :=
  (rows.filter fun row => truth (value I db row e)).map fun row => row key

/-- Rows that agree on the only column an expression refers to give it the same
value, in any two databases when nothing in it reads tables. -/
theorem value_congr {I : Interp ν δ} {reads : Expr → Prop} (hI : I.Respects reads)
    {key : String} {db db' : δ} {row row' : String → ν} (hkey : row key = row' key) {e : Expr}
    (h : ∀ ref ∈ references e, ref = .column key) (hreads : ReadsNoTable reads e) :
    value I db row e = value I db' row' e := by
  induction e using Expr.induction_children with
  | h e ih =>
      have hvalues : e.children.map (value I db row) = e.children.map (value I db' row') := by
        refine List.map_congr_left fun c hc => ih c hc (fun ref href => h ref ?_)
          (hreads.child hc)
        rw [references_eq]
        exact List.mem_append_right _ (List.mem_flatMap.mpr ⟨c, hc, href⟩)
      have hnode : ∀ ref ∈ nodeRefs e, ref = .column key := by
        intro ref href
        refine h ref ?_
        rw [references_eq]
        exact List.mem_append_left _ href
      rw [value_eq, value_eq, hvalues]
      unfold nodeValue
      rcases hcol : columnOf e with _ | col
      · have hquery : Ref.query ∉ nodeRefs e := fun hmem => by cases hnode _ hmem
        have hwhole : Ref.wholeRow ∉ nodeRefs e := fun hmem => by cases hnode _ hmem
        simp only [if_neg hquery, if_neg hwhole]
        exact hI e (hreads e e.mem_preorder_self hcol) db db' _
      · have hdenotes := hnode (.column (denotes col)) (by rw [nodeRefs_of_columnOf hcol]; simp)
        cases hdenotes
        exact hkey

/-- Tables that agree on the keys give a predicate on the keys alone the same
keys. -/
theorem selectedKeys_congr {I : Interp ν δ} {reads : Expr → Prop} (hI : I.Respects reads)
    (truth : ν → Bool) {key : String} {db db' : δ} {rows rows' : List (String → ν)} {e : Expr}
    (h : ∀ ref ∈ references e, ref = .column key) (hreads : ReadsNoTable reads e)
    (hkeys : (rows.map fun row => row key) = rows'.map fun row => row key) :
    selectedKeys I truth key db rows e = selectedKeys I truth key db' rows' e := by
  induction rows generalizing rows' with
  | nil =>
      cases rows' with
      | nil => rfl
      | cons row' rows' => cases hkeys
  | cons row rows ih =>
      cases rows' with
      | nil => cases hkeys
      | cons row' rows' =>
          rw [List.map_cons, List.map_cons, List.cons.injEq] at hkeys
          have hrest := ih hkeys.2
          have hvalue : value I db row e = value I db' row' e :=
            value_congr hI hkeys.1 h hreads
          unfold selectedKeys at hrest ⊢
          rw [List.filter_cons, List.filter_cons, hvalue]
          by_cases htrue : truth (value I db' row' e) = true
          · rw [if_pos htrue, if_pos htrue, List.map_cons, List.map_cons, hkeys.1, hrest]
          · rw [if_neg htrue, if_neg htrue, hrest]

/-- Two meanings that agree on every node of an expression give it the same
value. -/
theorem value_congr_interp {I I' : Interp ν δ} {db : δ} {row : String → ν} {e : Expr}
    (h : ∀ node ∈ e.preorder, ∀ values,
      nodeValue I db row node values = nodeValue I' db row node values) :
    value I db row e = value I' db row e := by
  induction e using Expr.induction_children with
  | h e ih =>
      have hvalues : e.children.map (value I db row) = e.children.map (value I' db row) :=
        List.map_congr_left fun c hc =>
          ih c hc fun node hnode => h node (Expr.mem_preorder_of_child hc hnode)
      rw [value_eq, value_eq, hvalues]
      exact h e e.mem_preorder_self _

end Value

/-! ## A meaning that shows every reading node -/

open Classical in
/-- The database is one bit, a node that reads tables passes it on, and every node
passes on what is below it. -/
noncomputable def detector (reads : Expr → Prop) : Interp Bool Bool where
  apply node db values := decide (reads node) && db || values.any id
  whole _ db _ values := db || values.any id
  query _ db _ values := db || values.any id

theorem detector_respects (reads : Expr → Prop) : (detector reads).Respects reads := by
  intro node hnode db db' values
  simp [detector, hnode]

theorem children_of_columnOf {e : Expr} {col : Ident} (h : columnOf e = some col) :
    e.children = [] := by
  cases e with
  | identifier ident => rfl
  | compoundIdentifier parts => rfl
  | _ => cases h

/-- A node passes on what is below it. -/
theorem detector_of_any (reads : Expr → Prop) (db : Bool) (row : String → Bool) {e : Expr}
    (hcol : columnOf e = none) {values : List Bool} (hany : values.any id = true) :
    nodeValue (detector reads) db row e values = true := by
  unfold nodeValue
  simp only [hcol, detector, hany, Bool.or_true, ite_self]

/-- Over an empty bit and a row without a true column nothing is true. -/
theorem detector_false (reads : Expr → Prop) (e : Expr) :
    value (detector reads) false (fun _ => false) e = false := by
  induction e using Expr.induction_children with
  | h e ih =>
      have hvalues : (e.children.map (value (detector reads) false fun _ => false)).any id =
          false := by
        rw [List.any_eq_false]
        intro v hv
        obtain ⟨c, hc, rfl⟩ := List.mem_map.mp hv
        simp [ih c hc]
      rw [value_eq]
      generalize e.children.map (value (detector reads) false fun _ => false) = values at hvalues
      unfold nodeValue
      rcases columnOf e with _ | col
      · simp only [detector, hvalues, Bool.and_false, Bool.or_self, ite_self]
      · rfl

/-- Over a set bit an expression is true as soon as one of its nodes reads
tables. -/
theorem detector_true {reads : Expr → Prop} {row : String → Bool} {e node : Expr}
    (hnode : node ∈ e.preorder) (hcol : columnOf node = none) (hreads : reads node) :
    value (detector reads) true row e = true := by
  induction e using Expr.induction_children with
  | h e ih =>
      rw [e.preorder_eq] at hnode
      rw [value_eq]
      rcases List.mem_cons.mp hnode with rfl | hbelow
      · unfold nodeValue
        rw [hcol]
        simp [detector, hreads]
      · obtain ⟨c, hc, hmem⟩ := List.mem_flatMap.mp hbelow
        rcases hself : columnOf e with _ | col
        · apply detector_of_any reads true row hself
          exact List.any_eq_true.mpr ⟨_, List.mem_map_of_mem hc, ih c hc hmem⟩
        · rw [children_of_columnOf hself] at hc
          cases hc

end PgBrakes.Ports.PredicateMeaning
