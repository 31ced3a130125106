import PgBrakes.Ports.SqlAst

/-!
# Walking an expression

The parser's visitor meets an expression and everything below it.  Here an
expression has direct subexpressions, in the visitor's order, and everything that
is computed or proved node by node goes through them.

## Main results

* `Expr.induction_children` — induction over the direct subexpressions.
* `Expr.preorder_eq` — the visitor meets the expression, then what it meets in
  each direct subexpression.
-/

namespace PgBrakes.Ports.SqlAst

/-- The expressions directly in an argument. -/
def FunctionArg.children : FunctionArg → List Expr
  | .expr e => [e]
  | .qualifiedWildcard _ => []
  | .wildcard => []
  | .query q => q

/-- The expressions directly in a branch. -/
def CaseWhen.children : CaseWhen → List Expr
  | .mk condition result => [condition, result]

/-- The direct subexpressions, in the order of the parser's visitor. -/
def Expr.children : Expr → List Expr
  | .identifier _ => []
  | .compoundIdentifier _ => []
  | .compoundFieldAccess root chain => root :: chain
  | .subquery query => query
  | .exists query => query
  | .inSubquery expr query => expr :: query
  | .anyOp left right => [left, right]
  | .allOp left right => [left, right]
  | .inUnnest expr arr => [expr, arr]
  | .binaryOp left _ right => [left, right]
  | .unaryOp _ expr => [expr]
  | .nested expr => [expr]
  | .is _ expr => [expr]
  | .between expr low high => [expr, low, high]
  | .inList expr list => expr :: list
  | .like _ expr pattern => [expr, pattern]
  | .cast expr _ => [expr]
  | .collate expr _ => [expr]
  | .isDistinctFrom left right => [left, right]
  | .isNotDistinctFrom left right => [left, right]
  | .case operand conditions elseResult =>
      operand.toList ++ conditions.flatMap CaseWhen.children ++ elseResult.toList
  | .function _ args clauses => args.flatMap FunctionArg.children ++ clauses
  | .value _ => []
  | .typedString _ _ => []
  | .interval expr => [expr]
  | .other _ children => children

theorem preorderList_eq (es : List Expr) : preorderList es = es.flatMap Expr.preorder := by
  induction es with
  | nil => rfl
  | cons e es ih => rw [preorderList, ih, List.flatMap_cons]

theorem preorderOption_eq (e : Option Expr) :
    preorderOption e = e.toList.flatMap Expr.preorder := by
  cases e with
  | none => rfl
  | some e => simp [preorderOption]

theorem preorderWhens_eq (whens : List CaseWhen) :
    preorderWhens whens = (whens.flatMap CaseWhen.children).flatMap Expr.preorder := by
  induction whens with
  | nil => rfl
  | cons when whens ih =>
      obtain ⟨condition, result⟩ := when
      rw [preorderWhens, ih]
      simp [CaseWhen.children]

theorem preorderArgs_eq (args : List FunctionArg) :
    preorderArgs args = (args.flatMap FunctionArg.children).flatMap Expr.preorder := by
  induction args with
  | nil => rfl
  | cons arg args ih =>
      cases arg with
      | expr e => simp [preorderArgs, ih, FunctionArg.children]
      | qualifiedWildcard name => simp [preorderArgs, ih, FunctionArg.children]
      | wildcard => simp [preorderArgs, ih, FunctionArg.children]
      | query query => simp [preorderArgs, ih, FunctionArg.children, preorderList_eq]

/-- The visitor meets the expression, then what it meets in each direct
subexpression. -/
theorem Expr.preorder_eq (e : Expr) : e.preorder = e :: e.children.flatMap Expr.preorder := by
  cases e with
  | case operand conditions elseResult =>
      simp [Expr.preorder, Expr.children, preorderOption_eq, preorderWhens_eq]
  | function name args clauses =>
      simp [Expr.preorder, Expr.children, preorderArgs_eq, preorderList_eq]
  | _ => simp [Expr.preorder, Expr.children, preorderList_eq]

theorem Expr.mem_preorder_self (e : Expr) : e ∈ e.preorder := by
  rw [e.preorder_eq]
  exact List.mem_cons_self

/-- What the visitor meets in a direct subexpression, it meets in the
expression. -/
theorem Expr.mem_preorder_of_child {e c node : Expr} (hc : c ∈ e.children)
    (h : node ∈ c.preorder) : node ∈ e.preorder := by
  rw [e.preorder_eq]
  exact List.mem_cons_of_mem _ (List.mem_flatMap.mpr ⟨c, hc, h⟩)

private theorem sizeOf_arg_child {arg : FunctionArg} {c : Expr} (h : c ∈ arg.children) :
    sizeOf c < sizeOf arg := by
  cases arg with
  | expr e =>
      rw [List.mem_singleton.mp h]
      simp
  | qualifiedWildcard name => cases h
  | wildcard => cases h
  | query q =>
      have hlt : sizeOf c < sizeOf q := List.sizeOf_lt_of_mem h
      simp only [FunctionArg.query.sizeOf_spec]
      omega

private theorem sizeOf_when_child {when : CaseWhen} {c : Expr} (h : c ∈ when.children) :
    sizeOf c < sizeOf when := by
  obtain ⟨condition, result⟩ := when
  rcases List.mem_cons.mp h with rfl | h
  · simp only [CaseWhen.mk.sizeOf_spec]
    omega
  · rw [List.mem_singleton.mp h]
    simp only [CaseWhen.mk.sizeOf_spec]
    omega

/-- A direct subexpression is smaller. -/
theorem Expr.sizeOf_lt_of_child {e c : Expr} (h : c ∈ e.children) : sizeOf c < sizeOf e := by
  cases e with
  | case operand conditions elseResult =>
      rcases List.mem_append.mp h with h | h
      · rcases List.mem_append.mp h with h | h
        · cases operand with
          | none => cases h
          | some e =>
              rw [List.mem_singleton.mp h]
              simp
              omega
        · obtain ⟨when, hwhen, hc⟩ := List.mem_flatMap.mp h
          have hinner := sizeOf_when_child hc
          have houter := List.sizeOf_lt_of_mem hwhen
          simp
          omega
      · cases elseResult with
        | none => cases h
        | some e =>
            rw [List.mem_singleton.mp h]
            simp
            omega
  | function name args clauses =>
      rcases List.mem_append.mp h with h | h
      · obtain ⟨arg, harg, hc⟩ := List.mem_flatMap.mp h
        have hinner := sizeOf_arg_child hc
        have houter := List.sizeOf_lt_of_mem harg
        simp
        omega
      · have hlt := List.sizeOf_lt_of_mem h
        simp
        omega
  | subquery q | «exists» q | other label q =>
      have hlt : sizeOf c < sizeOf q := List.sizeOf_lt_of_mem h
      simp
      omega
  | compoundFieldAccess first rest | inSubquery first rest | inList first rest =>
      rcases List.mem_cons.mp h with rfl | h
      · simp
        omega
      · have hlt : sizeOf c < sizeOf rest := List.sizeOf_lt_of_mem h
        simp
        omega
  | _ =>
      simp [Expr.children] at h
      try rcases h with rfl | rfl | rfl
      all_goals simp
      all_goals try omega

/-- Induction over the direct subexpressions. -/
theorem Expr.induction_children {P : Expr → Prop}
    (h : ∀ e, (∀ c ∈ e.children, P c) → P e) (e : Expr) : P e :=
  h e fun c _ => Expr.induction_children h c
termination_by sizeOf e
decreasing_by exact Expr.sizeOf_lt_of_child ‹_›

/-- What the visitor meets in a node that it meets, it meets. -/
theorem Expr.mem_preorder_trans {e node inner : Expr} (h : node ∈ e.preorder)
    (hinner : inner ∈ node.preorder) : inner ∈ e.preorder := by
  induction e using Expr.induction_children with
  | h e ih =>
      rw [e.preorder_eq] at h
      rcases List.mem_cons.mp h with rfl | h
      · exact hinner
      · obtain ⟨c, hc, hmem⟩ := List.mem_flatMap.mp h
        exact Expr.mem_preorder_of_child hc (ih c hc hmem)

end PgBrakes.Ports.SqlAst
