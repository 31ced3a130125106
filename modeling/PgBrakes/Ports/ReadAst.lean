import Mathlib.Tactic.Tauto
import PgBrakes.Ports.SqlAst
import PgBrakes.Verified.TreeSweep

/-!
# The parsed statement, as the read classifier sees it

The read classifier looks at queries as well as at expressions, so here a
subquery keeps its structure: common table expressions, set operations, `FROM`
items and locking clauses.  Expressions the classifier does not tell apart are
`other`, with the expressions below them; clauses of a query or of a `FROM` item
are the expressions in them.

The parser's visitor meets every node of a statement.  A node's children are of
two kinds: the ones the classifier's two structural recursions go on to, and the
ones they leave out.

## Main results

* `Node.mem_nodes_iff` — the visitor meets exactly the nodes that stand in the
  statement.
-/

namespace PgBrakes.Ports.ReadAst

open PgBrakes.Ports.SqlAst (Ident)
open PgBrakes.Verified.TreeSweep

/-- One part of a name: an identifier, or a function that computes one. -/
inductive ObjectNamePart where
  | ident (ident : Ident)
  | function (name : Ident)
deriving DecidableEq

/-- A possibly qualified name. -/
abbrev ObjectName := List ObjectNamePart

/-- The type in a cast.  The built-in scalar types are `builtin`. -/
inductive DataType where
  | custom (name : ObjectName)
  | untypedArray
  | array (element : DataType)
  | nullable (inner : DataType)
  | lowCardinality (inner : DataType)
  | map (key value : DataType)
  | struct
  | union
  | tuple
  | nested
  | namedTable
  | builtin (name : String)

/-- A binary operator.  The operators of the language are `builtin`. -/
inductive BinaryOperator where
  | pgCustomBinaryOperator (parts : List String)
  | custom (token : String)
  | builtin (symbol : String)

/-- A locking clause; `FOR UPDATE` where `exclusive`, else `FOR SHARE`. -/
structure LockClause where
  exclusive : Bool

/-- The statement a query body can be instead of a query. -/
inductive WriteKind where
  | insert
  | update
  | delete
  | merge

mutual

/-- An expression. -/
inductive Expr where
  | function (name : ObjectName) (args : FunctionArguments) (clauses : List Expr)
  | binaryOp (left : Expr) (op : BinaryOperator) (right : Expr)
  | unaryOp (op : String) (expr : Expr)
  | cast (expr : Expr) (dataType : DataType)
  | convert (expr : Expr) (dataType : Option DataType)
  | typedString (dataType : DataType) (value : String)
  | anyOp (left : Expr) (compareOp : BinaryOperator) (right : Expr)
  | allOp (left : Expr) (compareOp : BinaryOperator) (right : Expr)
  | subquery (query : Query)
  | exists (query : Query)
  | inSubquery (expr : Expr) (query : Query)
  | other (label : String) (children : List Expr)

/-- The arguments of a call; a query stands where the whole argument list is
one. -/
inductive FunctionArguments where
  | none
  | subquery (query : Query)
  | list (args : List Expr)

/-- A query: its common table expressions, its body, the expressions of its
`ORDER BY`, `LIMIT` and the like, and its locking clauses. -/
inductive Query where
  | mk (ctes : List Query) (body : SetExpr) (clauses : List Expr) (locks : List LockClause)

/-- The body of a query. -/
inductive SetExpr where
  | select (into : Option ObjectName) (from_ : List TableWithJoins) (exprs : List Expr)
  | query (query : Query)
  | setOperation (left right : SetExpr)
  | values (rows : List Expr)
  | table (name : String)
  | write (kind : WriteKind) (queries : List Query) (tables : List TableWithJoins)
      (exprs : List Expr)

/-- A `FROM` item with what is joined to it. -/
inductive TableWithJoins where
  | mk (relation : TableFactor) (joins : List Join)

/-- A joined `FROM` item and the expressions of the join condition. -/
inductive Join where
  | mk (relation : TableFactor) (constraint : List Expr)

/-- A `FROM` item.  With arguments, `table` is a call of a table function.  The
items that turn another one around are `pivot`. -/
inductive TableFactor where
  | table (name : ObjectName) (args : Option (List Expr)) (clauses : List Expr)
  | derived (subquery : Query)
  | tableFunction (expr : Expr)
  | function (name : ObjectName) (args : List Expr)
  | unnest (exprs : List Expr)
  | jsonTable (exprs : List Expr)
  | nestedJoin (tableWithJoins : TableWithJoins)
  | pivot (table : TableFactor) (exprs : List Expr) (queries : List Query)

end

/-- The kinds of statement the classifier refuses whatever they hold. -/
inductive StatementKind where
  | explainTable
  | copy
  | insert
  | update
  | delete
  | truncate
  | merge
  | createTable
  | createView
  | createSchema
  | createIndex
  | alterTable
  | drop
  | other

/-- A statement.  Of the refused kinds only the expressions in them are kept. -/
inductive Statement where
  | query (query : Query)
  | explain (analyze : Bool) (options : Option (List Ident)) (statement : Statement)
  | refused (kind : StatementKind) (exprs : List Expr)

/-- The third-party parser. -/
class Parser where
  parseSql : String → Except String (List Statement)

/-- A parser that knows a list of texts. -/
@[reducible] def Parser.knowing (texts : List (String × Statement)) : Parser where
  parseSql text :=
    match texts.lookup text with
    | some stmt => .ok [stmt]
    | none => .error "sql parser error"

/-- A name of one identifier, written without quotes. -/
def ObjectName.plain (value : String) : ObjectName := [.ident (.plain value)]

/-! ## The visitor -/

/-- A node of a statement. -/
inductive Node where
  | expr (e : Expr)
  | query (q : Query)
  | setExpr (s : SetExpr)
  | factor (f : TableFactor)

mutual

/-- The expression and every node below it. -/
def Expr.nodes : Expr → List Node
  | .function name args clauses =>
      .expr (.function name args clauses) :: (args.nodes ++ exprNodes clauses)
  | .binaryOp left op right => .expr (.binaryOp left op right) :: (left.nodes ++ right.nodes)
  | .unaryOp op expr => .expr (.unaryOp op expr) :: expr.nodes
  | .cast expr dataType => .expr (.cast expr dataType) :: expr.nodes
  | .convert expr dataType => .expr (.convert expr dataType) :: expr.nodes
  | .typedString dataType value => [.expr (.typedString dataType value)]
  | .anyOp left op right => .expr (.anyOp left op right) :: (left.nodes ++ right.nodes)
  | .allOp left op right => .expr (.allOp left op right) :: (left.nodes ++ right.nodes)
  | .subquery query => .expr (.subquery query) :: query.nodes
  | .exists query => .expr (.exists query) :: query.nodes
  | .inSubquery expr query => .expr (.inSubquery expr query) :: (expr.nodes ++ query.nodes)
  | .other label children => .expr (.other label children) :: exprNodes children

def FunctionArguments.nodes : FunctionArguments → List Node
  | .none => []
  | .subquery query => query.nodes
  | .list args => exprNodes args

def Query.nodes : Query → List Node
  | .mk ctes body clauses locks =>
      .query (.mk ctes body clauses locks) ::
        (queryNodes ctes ++ body.nodes ++ exprNodes clauses)

def SetExpr.nodes : SetExpr → List Node
  | .select into from_ exprs =>
      .setExpr (.select into from_ exprs) :: (tableNodes from_ ++ exprNodes exprs)
  | .query query => .setExpr (.query query) :: query.nodes
  | .setOperation left right =>
      .setExpr (.setOperation left right) :: (left.nodes ++ right.nodes)
  | .values rows => .setExpr (.values rows) :: exprNodes rows
  | .table name => [.setExpr (.table name)]
  | .write kind queries tables exprs =>
      .setExpr (.write kind queries tables exprs) ::
        (queryNodes queries ++ tableNodes tables ++ exprNodes exprs)

def TableWithJoins.nodes : TableWithJoins → List Node
  | .mk relation joins => relation.nodes ++ joinNodes joins

def Join.nodes : Join → List Node
  | .mk relation constraint => relation.nodes ++ exprNodes constraint

def TableFactor.nodes : TableFactor → List Node
  | .table name args clauses =>
      .factor (.table name args clauses) :: (argNodes args ++ exprNodes clauses)
  | .derived subquery => .factor (.derived subquery) :: subquery.nodes
  | .tableFunction expr => .factor (.tableFunction expr) :: expr.nodes
  | .function name args => .factor (.function name args) :: exprNodes args
  | .unnest exprs => .factor (.unnest exprs) :: exprNodes exprs
  | .jsonTable exprs => .factor (.jsonTable exprs) :: exprNodes exprs
  | .nestedJoin tableWithJoins => .factor (.nestedJoin tableWithJoins) :: tableWithJoins.nodes
  | .pivot table exprs queries =>
      .factor (.pivot table exprs queries) ::
        (table.nodes ++ exprNodes exprs ++ queryNodes queries)

def exprNodes : List Expr → List Node
  | [] => []
  | e :: es => e.nodes ++ exprNodes es

def argNodes : Option (List Expr) → List Node
  | none => []
  | some args => exprNodes args

def queryNodes : List Query → List Node
  | [] => []
  | q :: qs => q.nodes ++ queryNodes qs

def tableNodes : List TableWithJoins → List Node
  | [] => []
  | t :: ts => t.nodes ++ tableNodes ts

def joinNodes : List Join → List Node
  | [] => []
  | j :: js => j.nodes ++ joinNodes js

end

/-- The node and every node below it. -/
def Node.nodes : Node → List Node
  | .expr e => e.nodes
  | .query q => q.nodes
  | .setExpr s => s.nodes
  | .factor f => f.nodes

/-- Every node of a statement. -/
def Statement.nodes : Statement → List Node
  | .query q => q.nodes
  | .explain _ _ statement => statement.nodes
  | .refused _ exprs => exprNodes exprs

/-- The expression at a node. -/
def Node.expr? : Node → Option Expr
  | .expr e => some e
  | .query _ => none
  | .setExpr _ => none
  | .factor _ => none

/-- The expressions the parser's visitor hands out: every one in the
statement. -/
def Statement.visitExpressions (stmt : Statement) : List Expr :=
  stmt.nodes.filterMap Node.expr?

/-! ## The children of a node -/

/-- The joined `FROM` item. -/
def Join.factor : Join → Node
  | .mk relation _ => .factor relation

/-- The expressions of the join condition. -/
def Join.constraints : Join → List Node
  | .mk _ constraint => constraint.map .expr

/-- A `FROM` item and the items joined to it. -/
def TableWithJoins.factors : TableWithJoins → List Node
  | .mk relation joins => .factor relation :: joins.map Join.factor

/-- The expressions of its join conditions. -/
def TableWithJoins.constraints : TableWithJoins → List Node
  | .mk _ joins => joins.flatMap Join.constraints

/-- The nodes in the arguments of a call. -/
def FunctionArguments.children : FunctionArguments → List Node
  | .none => []
  | .subquery query => [.query query]
  | .list args => args.map .expr

/-- The children that the classifier's structural recursions go on to. -/
def Node.followed : Node → List Node
  | .query (.mk ctes body _ _) => ctes.map .query ++ [.setExpr body]
  | .setExpr (.select _ from_ _) => from_.flatMap TableWithJoins.factors
  | .setExpr (.query q) => [.query q]
  | .setExpr (.setOperation left right) => [.setExpr left, .setExpr right]
  | .factor (.derived q) => [.query q]
  | .factor (.nestedJoin tableWithJoins) => tableWithJoins.factors
  | _ => []

/-- The children that they leave out: everything below an expression, what a
pivot turns around, the parts of a write, and every expression. -/
def Node.skipped : Node → List Node
  | .expr (.function _ args clauses) => args.children ++ clauses.map .expr
  | .expr (.binaryOp left _ right) => [.expr left, .expr right]
  | .expr (.unaryOp _ e) => [.expr e]
  | .expr (.cast e _) => [.expr e]
  | .expr (.convert e _) => [.expr e]
  | .expr (.typedString _ _) => []
  | .expr (.anyOp left _ right) => [.expr left, .expr right]
  | .expr (.allOp left _ right) => [.expr left, .expr right]
  | .expr (.subquery q) => [.query q]
  | .expr (.exists q) => [.query q]
  | .expr (.inSubquery e q) => [.expr e, .query q]
  | .expr (.other _ children) => children.map .expr
  | .query (.mk _ _ clauses _) => clauses.map .expr
  | .setExpr (.select _ from_ exprs) =>
      from_.flatMap TableWithJoins.constraints ++ exprs.map .expr
  | .setExpr (.query _) => []
  | .setExpr (.setOperation _ _) => []
  | .setExpr (.values rows) => rows.map .expr
  | .setExpr (.table _) => []
  | .setExpr (.write _ queries tables exprs) =>
      queries.map .query ++ tables.flatMap TableWithJoins.factors ++
        tables.flatMap TableWithJoins.constraints ++ exprs.map .expr
  | .factor (.table _ args clauses) => (args.getD []).map .expr ++ clauses.map .expr
  | .factor (.derived _) => []
  | .factor (.tableFunction e) => [.expr e]
  | .factor (.function _ args) => args.map .expr
  | .factor (.unnest exprs) => exprs.map .expr
  | .factor (.jsonTable exprs) => exprs.map .expr
  | .factor (.nestedJoin tableWithJoins) => tableWithJoins.constraints
  | .factor (.pivot table exprs queries) =>
      .factor table :: (exprs.map .expr ++ queries.map .query)

/-! ## Children are smaller -/

private theorem sizeOf_map {α : Type} [SizeOf α] {f : α → Node} {l : List α} {c : Node}
    (hf : ∀ a, sizeOf (f a) = 1 + sizeOf a) (h : c ∈ l.map f) : sizeOf c ≤ sizeOf l := by
  obtain ⟨a, ha, rfl⟩ := List.mem_map.mp h
  have hlt := List.sizeOf_lt_of_mem ha
  rw [hf]
  omega

private theorem sizeOf_flatMap {α : Type} [SizeOf α] {f : α → List Node} {l : List α} {c : Node}
    (hf : ∀ a, c ∈ f a → sizeOf c ≤ sizeOf a) (h : c ∈ l.flatMap f) : sizeOf c ≤ sizeOf l := by
  obtain ⟨a, ha, hc⟩ := List.mem_flatMap.mp h
  have hle := hf a hc
  have hlt := List.sizeOf_lt_of_mem ha
  omega

private theorem sizeOf_exprs {es : List Expr} {c : Node} (h : c ∈ es.map Node.expr) :
    sizeOf c ≤ sizeOf es := sizeOf_map (fun _ => rfl) h

private theorem sizeOf_queries {qs : List Query} {c : Node} (h : c ∈ qs.map Node.query) :
    sizeOf c ≤ sizeOf qs := sizeOf_map (fun _ => rfl) h

private theorem sizeOf_factor {t : TableWithJoins} {c : Node} (h : c ∈ t.factors) :
    sizeOf c ≤ sizeOf t := by
  obtain ⟨relation, joins⟩ := t
  rcases List.mem_cons.mp h with rfl | h
  · simp
  · obtain ⟨⟨joined, constraint⟩, hj, rfl⟩ := List.mem_map.mp h
    have hlt := List.sizeOf_lt_of_mem hj
    simp [Join.factor] at hlt ⊢
    omega

private theorem sizeOf_constraint {t : TableWithJoins} {c : Node} (h : c ∈ t.constraints) :
    sizeOf c ≤ sizeOf t := by
  obtain ⟨relation, joins⟩ := t
  have hjoins : sizeOf c ≤ sizeOf joins := by
    refine sizeOf_flatMap ?_ h
    rintro ⟨joined, constraint⟩ hc
    have hle := sizeOf_exprs hc
    simp
    omega
  simp
  omega

private theorem sizeOf_argument {args : FunctionArguments} {c : Node} (h : c ∈ args.children) :
    sizeOf c ≤ sizeOf args := by
  cases args with
  | none => cases h
  | subquery q =>
      rw [List.mem_singleton.mp h]
      simp
  | list es =>
      have hle := sizeOf_exprs h
      simp
      omega

theorem Node.sizeOf_followed (n : Node) : ∀ c ∈ n.followed, sizeOf c < sizeOf n := by
  intro c h
  cases n with
  | expr e => cases h
  | query q =>
      obtain ⟨ctes, body, clauses, locks⟩ := q
      rcases List.mem_append.mp h with h | h
      · have hle := sizeOf_queries h
        simp
        omega
      · rw [List.mem_singleton.mp h]
        simp
        omega
  | setExpr s =>
      cases s with
      | select into from_ exprs =>
          have hle := sizeOf_flatMap (fun _ => sizeOf_factor) h
          simp
          omega
      | query q =>
          rw [List.mem_singleton.mp h]
          simp
      | setOperation left right =>
          rcases List.mem_cons.mp h with rfl | h
          · simp only [Node.setExpr.sizeOf_spec, SetExpr.setOperation.sizeOf_spec]
            omega
          · rw [List.mem_singleton.mp h]
            simp only [Node.setExpr.sizeOf_spec, SetExpr.setOperation.sizeOf_spec]
            omega
      | _ => cases h
  | factor f =>
      cases f with
      | derived q =>
          rw [List.mem_singleton.mp h]
          simp
      | nestedJoin t =>
          have hle := sizeOf_factor h
          simp
          omega
      | _ => cases h

private theorem sizeOf_skipped_expr (e : Expr) :
    ∀ c ∈ (Node.expr e).skipped, sizeOf c ≤ sizeOf e := by
  intro c h
  cases e with
  | function name args clauses =>
      rcases List.mem_append.mp h with h | h
      · have hle := sizeOf_argument h
        simp
        omega
      · have hle := sizeOf_exprs h
        simp
        omega
  | binaryOp left op right | anyOp left op right | allOp left op right =>
      rcases List.mem_cons.mp h with rfl | h
      · simp
        omega
      · rw [List.mem_singleton.mp h]
        simp
        omega
  | inSubquery e q =>
      rcases List.mem_cons.mp h with rfl | h
      · simp
      · rw [List.mem_singleton.mp h]
        simp
  | typedString dataType value => cases h
  | other label children =>
      have hle := sizeOf_exprs h
      simp
      omega
  | unaryOp op e | cast e dataType | convert e dataType =>
      rw [List.mem_singleton.mp h]
      simp
  | subquery q | «exists» q =>
      rw [List.mem_singleton.mp h]
      simp

private theorem sizeOf_skipped_setExpr (s : SetExpr) :
    ∀ c ∈ (Node.setExpr s).skipped, sizeOf c ≤ sizeOf s := by
  intro c h
  cases s with
  | select into from_ exprs =>
      rcases List.mem_append.mp h with h | h
      · have hle := sizeOf_flatMap (fun _ => sizeOf_constraint) h
        simp
        omega
      · have hle := sizeOf_exprs h
        simp
        omega
  | query q => cases h
  | setOperation left right => cases h
  | values rows =>
      have hle := sizeOf_exprs h
      simp
      omega
  | table name => cases h
  | write kind queries tables exprs =>
      rcases List.mem_append.mp h with h | h
      · rcases List.mem_append.mp h with h | h
        · rcases List.mem_append.mp h with h | h
          · have hle := sizeOf_queries h
            simp
            omega
          · have hle := sizeOf_flatMap (fun _ => sizeOf_factor) h
            simp
            omega
        · have hle := sizeOf_flatMap (fun _ => sizeOf_constraint) h
          simp
          omega
      · have hle := sizeOf_exprs h
        simp
        omega

private theorem sizeOf_skipped_factor (f : TableFactor) :
    ∀ c ∈ (Node.factor f).skipped, sizeOf c ≤ sizeOf f := by
  intro c h
  cases f with
  | table name args clauses =>
      rcases List.mem_append.mp h with h | h
      · cases args with
        | none => cases h
        | some es =>
            have hle : sizeOf c ≤ sizeOf es := sizeOf_exprs h
            simp
            omega
      · have hle := sizeOf_exprs h
        simp
        omega
  | derived q => cases h
  | tableFunction e =>
      rw [List.mem_singleton.mp h]
      simp
  | function name args =>
      have hle := sizeOf_exprs h
      simp
      omega
  | unnest exprs | jsonTable exprs =>
      have hle := sizeOf_exprs h
      simp
      omega
  | nestedJoin t =>
      have hle := sizeOf_constraint h
      simp
      omega
  | pivot table exprs queries =>
      rcases List.mem_cons.mp h with rfl | h
      · simp
        omega
      · rcases List.mem_append.mp h with h | h
        · have hle := sizeOf_exprs h
          simp
          omega
        · have hle := sizeOf_queries h
          simp
          omega

theorem Node.sizeOf_skipped (n : Node) : ∀ c ∈ n.skipped, sizeOf c < sizeOf n := by
  intro c h
  cases n with
  | expr e =>
      have hle := sizeOf_skipped_expr e c h
      simp
      omega
  | query q =>
      obtain ⟨ctes, body, clauses, locks⟩ := q
      have hle := sizeOf_exprs h
      simp
      omega
  | setExpr s =>
      have hle := sizeOf_skipped_setExpr s c h
      simp
      omega
  | factor f =>
      have hle := sizeOf_skipped_factor f c h
      simp
      omega

/-- A statement's nodes as a tree. -/
noncomputable def shape : Shape Node where
  followed := Node.followed
  skipped := Node.skipped
  size := sizeOf
  size_followed := Node.sizeOf_followed
  size_skipped := Node.sizeOf_skipped

/-! ## The visitor meets every node -/

theorem exprNodes_eq (es : List Expr) : exprNodes es = (es.map Node.expr).flatMap Node.nodes := by
  induction es with
  | nil => rfl
  | cons e es ih => rw [exprNodes, ih, List.map_cons, List.flatMap_cons, Node.nodes]

theorem queryNodes_eq (qs : List Query) :
    queryNodes qs = (qs.map Node.query).flatMap Node.nodes := by
  induction qs with
  | nil => rfl
  | cons q qs ih => rw [queryNodes, ih, List.map_cons, List.flatMap_cons, Node.nodes]

theorem argNodes_eq (args : Option (List Expr)) :
    argNodes args = ((args.getD []).map Node.expr).flatMap Node.nodes := by
  cases args with
  | none => rfl
  | some es => rw [argNodes, exprNodes_eq, Option.getD_some]

theorem FunctionArguments.nodes_eq (args : FunctionArguments) :
    args.nodes = args.children.flatMap Node.nodes := by
  cases args with
  | none => rfl
  | subquery q => simp [FunctionArguments.nodes, FunctionArguments.children, Node.nodes]
  | list es => rw [FunctionArguments.nodes, exprNodes_eq, FunctionArguments.children]

/-- The nodes of joined items: those of the items, and those of the conditions. -/
theorem mem_joinNodes {m : Node} (js : List Join) :
    m ∈ joinNodes js ↔
      m ∈ (js.map Join.factor).flatMap Node.nodes ∨
        m ∈ (js.flatMap Join.constraints).flatMap Node.nodes := by
  induction js with
  | nil => simp [joinNodes]
  | cons j js ih =>
      obtain ⟨joined, constraint⟩ := j
      simp only [joinNodes, Join.nodes, List.mem_append, ih, exprNodes_eq, List.map_cons,
        List.flatMap_cons, List.flatMap_append, Join.factor, Join.constraints, Node.nodes]
      tauto

theorem TableWithJoins.mem_nodes {m : Node} (t : TableWithJoins) :
    m ∈ t.nodes ↔
      m ∈ t.factors.flatMap Node.nodes ∨ m ∈ t.constraints.flatMap Node.nodes := by
  obtain ⟨relation, joins⟩ := t
  simp only [TableWithJoins.nodes, List.mem_append, mem_joinNodes, TableWithJoins.factors,
    TableWithJoins.constraints, List.flatMap_cons, Node.nodes]
  tauto

theorem mem_tableNodes {m : Node} (ts : List TableWithJoins) :
    m ∈ tableNodes ts ↔
      m ∈ (ts.flatMap TableWithJoins.factors).flatMap Node.nodes ∨
        m ∈ (ts.flatMap TableWithJoins.constraints).flatMap Node.nodes := by
  induction ts with
  | nil => simp [tableNodes]
  | cons t ts ih =>
      simp only [tableNodes, List.mem_append, TableWithJoins.mem_nodes, ih, List.flatMap_cons,
        List.flatMap_append]
      tauto

/-- The visitor meets a node, and what it meets in each of its children. -/
theorem Node.mem_nodes {n m : Node} :
    m ∈ n.nodes ↔
      m = n ∨ (∃ c ∈ n.followed, m ∈ c.nodes) ∨ ∃ c ∈ n.skipped, m ∈ c.nodes := by
  simp only [← List.mem_flatMap]
  cases n with
  | expr e =>
      cases e with
      | function name args clauses =>
          simp [Node.nodes, Expr.nodes, Node.followed, Node.skipped, FunctionArguments.nodes_eq,
            exprNodes_eq]
      | other label children =>
          simp [Node.nodes, Expr.nodes, Node.followed, Node.skipped, exprNodes_eq]
      | _ => simp [Node.nodes, Expr.nodes, Node.followed, Node.skipped]
  | query q =>
      obtain ⟨ctes, body, clauses, locks⟩ := q
      simp only [Node.nodes, Query.nodes, List.mem_cons, List.mem_append, queryNodes_eq,
        exprNodes_eq, Node.followed, Node.skipped, List.flatMap_append, List.flatMap_cons,
        List.flatMap_nil, List.append_nil]
  | setExpr s =>
      cases s with
      | select into from_ exprs =>
          simp only [Node.nodes, SetExpr.nodes, List.mem_cons, List.mem_append, mem_tableNodes,
            exprNodes_eq, Node.followed, Node.skipped, List.flatMap_append]
          tauto
      | write kind queries tables exprs =>
          simp only [Node.nodes, SetExpr.nodes, List.mem_cons, List.mem_append, mem_tableNodes,
            queryNodes_eq, exprNodes_eq, Node.followed, Node.skipped, List.flatMap_append,
            List.flatMap_nil, List.not_mem_nil]
          tauto
      | _ => simp [Node.nodes, SetExpr.nodes, Node.followed, Node.skipped, exprNodes_eq]
  | factor f =>
      cases f with
      | nestedJoin t =>
          simp only [Node.nodes, TableFactor.nodes, List.mem_cons, TableWithJoins.mem_nodes,
            Node.followed, Node.skipped]
      | pivot table exprs queries =>
          simp only [Node.nodes, TableFactor.nodes, List.mem_cons, List.mem_append, queryNodes_eq,
            exprNodes_eq, Node.followed, Node.skipped, List.flatMap_append, List.flatMap_cons,
            List.flatMap_nil, List.not_mem_nil]
          tauto
      | _ =>
          simp [Node.nodes, TableFactor.nodes, Node.followed, Node.skipped, exprNodes_eq,
            argNodes_eq]

/-- The visitor meets exactly the nodes that stand below a node. -/
theorem Node.mem_nodes_iff {n m : Node} : m ∈ n.nodes ↔ shape.Within n m := by
  constructor
  · intro h
    induction n using Shape.induction shape with
    | h n ihfollowed ihskipped =>
        rcases Node.mem_nodes.mp h with rfl | ⟨c, hc, hm⟩ | ⟨c, hc, hm⟩
        · exact .self _
        · exact .followed hc (ihfollowed c hc hm)
        · exact .skipped hc (ihskipped c hc hm)
  · intro h
    induction h with
    | self n => exact Node.mem_nodes.mpr (.inl rfl)
    | followed hc _ ih => exact Node.mem_nodes.mpr (.inr (.inl ⟨_, hc, ih⟩))
    | skipped hc _ ih => exact Node.mem_nodes.mpr (.inr (.inr ⟨_, hc, ih⟩))

end PgBrakes.Ports.ReadAst
