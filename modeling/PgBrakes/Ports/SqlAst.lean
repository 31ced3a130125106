/-!
# The parsed statement

The shapes of the third-party SQL parser that the repository matches on.  The
parser itself enters as the class `Sql`, an arbitrary function from texts to
statements, together with the two string functions the code applies to names.

Every expression the code looks at has its own constructor.  The parser has
many more; they are `other`, with the expressions below them in the order the
parser's visitor meets them.  A subquery is likewise the list of the
expressions the visitor meets in it.
-/

namespace PgBrakes.Ports.SqlAst

/-- An identifier as it was written: its text without the quotes, and the quote
it was written in. -/
structure Ident where
  value : String
  quoteStyle : Option Char
deriving DecidableEq, Repr

/-- A possibly qualified name. -/
abbrev ObjectName := List Ident

/-- The unary `IS …` tests. -/
inductive IsTest where
  | isTrue
  | isNotTrue
  | isFalse
  | isNotFalse
  | isNull
  | isNotNull
  | isUnknown
  | isNotUnknown
deriving DecidableEq, Repr

/-- The pattern-matching operators. -/
inductive LikeKind where
  | like
  | ilike
  | similarTo
  | rlike
deriving DecidableEq, Repr

mutual

/-- An expression. -/
inductive Expr where
  | identifier (ident : Ident)
  | compoundIdentifier (parts : List Ident)
  | compoundFieldAccess (root : Expr) (accessChain : List Expr)
  | subquery (query : List Expr)
  | exists (query : List Expr)
  | inSubquery (expr : Expr) (query : List Expr)
  | anyOp (left right : Expr)
  | allOp (left right : Expr)
  | inUnnest (expr arrayExpr : Expr)
  | binaryOp (left : Expr) (op : String) (right : Expr)
  | unaryOp (op : String) (expr : Expr)
  | nested (expr : Expr)
  | is (test : IsTest) (expr : Expr)
  | between (expr low high : Expr)
  | inList (expr : Expr) (list : List Expr)
  | like (kind : LikeKind) (expr pattern : Expr)
  | cast (expr : Expr) (dataType : String)
  | collate (expr : Expr) (collation : ObjectName)
  | isDistinctFrom (left right : Expr)
  | isNotDistinctFrom (left right : Expr)
  | case (operand : Option Expr) (conditions : List CaseWhen) (elseResult : Option Expr)
  | function (name : ObjectName) (args : List FunctionArg) (clauses : List Expr)
  | value (text : String)
  | typedString (dataType text : String)
  | interval (expr : Expr)
  | other (label : String) (children : List Expr)

/-- One branch of a `CASE`. -/
inductive CaseWhen where
  | mk (condition result : Expr)

/-- An argument of a function call; a query stands where the whole argument list
is one. -/
inductive FunctionArg where
  | expr (e : Expr)
  | qualifiedWildcard (name : ObjectName)
  | wildcard
  | query (query : List Expr)

end

mutual

/-- The expression and everything below it, in the order of the parser's
visitor. -/
def Expr.preorder : Expr → List Expr
  | .identifier ident => [.identifier ident]
  | .compoundIdentifier parts => [.compoundIdentifier parts]
  | .compoundFieldAccess root chain =>
      .compoundFieldAccess root chain :: (root.preorder ++ preorderList chain)
  | .subquery query => .subquery query :: preorderList query
  | .exists query => .exists query :: preorderList query
  | .inSubquery expr query => .inSubquery expr query :: (expr.preorder ++ preorderList query)
  | .anyOp left right => .anyOp left right :: (left.preorder ++ right.preorder)
  | .allOp left right => .allOp left right :: (left.preorder ++ right.preorder)
  | .inUnnest expr arr => .inUnnest expr arr :: (expr.preorder ++ arr.preorder)
  | .binaryOp left op right => .binaryOp left op right :: (left.preorder ++ right.preorder)
  | .unaryOp op expr => .unaryOp op expr :: expr.preorder
  | .nested expr => .nested expr :: expr.preorder
  | .is test expr => .is test expr :: expr.preorder
  | .between expr low high =>
      .between expr low high :: (expr.preorder ++ low.preorder ++ high.preorder)
  | .inList expr list => .inList expr list :: (expr.preorder ++ preorderList list)
  | .like kind expr pattern => .like kind expr pattern :: (expr.preorder ++ pattern.preorder)
  | .cast expr dataType => .cast expr dataType :: expr.preorder
  | .collate expr collation => .collate expr collation :: expr.preorder
  | .isDistinctFrom left right => .isDistinctFrom left right :: (left.preorder ++ right.preorder)
  | .isNotDistinctFrom left right =>
      .isNotDistinctFrom left right :: (left.preorder ++ right.preorder)
  | .case operand conditions elseResult =>
      .case operand conditions elseResult ::
        (preorderOption operand ++ preorderWhens conditions ++ preorderOption elseResult)
  | .function name args clauses =>
      .function name args clauses :: (preorderArgs args ++ preorderList clauses)
  | .value text => [.value text]
  | .typedString dataType text => [.typedString dataType text]
  | .interval expr => .interval expr :: expr.preorder
  | .other label children => .other label children :: preorderList children

def preorderList : List Expr → List Expr
  | [] => []
  | e :: es => e.preorder ++ preorderList es

def preorderOption : Option Expr → List Expr
  | none => []
  | some e => e.preorder

def preorderWhens : List CaseWhen → List Expr
  | [] => []
  | .mk condition result :: whens =>
      condition.preorder ++ result.preorder ++ preorderWhens whens

def preorderArgs : List FunctionArg → List Expr
  | [] => []
  | .expr e :: args => e.preorder ++ preorderArgs args
  | .qualifiedWildcard _ :: args => preorderArgs args
  | .wildcard :: args => preorderArgs args
  | .query query :: args => preorderList query ++ preorderArgs args

end

/-! ## Statements -/

/-- A table in a `FROM` position. -/
inductive TableFactor where
  | table (name : ObjectName)
  | other

structure TableWithJoins where
  relation : TableFactor
  joins : List TableFactor

inductive AssignmentTarget where
  | columnName (name : ObjectName)
  | tuple (names : List ObjectName)

structure Assignment where
  target : AssignmentTarget
  value : Expr

structure Update where
  table : TableWithJoins
  assignments : List Assignment
  from? : Option (List TableWithJoins)
  selection : Option Expr

structure Delete where
  fromTables : List TableWithJoins
  using? : Option (List TableWithJoins)
  selection : Option Expr

/-- A statement.  The kinds that are refused keep the parser's kind, which the
refusal names. -/
inductive Statement where
  | update (u : Update)
  | delete (d : Delete)
  | insert
  | truncate
  | drop
  | alterTable
  | createTable
  | query
  | merge
  | other

/-- The third-party parser, the way it prints an identifier, and the Unicode
lower-casing of the standard library. -/
class Sql where
  parseSql : String → Except String (List Statement)
  displayIdent : Ident → String
  toLowercase : String → String

/-- An identifier written without quotes. -/
def Ident.plain (value : String) : Ident := ⟨value, none⟩

/-- A parser that knows a list of texts, over names in plain ASCII. -/
@[reducible] def Sql.knowing (texts : List (String × Statement)) : Sql where
  parseSql text :=
    match texts.lookup text with
    | some stmt => .ok [stmt]
    | none => .error "sql parser error"
  displayIdent ident :=
    match ident.quoteStyle with
    | some quote => quote.toString ++ ident.value ++ quote.toString
    | none => ident.value
  toLowercase := String.toLower

end PgBrakes.Ports.SqlAst
