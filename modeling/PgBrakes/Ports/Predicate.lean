import PgBrakes.Ports.SqlAst

/-!
# The predicate gates

A port of `crates/clone-orchestrator/src/predicate.rs`: the volatility gate,
which refuses a `WHERE` clause whose value may differ between the dry-run and
the apply, and the self-determined gate, which refuses one that refers to
anything but the primary key.  The catalog answers about functions come from a
resolver, any function of the world that may also change it.

## Main results

* `selfDeterminedPredicateReason_eq` — the whole gate is its structural part,
  then the volatility gate.
* `predicateVolatileReason_steady` — over a catalog that does not change, the
  volatility gate is a function of the text.
-/

namespace PgBrakes.Ports.Predicate

open PgBrakes.Ports.SqlAst

/-! ## Volatility -/

def nondeterministicKeywords : List String :=
  [ "now", "current_timestamp", "current_time", "current_date", "localtime"
  , "localtimestamp", "statement_timestamp", "transaction_timestamp", "txid_current"
  , "pg_current_xact_id", "pg_current_xact_id_if_assigned" ]

def knownDeterministicSpecialForms : List String := ["coalesce", "nullif", "greatest", "least"]

/-- `pg_proc.provolatile`, or that the function could not be resolved. -/
inductive Volatility where
  | immutable
  | stable
  | volatile
  | unknown
deriving DecidableEq, Repr

/-- Why a predicate is refused as volatile. -/
inductive VolatileReason where
  | nondeterministicKeyword (name : String)
  | volatileFunction (name : String)
  | unresolvableFunction (name : String)
  | unparseable
deriving DecidableEq, Repr

def VolatileReason.toString : VolatileReason → String
  | .nondeterministicKeyword name =>
      "predicate references non-deterministic special value `" ++ name ++
        "` (value differs between dry-run and apply)"
  | .volatileFunction name =>
      "predicate references VOLATILE function `" ++ name ++ "` (pg_proc.provolatile = 'v')"
  | .unresolvableFunction name =>
      "predicate references function `" ++ name ++
        "` whose volatility could not be determined; cannot prove determinism (fail-closed)"
  | .unparseable =>
      "statement could not be parsed; determinism cannot be proven (fail-closed)"

/-- The last segment of a dotted name. -/
def bareName (dotted : String) : String :=
  String.ofList (dotted.toList.reverse.takeWhile (· ≠ '.')).reverse

variable [Sql] {ω : Type}

/-- A qualified name in lower case. -/
def objectNameLower (name : ObjectName) : String :=
  String.intercalate "." (name.map fun ident => Sql.toLowercase ident.value)

/-- The names of the functions called in an expression, outermost first. -/
def functionNamesIn (expr : Expr) : List String :=
  expr.preorder.filterMap fun e => match e with
    | .function name _ _ => some (objectNameLower name)
    | _ => none

/-- The `WHERE` clause of a write; nothing for any other statement. -/
def predicateOf : Statement → Option (Option Expr)
  | .update u => some u.selection
  | .delete d => some d.selection
  | _ => none

/-- Exactly one parsed statement. -/
def parseOne (sql : String) : Option Statement :=
  match Sql.parseSql sql with
  | .ok [stmt] => some stmt
  | _ => none

/-- The `WHERE` clause of a text that is one write with such a clause. -/
def wherePredicate (sql : String) : Option Expr :=
  (parseOne sql).bind fun stmt => (predicateOf stmt).join

/-- The built-in special forms, which have no catalog row.  A qualified name is a
user's function, whatever its last part. -/
def isSpecialForm (name : String) : Bool :=
  !name.toList.contains '.' && knownDeterministicSpecialForms.contains (bareName name)

/-- Ask the resolver about each function in turn, up to the first refusal. -/
def resolveFunctions (resolver : String → ω → Volatility × ω) :
    List String → ω → Option VolatileReason × ω
  | [], w => (none, w)
  | name :: names, w =>
      if isSpecialForm name then resolveFunctions resolver names w
      else
        match resolver name w with
        | (.volatile, w') => (some (.volatileFunction name), w')
        | (.unknown, w') => (some (.unresolvableFunction name), w')
        | (.immutable, w') => resolveFunctions resolver names w'
        | (.stable, w') => resolveFunctions resolver names w'

/-- Why the predicate of a statement is refused as volatile, if it is. -/
def predicateVolatileReason (sql : String) (resolver : String → ω → Volatility × ω) (w : ω) :
    Option VolatileReason × ω :=
  match parseOne sql with
  | none => (some .unparseable, w)
  | some stmt =>
      match predicateOf stmt with
      | none => (some .unparseable, w)
      | some none => (none, w)
      | some (some predicate) =>
          let names := functionNamesIn predicate
          match names.find? fun name => nondeterministicKeywords.contains (bareName name) with
          | some name => (some (.nondeterministicKeyword name), w)
          | none => resolveFunctions resolver names w

/-- A catalog that does not change while it is read. -/
def steady (catalog : String → Volatility) : String → ω → Volatility × ω :=
  fun name w => (catalog name, w)

omit [Sql] in
private theorem resolveFunctions_steady (catalog : String → Volatility) (names : List String)
    (w : ω) : resolveFunctions (steady catalog) names w =
      ((resolveFunctions (steady catalog) names ()).1, w) := by
  induction names with
  | nil => rfl
  | cons name names ih =>
      unfold resolveFunctions
      by_cases hform : isSpecialForm name = true
      · rw [if_pos hform, if_pos hform]
        exact ih
      · rw [if_neg hform, if_neg hform]
        rcases hanswer : catalog name with _ | _ | _ | _
        all_goals simp only [steady, hanswer]
        · exact ih
        · exact ih

/-- Over a catalog that does not change, the gate is a function of the text. -/
theorem predicateVolatileReason_steady (sql : String) (catalog : String → Volatility) (w : ω) :
    predicateVolatileReason sql (steady catalog) w =
      ((predicateVolatileReason sql (steady catalog) ()).1, w) := by
  unfold predicateVolatileReason
  cases parseOne sql with
  | none => rfl
  | some stmt =>
      simp only
      rcases predicateOf stmt with _ | _ | predicate
      · rfl
      · rfl
      · simp only
        cases (functionNamesIn predicate).find?
            fun name => nondeterministicKeywords.contains (bareName name) with
        | some name => rfl
        | none => exact resolveFunctions_steady catalog _ w

/-! ## The self-determined gate -/

/-- Why a predicate is not pinned by the primary key. -/
inductive NotSelfDetermined where
  | nonPkColumn (pkCol referenced : String)
  | subquery
  | joinCorrelation
  | nonImmutable (reason : VolatileReason)
  | unclassifiable
deriving DecidableEq, Repr

def NotSelfDetermined.toString : NotSelfDetermined → String
  | .nonPkColumn pkCol referenced =>
      "predicate references non-PK column `" ++ referenced ++
        "` (only the immutable primary-key column `" ++ pkCol ++
        "` + literals + immutable functions on it are self-determined; a mutable " ++
        "column is steerable to a chosen row)"
  | .subquery =>
      "predicate contains a subquery / correlated reference / EXISTS / IN (SELECT …) " ++
        "(its row set is not pinned by the immutable primary key)"
  | .joinCorrelation =>
      "statement joins a second relation into the target (UPDATE … FROM / DELETE … USING " ++
        "/ a JOIN on the target) — the affected row set is determined by the joined " ++
        "table's content, which is steerable, so it is not pinned by the immutable " ++
        "primary key"
  | .nonImmutable reason => "predicate is not immutable: " ++ reason.toString
  | .unclassifiable =>
      "predicate could not be classified as self-determined (fail-closed)"

/-- A write that joins a second relation into its target. -/
def joinCorrelationReason : Statement → Option NotSelfDetermined
  | .update u =>
      if u.from?.isSome then some .joinCorrelation
      else if !u.table.joins.isEmpty then some .joinCorrelation
      else none
  | .delete d =>
      if d.using?.isSome then some .joinCorrelation
      else if d.fromTables.any fun t => !t.joins.isEmpty then some .joinCorrelation
      else none
  | _ => none

/-- A column reference is refused unless its lower-cased name is the key's. -/
def nonPkColumn (ident : Ident) (pkBare : String) : Option NotSelfDetermined :=
  if Sql.toLowercase ident.value = pkBare then none
  else some (.nonPkColumn pkBare ident.value)

/-- The verdict on one node of the visitor's walk: column references and
subqueries only. -/
def classifyAtomOnly (pkBare : String) : Expr → Option NotSelfDetermined
  | .identifier ident => nonPkColumn ident pkBare
  | .compoundIdentifier parts => parts.getLast?.bind fun col => nonPkColumn col pkBare
  | .subquery _ => some .subquery
  | .exists _ => some .subquery
  | .inSubquery _ _ => some .subquery
  | .anyOp _ _ => some .subquery
  | .allOp _ _ => some .subquery
  | .inUnnest _ _ => some .subquery
  | _ => none

mutual

/-- The structural verdict on a predicate. -/
def classifySelfDeterminedExpr (pkBare : String) : Expr → Option NotSelfDetermined
  | .identifier ident => nonPkColumn ident pkBare
  | .compoundIdentifier parts =>
      match parts.getLast? with
      | some col => nonPkColumn col pkBare
      | none => some .unclassifiable
  | .compoundFieldAccess root chain =>
      (classifySelfDeterminedExpr pkBare root).or
        ((Expr.compoundFieldAccess root chain).preorder.tail.findSome? (classifyAtomOnly pkBare))
  | .subquery _ => some .subquery
  | .exists _ => some .subquery
  | .inSubquery _ _ => some .subquery
  | .anyOp _ _ => some .subquery
  | .allOp _ _ => some .subquery
  | .inUnnest _ _ => some .subquery
  | .binaryOp left _ right =>
      (classifySelfDeterminedExpr pkBare left).or (classifySelfDeterminedExpr pkBare right)
  | .unaryOp _ expr => classifySelfDeterminedExpr pkBare expr
  | .nested expr => classifySelfDeterminedExpr pkBare expr
  | .is _ expr => classifySelfDeterminedExpr pkBare expr
  | .between expr low high =>
      (classifySelfDeterminedExpr pkBare expr).or
        ((classifySelfDeterminedExpr pkBare low).or (classifySelfDeterminedExpr pkBare high))
  | .inList expr list => (classifySelfDeterminedExpr pkBare expr).or (classifyList pkBare list)
  | .like _ expr pattern =>
      (classifySelfDeterminedExpr pkBare expr).or (classifySelfDeterminedExpr pkBare pattern)
  | .cast expr _ => classifySelfDeterminedExpr pkBare expr
  | .collate expr _ => classifySelfDeterminedExpr pkBare expr
  | .isDistinctFrom left right =>
      (classifySelfDeterminedExpr pkBare left).or (classifySelfDeterminedExpr pkBare right)
  | .isNotDistinctFrom left right =>
      (classifySelfDeterminedExpr pkBare left).or (classifySelfDeterminedExpr pkBare right)
  | .case operand conditions elseResult =>
      (classifyOption pkBare operand).or
        ((classifyWhens pkBare conditions).or (classifyOption pkBare elseResult))
  -- The name of a function is vetted by the volatility gate; here its arguments.
  | .function name args clauses =>
      (Expr.function name args clauses).preorder.tail.findSome? (classifyAtomOnly pkBare)
  | .value _ => none
  | .typedString _ _ => none
  | .interval _ => none
  -- A construct that is not modelled is refused, with the reason of the first
  -- atom below it where there is one.
  | .other label children =>
      some (((Expr.other label children).preorder.findSome?
        (classifyAtomOnly pkBare)).getD .unclassifiable)

def classifyList (pkBare : String) : List Expr → Option NotSelfDetermined
  | [] => none
  | e :: es => (classifySelfDeterminedExpr pkBare e).or (classifyList pkBare es)

def classifyOption (pkBare : String) : Option Expr → Option NotSelfDetermined
  | none => none
  | some e => classifySelfDeterminedExpr pkBare e

def classifyWhens (pkBare : String) : List CaseWhen → Option NotSelfDetermined
  | [] => none
  | .mk condition result :: whens =>
      (classifySelfDeterminedExpr pkBare condition).or
        ((classifySelfDeterminedExpr pkBare result).or (classifyWhens pkBare whens))

end

/-- The structural part of the gate, which the apply path re-checks. -/
def selfDeterminedPredicateStructuralReason (sql pkCol : String) : Option NotSelfDetermined :=
  match parseOne sql with
  | none => some .unclassifiable
  | some stmt =>
      match joinCorrelationReason stmt with
      | some reason => some reason
      | none =>
          match predicateOf stmt with
          | none => some .unclassifiable
          | some none => some .unclassifiable
          | some (some predicate) =>
              classifySelfDeterminedExpr (bareName (Sql.toLowercase pkCol)) predicate

/-- The whole gate: the structural part, then the volatility gate. -/
def selfDeterminedPredicateReason (sql pkCol : String)
    (resolver : String → ω → Volatility × ω) (w : ω) : Option NotSelfDetermined × ω :=
  match parseOne sql with
  | none => (some .unclassifiable, w)
  | some stmt =>
      match joinCorrelationReason stmt with
      | some reason => (some reason, w)
      | none =>
          match predicateOf stmt with
          | none => (some .unclassifiable, w)
          | some none => (some .unclassifiable, w)
          | some (some predicate) =>
              match classifySelfDeterminedExpr (bareName (Sql.toLowercase pkCol)) predicate with
              | some reason => (some reason, w)
              | none =>
                  let volatile := predicateVolatileReason sql resolver w
                  (volatile.1.map .nonImmutable, volatile.2)

/-- The whole gate refuses for the structural reason where there is one, and for
the volatility of the predicate otherwise. -/
theorem selfDeterminedPredicateReason_eq (sql pkCol : String)
    (resolver : String → ω → Volatility × ω) (w : ω) :
    selfDeterminedPredicateReason sql pkCol resolver w =
      match selfDeterminedPredicateStructuralReason sql pkCol with
      | some reason => (some reason, w)
      | none => ((predicateVolatileReason sql resolver w).1.map .nonImmutable,
          (predicateVolatileReason sql resolver w).2) := by
  unfold selfDeterminedPredicateReason selfDeterminedPredicateStructuralReason
  cases parseOne sql with
  | none => rfl
  | some stmt =>
      simp only
      cases joinCorrelationReason stmt with
      | some reason => rfl
      | none =>
          simp only
          rcases predicateOf stmt with _ | _ | predicate
          · rfl
          · rfl
          · cases classifySelfDeterminedExpr (bareName (Sql.toLowercase pkCol)) predicate with
            | some reason => rfl
            | none => rfl

end PgBrakes.Ports.Predicate
