import PgBrakes.Ports.ReadAst

/-!
# The read classifier

The gate of the agent's read path: a text is a read where it parses to a single
statement that passes two sweeps for what the statement can call, and a structural
check for what it can write.  Everything else is refused.

The parser's visitor hands the first sweep every expression of the statement.  The
second sweep and the structural check walk the query themselves.

## Main results

* `shape_tableFunctions` and `shape_readOnly` — both walks are sweeps over the
  same part of the tree: they follow common table expressions, bodies, `FROM` items,
  derived tables and nested joins.
* `classify_read` — what a text classified as a read has passed.
-/

namespace PgBrakes.Ports.ReadGate

open PgBrakes.Ports.SqlAst (Ident)
open PgBrakes.Ports.ReadAst
open PgBrakes.Verified.TreeSweep

/-- Two texts that differ in the case of ASCII letters only. -/
def eqIgnoreAsciiCase (a b : String) : Bool :=
  a.toList.map Char.toLower == b.toList.map Char.toLower

/-! ## The allowlists -/

/-- The options of `EXPLAIN` that only plan. -/
def explainPlanOnlyOptions : List String :=
  ["FORMAT", "VERBOSE", "COSTS", "SETTINGS", "GENERIC_PLAN", "SUMMARY", "MEMORY", "BUFFERS"]

/-- Every parenthesized option only plans; the bare form has none. -/
def explainOptionsPlanOnly : Option (List Ident) → Bool
  | none => true
  | some opts =>
      opts.all fun o => explainPlanOnlyOptions.any fun allowed => eqIgnoreAsciiCase o.value allowed

/-- The functions a read may call. -/
def readSafeFunctions : List String := [
  -- aggregates (side-effect-free reductions)
  "count", "sum", "avg", "min", "max", "array_agg", "string_agg", "jsonb_agg", "json_agg",
  "jsonb_object_agg", "json_object_agg", "bool_and", "bool_or", "every", "bit_and", "bit_or",
  "stddev", "stddev_pop", "stddev_samp", "variance", "var_pop", "var_samp", "corr", "covar_pop",
  "covar_samp", "mode", "percentile_cont", "percentile_disc",
  -- window functions (read-only ordering/ranking)
  "row_number", "rank", "dense_rank", "percent_rank", "cume_dist", "ntile", "lag", "lead",
  "first_value", "last_value", "nth_value",
  -- math
  "abs", "ceil", "ceiling", "floor", "round", "trunc", "sign", "sqrt", "cbrt", "power", "pow",
  "exp", "ln", "log", "log10", "mod", "div", "gcd", "lcm", "pi", "degrees", "radians", "sin",
  "cos", "tan", "asin", "acos", "atan", "atan2", "sinh", "cosh", "tanh", "width_bucket",
  -- string
  "lower", "upper", "initcap", "length", "char_length", "character_length", "bit_length",
  "octet_length", "substr", "substring", "left", "right", "trim", "btrim", "ltrim", "rtrim",
  "lpad", "rpad", "concat", "concat_ws", "replace", "translate", "reverse", "repeat",
  "split_part", "strpos", "position", "starts_with", "format", "to_hex", "ascii", "chr", "md5",
  "encode", "decode",
  -- regex (read-only matching/extraction)
  "regexp_replace", "regexp_match", "regexp_matches", "regexp_split_to_array",
  "regexp_split_to_table", "regexp_count", "regexp_instr", "regexp_substr", "like", "similar_to",
  -- coalesce / conditional / comparison
  "coalesce", "nullif", "greatest", "least", "num_nonnulls", "num_nulls",
  -- casting / type helpers (side-effect-free)
  "cast", "to_char", "to_number", "to_date", "to_timestamp",
  -- date/time READS
  "now", "statement_timestamp", "transaction_timestamp", "clock_timestamp", "timeofday",
  "current_timestamp", "current_date", "current_time", "localtime", "localtimestamp",
  "date_trunc", "date_part", "date_bin", "extract", "age", "make_date", "make_time",
  "make_timestamp", "make_timestamptz", "make_interval", "justify_days", "justify_hours",
  "justify_interval", "isfinite",
  -- json / jsonb builders + read accessors
  "to_json", "to_jsonb", "json_build_object", "jsonb_build_object", "json_build_array",
  "jsonb_build_array", "json_object", "jsonb_object", "json_array_length", "jsonb_array_length",
  "json_extract_path", "jsonb_extract_path", "json_extract_path_text", "jsonb_extract_path_text",
  "json_typeof", "jsonb_typeof", "json_strip_nulls", "jsonb_strip_nulls", "jsonb_pretty",
  "json_array_elements", "jsonb_array_elements", "json_array_elements_text",
  "jsonb_array_elements_text", "json_each", "jsonb_each", "json_each_text", "jsonb_each_text",
  "json_object_keys", "jsonb_object_keys", "jsonb_path_query", "jsonb_path_query_array",
  "jsonb_path_query_first", "jsonb_path_exists", "jsonb_path_match", "row_to_json",
  "json_populate_record", "jsonb_populate_record", "json_to_record", "jsonb_to_record",
  "json_to_recordset", "jsonb_to_recordset",
  -- array read helpers
  "array_length", "array_dims", "array_ndims", "array_upper", "array_lower", "cardinality",
  "array_position", "array_positions", "array_to_string", "string_to_array", "array_append",
  "array_prepend", "array_cat", "array_remove", "array_replace", "unnest", "generate_series",
  "generate_subscripts",
  -- type / value introspection reads (no side effects)
  "current_setting", "pg_typeof", "format_type", "current_database", "current_schema",
  "current_catalog", "current_user", "session_user", "user", "version", "pg_backend_pid", "row"]

/-- The name is a single identifier of the allowlist; a qualified name never is. -/
def functionNameIsReadSafe : ObjectName → Bool
  | [.ident ident] => readSafeFunctions.any fun allowed => eqIgnoreAsciiCase ident.value allowed
  | _ => false

/-- The operator is not a custom or a qualified one. -/
def binaryOperatorIsReadSafe : BinaryOperator → Bool
  | .pgCustomBinaryOperator _ => false
  | .custom _ => false
  | .builtin _ => true

/-- The type of a cast is not a qualified name, at any element or wrapped type. -/
def castTargetTypeIsReadSafe : DataType → Bool
  | .custom name => name.length == 1
  | .untypedArray => true
  | .array inner => castTargetTypeIsReadSafe inner
  | .nullable inner => castTargetTypeIsReadSafe inner
  | .lowCardinality inner => castTargetTypeIsReadSafe inner
  | .map key value => castTargetTypeIsReadSafe key && castTargetTypeIsReadSafe value
  | .struct => false
  | .union => false
  | .tuple => false
  | .nested => false
  | .namedTable => false
  | .builtin _ => true

/-! ## What the statement can call -/

/-- The check the first sweep makes at one expression. -/
def exprIsReadSafe : Expr → Bool
  | .function name _ _ => functionNameIsReadSafe name
  | .binaryOp _ op _ => binaryOperatorIsReadSafe op
  | .unaryOp _ _ => true
  | .cast _ dataType => castTargetTypeIsReadSafe dataType
  | .convert _ (some dataType) => castTargetTypeIsReadSafe dataType
  | .convert _ none => true
  | .typedString dataType _ => castTargetTypeIsReadSafe dataType
  | _ => true

mutual

/-- The second sweep: every table function of the query is on the allowlist. -/
def queryTableFunctionsAllReadSafe : Query → Bool
  | .mk ctes body _ _ =>
      ctesTableFunctionsAllReadSafe ctes && setExprTableFunctionsAllReadSafe body

def ctesTableFunctionsAllReadSafe : List Query → Bool
  | [] => true
  | q :: qs => queryTableFunctionsAllReadSafe q && ctesTableFunctionsAllReadSafe qs

def setExprTableFunctionsAllReadSafe : SetExpr → Bool
  | .select _ from_ _ => fromTableFunctionsAllReadSafe from_
  | .query q => queryTableFunctionsAllReadSafe q
  | .setOperation left right =>
      setExprTableFunctionsAllReadSafe left && setExprTableFunctionsAllReadSafe right
  | .values _ => true
  | .table _ => true
  | .write _ _ _ _ => true

def fromTableFunctionsAllReadSafe : List TableWithJoins → Bool
  | [] => true
  | t :: ts => tableWithJoinsFunctionsAllReadSafe t && fromTableFunctionsAllReadSafe ts

def tableWithJoinsFunctionsAllReadSafe : TableWithJoins → Bool
  | .mk relation joins =>
      tableFactorFunctionsAllReadSafe relation && joinsTableFunctionsAllReadSafe joins

def joinsTableFunctionsAllReadSafe : List Join → Bool
  | [] => true
  | .mk relation _ :: js =>
      tableFactorFunctionsAllReadSafe relation && joinsTableFunctionsAllReadSafe js

def tableFactorFunctionsAllReadSafe : TableFactor → Bool
  | .table name (some _) _ => functionNameIsReadSafe name
  | .table _ none _ => true
  | .function name _ => functionNameIsReadSafe name
  -- `TABLE(expr)` has no name to look up
  | .tableFunction _ => false
  | .derived subquery => queryTableFunctionsAllReadSafe subquery
  | .nestedJoin tableWithJoins => tableWithJoinsFunctionsAllReadSafe tableWithJoins
  | .unnest _ => true
  | .jsonTable _ => true
  | .pivot _ _ _ => true

end

/-- The second sweep at a statement. -/
def statementTableFunctionsAllReadSafe : Statement → Bool
  | .query q => queryTableFunctionsAllReadSafe q
  | .explain _ _ statement => statementTableFunctionsAllReadSafe statement
  | .refused _ _ => true

/-- Both sweeps. -/
def statementFunctionsAllReadSafe (stmt : Statement) : Bool :=
  stmt.visitExpressions.all exprIsReadSafe && statementTableFunctionsAllReadSafe stmt

/-! ## What the statement can write -/

mutual

/-- The query takes no lock and neither it nor a common table expression
writes. -/
def queryIsReadOnly : Query → Bool
  | .mk ctes body _ locks => locks.isEmpty && (ctesAreReadOnly ctes && setExprIsReadOnly body)

def ctesAreReadOnly : List Query → Bool
  | [] => true
  | q :: qs => queryIsReadOnly q && ctesAreReadOnly qs

def setExprIsReadOnly : SetExpr → Bool
  | .select into from_ _ => into.isNone && fromIsReadOnly from_
  | .query q => queryIsReadOnly q
  | .setOperation left right => setExprIsReadOnly left && setExprIsReadOnly right
  | .values _ => true
  | .table _ => true
  | .write _ _ _ _ => false

def fromIsReadOnly : List TableWithJoins → Bool
  | [] => true
  | t :: ts => tableWithJoinsIsReadOnly t && fromIsReadOnly ts

def tableWithJoinsIsReadOnly : TableWithJoins → Bool
  | .mk relation joins => tableFactorIsReadOnly relation && joinsAreReadOnly joins

def joinsAreReadOnly : List Join → Bool
  | [] => true
  | .mk relation _ :: js => tableFactorIsReadOnly relation && joinsAreReadOnly js

def tableFactorIsReadOnly : TableFactor → Bool
  | .derived subquery => queryIsReadOnly subquery
  | .nestedJoin tableWithJoins => tableWithJoinsIsReadOnly tableWithJoins
  | _ => true

end

/-! ## The classification -/

inductive Classification where
  | read
  | notRead
deriving DecidableEq, Repr

inductive NotReadReason where
  | parseError
  | empty
  | multipleStatements
  | notAReadStatement
deriving DecidableEq, Repr

/-- The statement is a query, or the `EXPLAIN` of one, that passes the sweeps and
the structural check. -/
def isReadStatement : Statement → Bool
  | .query q => statementFunctionsAllReadSafe (.query q) && queryIsReadOnly q
  | .explain analyze options statement =>
      statementFunctionsAllReadSafe (.explain analyze options statement) &&
        (!analyze && (explainOptionsPlanOnly options && isReadStatement statement))
  | .refused _ _ => false

section
variable [Parser]

/-- The classification of a text, with the reason of a refusal. -/
def classifyWithReason (sql : String) : Classification × Option NotReadReason :=
  match Parser.parseSql sql with
  | .error _ => (.notRead, some .parseError)
  | .ok [] => (.notRead, some .empty)
  | .ok [stmt] =>
      if isReadStatement stmt then (.read, none) else (.notRead, some .notAReadStatement)
  | .ok (_ :: _ :: _) => (.notRead, some .multipleStatements)

def classify (sql : String) : Classification := (classifyWithReason sql).1

/-- The text is a single `EXPLAIN`, of whatever form. -/
def isExplain (sql : String) : Bool :=
  match Parser.parseSql sql with
  | .ok [.explain _ _ _] => true
  | .ok [.refused .explainTable _] => true
  | _ => false

/-- A read parses to one statement, which is a read statement. -/
theorem classify_read {sql : String} (h : classify sql = .read) :
    ∃ stmt, Parser.parseSql sql = .ok [stmt] ∧ isReadStatement stmt = true := by
  unfold classify classifyWithReason at h
  split at h
  · cases h
  · cases h
  · rename_i stmt hparse
    split at h
    · exact ⟨stmt, hparse, ‹_›⟩
    · cases h
  · cases h

end

/-! ## The two walks as sweeps -/

/-- The second sweep at a node. -/
def tableFunctionsReadSafe : Node → Bool
  | .expr _ => true
  | .query q => queryTableFunctionsAllReadSafe q
  | .setExpr s => setExprTableFunctionsAllReadSafe s
  | .factor f => tableFactorFunctionsAllReadSafe f

/-- What the second sweep looks at in a single node: the name of a table
function. -/
def tableFunctionNameReadSafe : Node → Bool
  | .factor (.table name (some _) _) => functionNameIsReadSafe name
  | .factor (.function name _) => functionNameIsReadSafe name
  | .factor (.tableFunction _) => false
  | _ => true

/-- The structural check at a node. -/
def readOnly : Node → Bool
  | .expr _ => true
  | .query q => queryIsReadOnly q
  | .setExpr s => setExprIsReadOnly s
  | .factor f => tableFactorIsReadOnly f

/-- What the structural check looks at in a single node. -/
def writesNothing : Node → Bool
  | .query (.mk _ _ _ locks) => locks.isEmpty
  | .setExpr (.select into _ _) => into.isNone
  | .setExpr (.write _ _ _ _) => false
  | _ => true

theorem ctesTableFunctions_eq (qs : List Query) :
    ctesTableFunctionsAllReadSafe qs = (qs.map Node.query).all tableFunctionsReadSafe := by
  induction qs with
  | nil => rfl
  | cons q qs ih =>
      rw [ctesTableFunctionsAllReadSafe, ih, List.map_cons, List.all_cons, tableFunctionsReadSafe]

theorem joinsTableFunctions_eq (js : List Join) :
    joinsTableFunctionsAllReadSafe js =
      (js.map Join.factor).all tableFunctionsReadSafe := by
  induction js with
  | nil => rfl
  | cons j js ih =>
      obtain ⟨joined, constraint⟩ := j
      rw [joinsTableFunctionsAllReadSafe, ih, List.map_cons, List.all_cons, Join.factor,
        tableFunctionsReadSafe]

theorem tableWithJoinsFunctions_eq (t : TableWithJoins) :
    tableWithJoinsFunctionsAllReadSafe t = t.factors.all tableFunctionsReadSafe := by
  obtain ⟨relation, joins⟩ := t
  rw [tableWithJoinsFunctionsAllReadSafe, joinsTableFunctions_eq, TableWithJoins.factors,
    List.all_cons, tableFunctionsReadSafe]

theorem fromTableFunctions_eq (ts : List TableWithJoins) :
    fromTableFunctionsAllReadSafe ts =
      (ts.flatMap TableWithJoins.factors).all tableFunctionsReadSafe := by
  induction ts with
  | nil => rfl
  | cons t ts ih =>
      rw [fromTableFunctionsAllReadSafe, ih, tableWithJoinsFunctions_eq, List.flatMap_cons,
        List.all_append]

/-- The second sweep checks the names of table functions along the followed
children. -/
theorem shape_tableFunctions : shape.IsSweep tableFunctionNameReadSafe tableFunctionsReadSafe := by
  intro n
  show tableFunctionsReadSafe n =
    (tableFunctionNameReadSafe n && n.followed.all tableFunctionsReadSafe)
  cases n with
  | expr e => rfl
  | query q =>
      obtain ⟨ctes, body, clauses, locks⟩ := q
      simp [tableFunctionsReadSafe, queryTableFunctionsAllReadSafe, ctesTableFunctions_eq,
        tableFunctionNameReadSafe, Node.followed]
  | setExpr s =>
      cases s with
      | select into from_ exprs =>
          simp only [tableFunctionsReadSafe, setExprTableFunctionsAllReadSafe,
            fromTableFunctions_eq, tableFunctionNameReadSafe, Node.followed, Bool.true_and]
      | _ =>
          simp [tableFunctionsReadSafe, setExprTableFunctionsAllReadSafe,
            tableFunctionNameReadSafe, Node.followed]
  | factor f =>
      cases f with
      | table name args clauses =>
          cases args with
          | none => rfl
          | some es =>
              simp [tableFunctionsReadSafe, tableFactorFunctionsAllReadSafe,
                tableFunctionNameReadSafe, Node.followed]
      | nestedJoin t =>
          simp only [tableFunctionsReadSafe, tableFactorFunctionsAllReadSafe,
            tableWithJoinsFunctions_eq, tableFunctionNameReadSafe, Node.followed, Bool.true_and]
      | _ =>
          simp [tableFunctionsReadSafe, tableFactorFunctionsAllReadSafe,
            tableFunctionNameReadSafe, Node.followed]

theorem ctesAreReadOnly_eq (qs : List Query) :
    ctesAreReadOnly qs = (qs.map Node.query).all readOnly := by
  induction qs with
  | nil => rfl
  | cons q qs ih => rw [ctesAreReadOnly, ih, List.map_cons, List.all_cons, readOnly]

theorem joinsAreReadOnly_eq (js : List Join) :
    joinsAreReadOnly js = (js.map Join.factor).all readOnly := by
  induction js with
  | nil => rfl
  | cons j js ih =>
      obtain ⟨joined, constraint⟩ := j
      rw [joinsAreReadOnly, ih, List.map_cons, List.all_cons, Join.factor, readOnly]

theorem tableWithJoinsIsReadOnly_eq (t : TableWithJoins) :
    tableWithJoinsIsReadOnly t = t.factors.all readOnly := by
  obtain ⟨relation, joins⟩ := t
  rw [tableWithJoinsIsReadOnly, joinsAreReadOnly_eq, TableWithJoins.factors, List.all_cons,
    readOnly]

theorem fromIsReadOnly_eq (ts : List TableWithJoins) :
    fromIsReadOnly ts = (ts.flatMap TableWithJoins.factors).all readOnly := by
  induction ts with
  | nil => rfl
  | cons t ts ih =>
      rw [fromIsReadOnly, ih, tableWithJoinsIsReadOnly_eq, List.flatMap_cons, List.all_append]

/-- The structural check looks for locks, targets and writes along the followed
children. -/
theorem shape_readOnly : shape.IsSweep writesNothing readOnly := by
  intro n
  show readOnly n = (writesNothing n && n.followed.all readOnly)
  cases n with
  | expr e => rfl
  | query q =>
      obtain ⟨ctes, body, clauses, locks⟩ := q
      simp [readOnly, queryIsReadOnly, ctesAreReadOnly_eq, writesNothing, Node.followed]
  | setExpr s =>
      cases s with
      | select into from_ exprs =>
          simp only [readOnly, setExprIsReadOnly, fromIsReadOnly_eq, writesNothing, Node.followed]
      | _ => simp [readOnly, setExprIsReadOnly, writesNothing, Node.followed]
  | factor f =>
      cases f with
      | nestedJoin t =>
          simp only [readOnly, tableFactorIsReadOnly, tableWithJoinsIsReadOnly_eq, writesNothing,
            Node.followed, Bool.true_and]
      | _ => simp [readOnly, tableFactorIsReadOnly, writesNothing, Node.followed]

/-- A read statement is a query, under any number of `EXPLAIN`s, that passes both
walks and whose expressions pass the first sweep. -/
theorem isReadStatement_query {stmt : Statement} (h : isReadStatement stmt = true) :
    ∃ q, stmt.nodes = (Node.query q).nodes ∧
      tableFunctionsReadSafe (.query q) = true ∧ readOnly (.query q) = true ∧
      ∀ e, Node.expr e ∈ stmt.nodes → exprIsReadSafe e = true := by
  induction stmt with
  | query q =>
      simp only [isReadStatement, statementFunctionsAllReadSafe, Bool.and_eq_true,
        List.all_eq_true] at h
      obtain ⟨⟨hexprs, htables⟩, hreadOnly⟩ := h
      refine ⟨q, rfl, htables, hreadOnly, fun e he => hexprs e ?_⟩
      exact List.mem_filterMap.mpr ⟨.expr e, he, rfl⟩
  | explain analyze options statement ih =>
      simp only [isReadStatement, Bool.and_eq_true] at h
      exact ih h.2.2.2
  | refused kind exprs => cases h

end PgBrakes.Ports.ReadGate
