import PgBrakes.Ports.ReadGate

/-!
# What a read may hold

The read gate means to let through only statements that call nothing but
allow-listed functions, built-in operators and unqualified types, and that neither
lock nor write.  Its walk over queries goes through common table expressions, set
operations, derived tables and joins.  It does not enter an expression, and a
subquery can stand there.

## Main results

* `callsReadSafe_iff` — a read calls nothing else exactly when the queries and
  `FROM` items the walk leaves out pass it too and no `ANY` or `ALL` comparison uses
  a custom operator.
* `locksAndWritesNothing_iff` — a read neither locks nor writes exactly when the
  queries and `FROM` items the walk leaves out pass the structural check too.
-/

namespace PgBrakes.Ports.ReadGate

open PgBrakes.Ports.SqlAst (Ident)
open PgBrakes.Ports.ReadAst
open PgBrakes.Verified.TreeSweep

/-! ## What a node calls -/

/-- An unqualified name of the allowlist, in any case of its letters. -/
def AllowListed (name : ObjectName) : Prop :=
  ∃ ident, name = [.ident ident] ∧
    ∃ allowed ∈ readSafeFunctions, eqIgnoreAsciiCase ident.value allowed = true

/-- An operator of the language. -/
def BuiltIn (op : BinaryOperator) : Prop := ∃ symbol, op = .builtin symbol

/-- A type whose names have a single part, at every element and wrapped type. -/
def Unqualified : DataType → Prop
  | .custom name => ∃ part, name = [part]
  | .untypedArray => True
  | .array inner => Unqualified inner
  | .nullable inner => Unqualified inner
  | .lowCardinality inner => Unqualified inner
  | .map key value => Unqualified key ∧ Unqualified value
  | .struct => False
  | .union => False
  | .tuple => False
  | .nested => False
  | .namedTable => False
  | .builtin _ => True

/-- What the expression itself calls is read safe. -/
def ExprCallsReadSafe : Expr → Prop
  | .function name _ _ => AllowListed name
  | .binaryOp _ op _ => BuiltIn op
  | .anyOp _ op _ => BuiltIn op
  | .allOp _ op _ => BuiltIn op
  | .cast _ dataType => Unqualified dataType
  | .convert _ (some dataType) => Unqualified dataType
  | .typedString dataType _ => Unqualified dataType
  | _ => True

/-- What the node itself calls is read safe.  `TABLE(expr)` calls a table function
that has no name. -/
def NodeCallsReadSafe : Node → Prop
  | .expr e => ExprCallsReadSafe e
  | .factor (.table name (some _) _) => AllowListed name
  | .factor (.function name _) => AllowListed name
  | .factor (.tableFunction _) => False
  | _ => True

/-- Every call, operator and cast target of the statement is read safe. -/
def CallsReadSafe (stmt : Statement) : Prop := ∀ n ∈ stmt.nodes, NodeCallsReadSafe n

/-- The node itself takes no lock, has no target and is no write. -/
def NodeWritesNothing : Node → Prop
  | .query (.mk _ _ _ locks) => locks = []
  | .setExpr (.select into _ _) => into = none
  | .setExpr (.write _ _ _ _) => False
  | _ => True

/-- No query of the statement locks, has a target or is a write. -/
def LocksAndWritesNothing (stmt : Statement) : Prop := ∀ n ∈ stmt.nodes, NodeWritesNothing n

/-! ## What the walk leaves out -/

/-- The nodes of a statement that the walk over queries does not enter from
above: what stands below an expression, in a pivot or in a write. -/
def leftOut (stmt : Statement) : List Node := stmt.nodes.flatMap Node.skipped

/-- The comparison with `ANY` or `ALL` uses a built-in operator. -/
def quantifiedOperatorIsReadSafe : Expr → Bool
  | .anyOp _ op _ => binaryOperatorIsReadSafe op
  | .allOp _ op _ => binaryOperatorIsReadSafe op
  | _ => true

/-! ## The checks of a single node -/

theorem functionNameIsReadSafe_iff (name : ObjectName) :
    functionNameIsReadSafe name = true ↔ AllowListed name := by
  constructor
  · intro h
    unfold functionNameIsReadSafe at h
    split at h
    · rename_i ident
      exact ⟨ident, rfl, List.any_eq_true.mp h⟩
    · cases h
  · rintro ⟨ident, rfl, hallowed⟩
    exact List.any_eq_true.mpr hallowed

theorem binaryOperatorIsReadSafe_iff (op : BinaryOperator) :
    binaryOperatorIsReadSafe op = true ↔ BuiltIn op := by
  cases op with
  | pgCustomBinaryOperator parts => simp [binaryOperatorIsReadSafe, BuiltIn]
  | custom token => simp [binaryOperatorIsReadSafe, BuiltIn]
  | builtin symbol => simp [binaryOperatorIsReadSafe, BuiltIn]

theorem castTargetTypeIsReadSafe_iff (dataType : DataType) :
    castTargetTypeIsReadSafe dataType = true ↔ Unqualified dataType := by
  induction dataType with
  | custom name =>
      show (name.length == 1) = true ↔ ∃ part, name = [part]
      rw [beq_iff_eq, List.length_eq_one_iff]
  | array inner ih | nullable inner ih | lowCardinality inner ih =>
      rw [castTargetTypeIsReadSafe, ih, Unqualified]
  | map key value ihkey ihvalue =>
      rw [castTargetTypeIsReadSafe, Bool.and_eq_true, ihkey, ihvalue, Unqualified]
  | untypedArray | builtin name => simp [castTargetTypeIsReadSafe, Unqualified]
  | struct | union | tuple | nested | namedTable => simp [castTargetTypeIsReadSafe, Unqualified]

/-- The first sweep sees everything an expression calls but the operator of a
comparison with `ANY` or `ALL`. -/
theorem exprCallsReadSafe_iff {e : Expr} (h : exprIsReadSafe e = true) :
    ExprCallsReadSafe e ↔ quantifiedOperatorIsReadSafe e = true := by
  cases e with
  | function name args clauses =>
      exact iff_of_true ((functionNameIsReadSafe_iff name).mp h) rfl
  | binaryOp left op right => exact iff_of_true ((binaryOperatorIsReadSafe_iff op).mp h) rfl
  | anyOp left op right | allOp left op right => exact (binaryOperatorIsReadSafe_iff op).symm
  | cast e dataType => exact iff_of_true ((castTargetTypeIsReadSafe_iff dataType).mp h) rfl
  | typedString dataType value =>
      exact iff_of_true ((castTargetTypeIsReadSafe_iff dataType).mp h) rfl
  | convert e dataType =>
      cases dataType with
      | none => exact iff_of_true trivial rfl
      | some dataType => exact iff_of_true ((castTargetTypeIsReadSafe_iff dataType).mp h) rfl
  | _ => exact iff_of_true trivial rfl

/-- At a node that is no expression the second sweep looks at everything the node
calls. -/
theorem nodeCallsReadSafe_iff (n : Node) :
    NodeCallsReadSafe n ↔
      tableFunctionNameReadSafe n = true ∧ ∀ e, n = .expr e → ExprCallsReadSafe e := by
  cases n with
  | expr e => simp [NodeCallsReadSafe, tableFunctionNameReadSafe]
  | query q => simp [NodeCallsReadSafe, tableFunctionNameReadSafe]
  | setExpr s => simp [NodeCallsReadSafe, tableFunctionNameReadSafe]
  | factor f =>
      cases f with
      | table name args clauses =>
          cases args <;>
            simp [NodeCallsReadSafe, tableFunctionNameReadSafe, functionNameIsReadSafe_iff]
      | function name args =>
          simp [NodeCallsReadSafe, tableFunctionNameReadSafe, functionNameIsReadSafe_iff]
      | _ => simp [NodeCallsReadSafe, tableFunctionNameReadSafe]

theorem nodeWritesNothing_iff (n : Node) : NodeWritesNothing n ↔ writesNothing n = true := by
  cases n with
  | expr e => simp [NodeWritesNothing, writesNothing]
  | query q =>
      obtain ⟨ctes, body, clauses, locks⟩ := q
      simp [NodeWritesNothing, writesNothing]
  | setExpr s => cases s <;> simp [NodeWritesNothing, writesNothing]
  | factor f => simp [NodeWritesNothing, writesNothing]

/-- Where a sweep passes at the query, the rest of the tree is a matter of what the
walk leaves out. -/
theorem forall_nodes_iff {check sweep : Node → Bool} (hs : shape.IsSweep check sweep)
    {stmt : Statement} {q : Query} (hnodes : stmt.nodes = (Node.query q).nodes)
    (hq : sweep (.query q) = true) :
    (∀ n ∈ stmt.nodes, check n = true) ↔ ∀ c ∈ leftOut stmt, sweep c = true := by
  have htree := Shape.forall_iff hs (Node.query q)
  constructor
  · intro h c hc
    obtain ⟨n, hn, hskipped⟩ := List.mem_flatMap.mp hc
    rw [hnodes] at h hn
    exact (htree.mp fun m hm => h m (Node.mem_nodes_iff.mpr hm)).2 n (Node.mem_nodes_iff.mp hn) c
      hskipped
  · intro h n hn
    rw [hnodes] at hn
    refine htree.mpr ⟨hq, fun m hm c hc => h c ?_⟩ n (Node.mem_nodes_iff.mp hn)
    rw [leftOut, hnodes]
    exact List.mem_flatMap.mpr ⟨m, Node.mem_nodes_iff.mpr hm, hc⟩

section
variable [Parser]

/-! ## The gate -/

theorem isReadStatement_of_classify {sql : String} {stmt : Statement}
    (hparse : Parser.parseSql sql = .ok [stmt]) (hread : classify sql = .read) :
    isReadStatement stmt = true := by
  obtain ⟨parsed, hparsed, hstmt⟩ := classify_read hread
  rw [hparse] at hparsed
  cases hparsed
  exact hstmt

/-- A read calls only what is read safe exactly when what the walk leaves out
passes the second sweep and every `ANY` or `ALL` comparison uses a built-in
operator. -/
theorem callsReadSafe_iff {sql : String} {stmt : Statement}
    (hparse : Parser.parseSql sql = .ok [stmt]) (hread : classify sql = .read) :
    CallsReadSafe stmt ↔
      (∀ n ∈ leftOut stmt, tableFunctionsReadSafe n = true) ∧
        ∀ e ∈ stmt.visitExpressions, quantifiedOperatorIsReadSafe e = true := by
  obtain ⟨q, hnodes, htables, -, hexprs⟩ :=
    isReadStatement_query (isReadStatement_of_classify hparse hread)
  rw [← forall_nodes_iff shape_tableFunctions hnodes htables]
  constructor
  · intro h
    refine ⟨fun n hn => ((nodeCallsReadSafe_iff n).mp (h n hn)).1, fun e he => ?_⟩
    obtain ⟨n, hn, hne⟩ := List.mem_filterMap.mp he
    cases n with
    | expr e' =>
        cases hne
        exact (exprCallsReadSafe_iff (hexprs e hn)).mp (h _ hn)
    | _ => cases hne
  · rintro ⟨htablesall, hquantified⟩ n hn
    refine (nodeCallsReadSafe_iff n).mpr ⟨htablesall n hn, ?_⟩
    rintro e rfl
    have he : e ∈ stmt.visitExpressions := List.mem_filterMap.mpr ⟨_, hn, rfl⟩
    exact (exprCallsReadSafe_iff (hexprs e hn)).mpr (hquantified e he)

/-- A read neither locks nor writes exactly when what the walk leaves out passes
the structural check. -/
theorem locksAndWritesNothing_iff {sql : String} {stmt : Statement}
    (hparse : Parser.parseSql sql = .ok [stmt]) (hread : classify sql = .read) :
    LocksAndWritesNothing stmt ↔ ∀ n ∈ leftOut stmt, readOnly n = true := by
  obtain ⟨q, hnodes, -, hreadOnly, -⟩ :=
    isReadStatement_query (isReadStatement_of_classify hparse hread)
  rw [← forall_nodes_iff shape_readOnly hnodes hreadOnly]
  constructor
  · intro h n hn
    exact (nodeWritesNothing_iff n).mp (h n hn)
  · intro h n hn
    exact (nodeWritesNothing_iff n).mpr (h n hn)

end

/-! ## A subquery in an expression -/

/-- `SELECT (SELECT 1 FROM …)` over one `FROM` item, with the locking clauses of the
inner query. -/
def selectScalar (item : TableFactor) (locks : List LockClause) : Statement :=
  .query (.mk []
    (.select none []
      [.subquery (.mk [] (.select none [.mk item []] [.other "1" []]) [] locks)])
    [] [])

/-- A table function over one literal argument. -/
def tableCall (name : ObjectName) (literal : String) : TableFactor :=
  .table name (some [.other literal []]) []

/-- A built-in function in the subquery: what the walk leaves out passes, and so the
statement calls only what is read safe. -/
theorem callsReadSafe_abs :
    letI := Parser.knowing [("SELECT (SELECT 1 FROM abs(1))",
      selectScalar (tableCall (.plain "abs") "1") [])]
    classify "SELECT (SELECT 1 FROM abs(1))" = .read ∧
      CallsReadSafe (selectScalar (tableCall (.plain "abs") "1") []) := by
  let _ := Parser.knowing [("SELECT (SELECT 1 FROM abs(1))",
    selectScalar (tableCall (.plain "abs") "1") [])]
  have hread : classify "SELECT (SELECT 1 FROM abs(1))" = .read := by decide +kernel
  refine ⟨hread, (callsReadSafe_iff (by rfl) hread).mpr ⟨?_, ?_⟩⟩
  · exact List.all_eq_true.mp (by decide +kernel)
  · exact List.all_eq_true.mp (by decide +kernel)

/-- The name `public.writing_fn`. -/
def writingFn : ObjectName := [.ident (.plain "public"), .ident (.plain "writing_fn")]

/-- A function of the user's own in the subquery is a read to the gate. -/
theorem writingFnInSubquery_classified_read :
    letI := Parser.knowing [("SELECT (SELECT 1 FROM public.writing_fn(1))",
      selectScalar (tableCall writingFn "1") [])]
    Parser.parseSql "SELECT (SELECT 1 FROM public.writing_fn(1))" =
        .ok [selectScalar (tableCall writingFn "1") []] ∧
      classify "SELECT (SELECT 1 FROM public.writing_fn(1))" = .read ∧
      ¬ CallsReadSafe (selectScalar (tableCall writingFn "1") []) := by
  refine ⟨by rfl, by decide +kernel, ?_⟩
  intro h
  have hcall : AllowListed writingFn :=
    h (.factor (tableCall writingFn "1")) (by simp [selectScalar, Statement.nodes, Query.nodes,
      SetExpr.nodes, exprNodes, Expr.nodes, tableNodes, TableWithJoins.nodes, tableCall,
      TableFactor.nodes])
  obtain ⟨ident, hname, -⟩ := hcall
  cases hname

/-- A subquery over a plain table without locks. -/
theorem locksAndWritesNothing_plain :
    letI := Parser.knowing [("SELECT (SELECT 1 FROM t)",
      selectScalar (.table (.plain "t") none []) [])]
    classify "SELECT (SELECT 1 FROM t)" = .read ∧
      LocksAndWritesNothing (selectScalar (.table (.plain "t") none []) []) := by
  let _ := Parser.knowing [("SELECT (SELECT 1 FROM t)",
    selectScalar (.table (.plain "t") none []) [])]
  have hread : classify "SELECT (SELECT 1 FROM t)" = .read := by decide +kernel
  refine ⟨hread, (locksAndWritesNothing_iff (by rfl) hread).mpr ?_⟩
  exact List.all_eq_true.mp (by decide +kernel)

/-- A row lock in the subquery is a read to the gate. -/
theorem lockInSubquery_classified_read :
    letI := Parser.knowing [("SELECT (SELECT 1 FROM t FOR UPDATE)",
      selectScalar (.table (.plain "t") none []) [⟨true⟩])]
    Parser.parseSql "SELECT (SELECT 1 FROM t FOR UPDATE)" =
        .ok [selectScalar (.table (.plain "t") none []) [⟨true⟩]] ∧
      classify "SELECT (SELECT 1 FROM t FOR UPDATE)" = .read ∧
      ¬ LocksAndWritesNothing (selectScalar (.table (.plain "t") none []) [⟨true⟩]) := by
  refine ⟨by rfl, by decide +kernel, ?_⟩
  intro h
  have hlocks : NodeWritesNothing (.query (.mk [] (.select none
      [.mk (.table (.plain "t") none []) []] [.other "1" []]) [] [⟨true⟩])) :=
    h _ (by simp [selectScalar, Statement.nodes, Query.nodes, SetExpr.nodes, exprNodes, Expr.nodes,
      tableNodes])
  cases hlocks

end PgBrakes.Ports.ReadGate
