import PgBrakes.Ports.Predicate
import PgBrakes.Ports.PredicateMeaning

/-!
# What the volatility gate lets through

The gate asks the catalog about the functions that are called in a `WHERE`
clause, and about nothing else: operators, casts and the constructs with a syntax
of their own are taken to be deterministic.  A stable function passes like an
immutable one, except for those the gate refuses by name.

## Main results

* `settled_of_passes` — every call of a predicate that passed is settled, and the
  predicate has the same value at two times between which only other functions
  changed.
* `stableCall_passes` — a stable function passes.
-/

namespace PgBrakes.Ports.PredicateVolatility

open PgBrakes.Ports.SqlAst
open PgBrakes.Ports.Predicate
open PgBrakes.Ports.PredicateMeaning

/-! ## Settled calls -/

/-- A name that is no special value of the transaction or the clock, and that is
a special form or a function the catalog calls immutable or stable. -/
structure Settled (catalog : String → Volatility) (name : String) : Prop where
  keyword : nondeterministicKeywords.contains (bareName name) = false
  known : isSpecialForm name = true ∨ catalog name = .immutable ∨ catalog name = .stable

section Gate

variable [Sql]

/-- The function a node calls. -/
def callName : Expr → Option String
  | .function name _ _ => some (objectNameLower name)
  | _ => none

/-- Two times agree on a predicate's parts, the unsettled functions apart. -/
def AgreeOnSettled {ν δ : Type} (catalog : String → Volatility) (I I' : Interp ν δ) : Prop :=
  ∀ node, (∀ name, callName node = some name → Settled catalog name) →
    ∀ db row values, nodeValue I db row node values = nodeValue I' db row node values

theorem mem_functionNamesIn {e node : Expr} {name : String} (hnode : node ∈ e.preorder)
    (h : callName node = some name) : name ∈ functionNamesIn e := by
  refine List.mem_filterMap.mpr ⟨node, hnode, ?_⟩
  cases node with
  | function name' args clauses => exact h
  | _ => cases h

omit [Sql] in
/-- The catalog knows every function it was asked about without a refusal. -/
theorem known_of_resolved {catalog : String → Volatility} {names : List String} {ω : Type}
    {w : ω} (h : (resolveFunctions (steady catalog) names w).1 = none) :
    ∀ name ∈ names,
      isSpecialForm name = true ∨ catalog name = .immutable ∨ catalog name = .stable := by
  induction names with
  | nil => simp
  | cons first names ih =>
      unfold resolveFunctions at h
      intro name hname
      by_cases hform : isSpecialForm first = true
      · rw [if_pos hform] at h
        rcases List.mem_cons.mp hname with rfl | hname
        · exact .inl hform
        · exact ih h name hname
      rw [if_neg hform] at h
      rcases hanswer : catalog first with _ | _ | _ | _
      all_goals simp only [steady, hanswer] at h
      · rcases List.mem_cons.mp hname with rfl | hname
        · exact .inr (.inl hanswer)
        · exact ih h name hname
      · rcases List.mem_cons.mp hname with rfl | hname
        · exact .inr (.inr hanswer)
        · exact ih h name hname
      · cases h
      · cases h

/-! ## What passes -/

/-- Every call of a predicate that passed is settled. -/
theorem settled_of_reason {ω : Type} {sql : String} {catalog : String → Volatility} {w : ω}
    {e : Expr} (h : (predicateVolatileReason sql (steady catalog) w).1 = none)
    (he : wherePredicate sql = some e) :
    ∀ name ∈ functionNamesIn e, Settled catalog name := by
  unfold predicateVolatileReason at h
  unfold wherePredicate at he
  rcases hparse : parseOne sql with _ | stmt
  · rw [hparse] at he
    cases he
  rw [hparse] at h he
  rcases hpredicate : predicateOf stmt with _ | _ | e'
  · simp [hpredicate] at he
  · simp [hpredicate] at he
  have heq : e' = e := by
    simpa [hpredicate] using he
  subst heq
  simp only [hpredicate] at h
  rcases hkeyword : (functionNamesIn e').find?
      fun name => nondeterministicKeywords.contains (bareName name) with _ | name
  · rw [hkeyword] at h
    intro name hname
    refine ⟨?_, known_of_resolved h name hname⟩
    exact Bool.eq_false_iff.mpr (List.find?_eq_none.mp hkeyword name hname)
  · rw [hkeyword] at h
    cases h

/-- A predicate that passed calls settled functions only, and has the same value
on the same row at two times that agree on everything but the unsettled
functions. -/
theorem settled_of_passes {ω : Type} (sql : String) (catalog : String → Volatility) (w : ω)
    {e : Expr} (h : (predicateVolatileReason sql (steady catalog) w).1 = none)
    (he : wherePredicate sql = some e) :
    (∀ name ∈ functionNamesIn e, Settled catalog name) ∧
      ∀ {ν δ : Type} (I I' : Interp ν δ), AgreeOnSettled catalog I I' →
        ∀ db row, value I db row e = value I' db row e := by
  have hsettled := settled_of_reason h he
  refine ⟨hsettled, ?_⟩
  intro ν δ I I' hagree db row
  apply value_congr_interp
  intro node hnode values
  refine hagree node ?_ db row values
  intro name hname
  exact hsettled name (mem_functionNamesIn hnode hname)

end Gate

/-! ## A stable function -/

def stableText : String := "DELETE FROM accounts WHERE id = account_of('x')"

def stableCondition : Expr :=
  .binaryOp (.identifier (.plain "id")) "="
    (.function [.plain "account_of"] [.expr (.value "'x'")] [])

def stableDelete : Statement :=
  .delete
    { fromTables := [⟨.table [.plain "accounts"], []⟩]
      using? := none
      selection := some stableCondition }

/-- Where the catalog calls the function immutable, it is settled. -/
theorem settled_of_passes_immutable :
    letI := Sql.knowing [(stableText, stableDelete)]
    (predicateVolatileReason stableText (steady fun _ => .immutable) ()).1 = none ∧
      ∀ name ∈ functionNamesIn stableCondition, Settled (fun _ => .immutable) name := by
  let _ := Sql.knowing [(stableText, stableDelete)]
  have hpasses : (predicateVolatileReason stableText (steady fun _ => .immutable) ()).1 =
      none := by
    decide +kernel
  exact ⟨hpasses, (settled_of_passes stableText (fun _ => .immutable) () hpasses rfl).1⟩

/-- A function that the catalog calls stable passes the gate. -/
theorem stableCall_passes :
    letI := Sql.knowing [(stableText, stableDelete)]
    (predicateVolatileReason stableText (steady fun _ => .stable) ()).1 = none ∧
      wherePredicate stableText = some stableCondition ∧
      ∃ name ∈ functionNamesIn stableCondition, isSpecialForm name = false ∧
        (fun _ => Volatility.stable) name ≠ .immutable := by
  let _ := Sql.knowing [(stableText, stableDelete)]
  refine ⟨by decide +kernel, rfl, "account_of", by decide +kernel, by decide +kernel, ?_⟩
  decide

end PgBrakes.Ports.PredicateVolatility
