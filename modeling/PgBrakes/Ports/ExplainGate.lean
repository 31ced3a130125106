import Mathlib.Algebra.Group.Nat.Defs

/-!
# The gate on the planner's estimate

Before a read runs, the proxy plans it and holds the estimate of the top plan line
against the role's ceiling.  Floating-point numbers and the quoted form of a text
come from the standard library as they are.
-/

namespace PgBrakes.Ports.ExplainGate

/-- What is taken from the standard library: reading, comparing and printing a
floating-point number, and the quoted form of a text.  Where a result needs to know how
numbers are read it says so (`ReadsCosts`: a number with two decimals is read, and not
every two of them as the same one); nothing is asked of the comparison, which is false
where a side is no number, nor of what is printed. -/
class Runtime (F : Type) where
  parse : String → Option F
  gt : F → F → Bool
  display : F → String
  debugStr : String → String

/-- The role's ceiling. -/
structure ExplainCeiling (F : Type) where
  maxCost : F
  maxRows : Nat

/-- The planner's estimate. -/
structure PlanEstimate (F : Type) where
  totalCost : F
  rows : Nat

inductive EstimateDim where
  | cost
  | rows
deriving DecidableEq

def EstimateDim.code : EstimateDim → String
  | .cost => "explain_cost_exceeded"
  | .rows => "explain_rows_exceeded"

/-- The verdict on one read. -/
inductive EstimateDecision (F : Type) where
  | within (estimate : PlanEstimate F)
  | exceeded (dim : EstimateDim) (estimate : PlanEstimate F)
  | failClosed (reason : String)

def explainFailClosedCode : String := "explain_failed"

/-- The statement that plans `sql` without running it. -/
def explainWrap (sql : String) : String := "EXPLAIN " ++ sql

/-! ## Reading a plan line -/

/-- What follows the first occurrence of a marker. -/
def afterFirst (marker : List Char) : List Char → Option (List Char)
  | [] => if marker = [] then some [] else none
  | c :: cs =>
      if marker.isPrefixOf (c :: cs) then some ((c :: cs).drop marker.length)
      else afterFirst marker cs

/-- The text up to the first occurrence of a marker, or all of it. -/
def upToFirst (marker : List Char) : List Char → List Char
  | [] => []
  | c :: cs => if marker.isPrefixOf (c :: cs) then [] else c :: upToFirst marker cs

/-- The characters with the Unicode property White_Space. -/
def isWhitespace (c : Char) : Bool :=
  (0x09 ≤ c.toNat && c.toNat ≤ 0x0D) || c.toNat = 0x20 || c.toNat = 0x85 || c.toNat = 0xA0 ||
    c.toNat = 0x1680 || (0x2000 ≤ c.toNat && c.toNat ≤ 0x200A) || c.toNat = 0x2028 ||
    c.toNat = 0x2029 || c.toNat = 0x202F || c.toNat = 0x205F || c.toNat = 0x3000

theorem toNat_of_isDigit {c : Char} (h : c.isDigit) : 48 ≤ c.toNat ∧ c.toNat ≤ 57 := by
  simp only [Char.isDigit, Bool.and_eq_true, decide_eq_true_eq, ge_iff_le,
    UInt32.le_iff_toNat_le] at h
  exact h

theorem isWhitespace_of_isDigit {c : Char} (h : c.isDigit) : isWhitespace c = false := by
  have hbounds := toNat_of_isDigit h
  simp only [isWhitespace, Bool.or_eq_false_iff, Bool.and_eq_false_iff, decide_eq_false_iff_not]
  omega

/-- The number a text of decimal digits stands for. -/
def digitsValue (digits : List Char) : Nat :=
  digits.foldl (fun n c => 10 * n + (c.toNat - 0x30)) 0

/-- The digits after the first `rows=`, as a 64-bit number. -/
def parseRows (line : List Char) : Option Nat :=
  match afterFirst "rows=".toList line with
  | none => none
  | some after =>
      let token := after.takeWhile Char.isDigit
      if token = [] then none
      else if digitsValue token < 2 ^ 64 then some (digitsValue token) else none

section
variable {F : Type} [Runtime F]

/-- The second of the two numbers after the first `cost=`. -/
def parseTotalCost (line : List Char) : Option F :=
  match afterFirst "cost=".toList line with
  | none => none
  | some after =>
      let token := after.takeWhile fun c => !isWhitespace c && c ≠ ')'
      match afterFirst "..".toList token with
      | none => none
      | some total => Runtime.parse (String.ofList (upToFirst "..".toList total))

def parsePlanEstimate (line : String) : Option (PlanEstimate F) :=
  match (parseTotalCost line.toList : Option F) with
  | none => none
  | some totalCost =>
      match parseRows line.toList with
      | none => none
      | some rows => some ⟨totalCost, rows⟩

/-- The characters of the first `n` bytes, where a character ends there. -/
def firstBytes : Nat → List Char → Option (List Char)
  | 0, _ => some []
  | _ + 1, [] => none
  | n + 1, c :: cs =>
      if c.utf8Size ≤ n + 1 then (firstBytes (n + 1 - c.utf8Size) cs).map (c :: ·) else none
termination_by n => n
decreasing_by
  have hpos := Char.utf8Size_pos c
  omega

/-- The first bytes of a text in a message; there is none, and the code panics,
where the cut falls inside a character. -/
def truncate (s : String) (max : Nat) : Option String :=
  if s.utf8ByteSize ≤ max then some s
  else (firstBytes max s.toList).map fun kept => String.ofList kept ++ "…"

/-! ## The decision -/

def decide (ceiling : ExplainCeiling F) (estimate : PlanEstimate F) : EstimateDecision F :=
  if Runtime.gt estimate.totalCost ceiling.maxCost then .exceeded .cost estimate
  else if estimate.rows > ceiling.maxRows then .exceeded .rows estimate
  else .within estimate

/-- The verdict on the top plan line, or none where the code panics. -/
def decidePlanLine (ceiling : ExplainCeiling F) (planLine : String) :
    Option (EstimateDecision F) :=
  match parsePlanEstimate planLine with
  | some estimate => some (decide ceiling estimate)
  | none =>
      (truncate planLine 200).map fun shown =>
        .failClosed ("EXPLAIN output could not be parsed into a cost/row estimate " ++
          "(fail-closed): " ++ Runtime.debugStr F shown)

end

end PgBrakes.Ports.ExplainGate
