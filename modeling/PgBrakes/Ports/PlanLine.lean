import Mathlib.Algebra.GroupWithZero.Nat
import Mathlib.Data.List.Infix
import PgBrakes.Ports.PgSession

/-!
# What the gate reads off a plan line

The top line of a plan is a label followed by one parenthesised group with the
planner's numbers.  The label holds names that the agent or the schema chose.
The gate looks for its two markers from the left, so a marker inside the label
is found first, and what follows it there is read in place of the group.

A line that does not parse is quoted in the refusal, cut after two hundred
bytes.  The cut is made at a byte offset; where that falls inside a character,
the code panics instead of refusing.

## Main results

* `planLine_iff` — the labels and row estimates under which the numbers of the group are
  the ones that decide, and the lines the gate survives.
-/

namespace PgBrakes.Ports.ExplainGate

/-! ## Searching for a marker -/

theorem starts_iff {marker cs : List Char} : marker.isPrefixOf cs ↔ marker <+: cs :=
  List.isPrefixOf_iff_prefix

/-- A marker that was found was there in full. -/
theorem length_le_of_afterFirst {marker : List Char} :
    ∀ {cs rest : List Char}, afterFirst marker cs = some rest → marker.length ≤ cs.length := by
  intro cs
  induction cs with
  | nil =>
      intro rest h
      unfold afterFirst at h
      split at h
      · next hnil => simp [hnil]
      · cases h
  | cons c cs ih =>
      intro rest h
      unfold afterFirst at h
      split at h
      · next hstarts => exact (starts_iff.mp hstarts).length_le
      · exact Nat.le_succ_of_le (ih h)

/-- Text behind an occurrence does not change where the first one is. -/
theorem afterFirst_append {marker : List Char} (hmarker : marker ≠ []) (more : List Char) :
    ∀ {cs rest : List Char}, afterFirst marker cs = some rest →
      afterFirst marker (cs ++ more) = some (rest ++ more) := by
  intro cs
  induction cs with
  | nil =>
      intro rest h
      rw [afterFirst, if_neg hmarker] at h
      cases h
  | cons c cs ih =>
      intro rest h
      rw [List.cons_append]
      unfold afterFirst at h ⊢
      split at h
      · next hfound =>
          have hpre := starts_iff.mp hfound
          have hpre' : marker.isPrefixOf (c :: (cs ++ more)) :=
            starts_iff.mpr (hpre.trans (List.prefix_append (c :: cs) more))
          cases h
          rw [if_pos hpre', ← List.cons_append, List.drop_append_of_le_length hpre.length_le]
      · next hfound =>
          have hlength := length_le_of_afterFirst h
          have hnot : ¬ marker.isPrefixOf (c :: (cs ++ more)) := by
            intro hpre
            apply hfound
            rw [starts_iff] at hpre ⊢
            exact List.prefix_of_prefix_length_le hpre (List.prefix_append (c :: cs) more)
              (Nat.le_succ_of_le hlength)
          rw [if_neg hnot]
          exact ih h

/-- A character that the marker does not have keeps it from starting before. -/
theorem afterFirst_skip {marker : List Char} (hmarker : marker ≠ []) {d : Char}
    (hd : d ∉ marker) (more : List Char) :
    ∀ {cs : List Char}, afterFirst marker cs = none →
      afterFirst marker (cs ++ d :: more) = afterFirst marker more := by
  have hstart : ∀ {cs : List Char}, ¬ marker.isPrefixOf cs →
      ¬ marker.isPrefixOf (cs ++ d :: more) := by
    intro cs hnot hpre
    rw [starts_iff] at hnot hpre
    have hcut : (cs ++ [d]) <+: cs ++ d :: more := ⟨more, by simp⟩
    rcases List.prefix_or_prefix_of_prefix hpre hcut with hle | hge
    · rcases List.prefix_concat_iff.mp hle with heq | hle
      · exact hd (by rw [heq]; simp)
      · exact hnot hle
    · exact hd (hge.subset (by simp))
  intro cs
  induction cs with
  | nil =>
      intro _
      have hnot : ¬ marker.isPrefixOf ([] ++ d :: more) := by
        apply hstart
        rw [starts_iff, List.prefix_nil]
        exact hmarker
      rw [List.nil_append] at hnot ⊢
      rw [afterFirst, if_neg hnot]
  | cons c cs ih =>
      intro h
      unfold afterFirst at h
      split at h
      · cases h
      · next hnot =>
          have hnot' := hstart hnot
          rw [List.cons_append] at hnot' ⊢
          rw [afterFirst, if_neg hnot']
          exact ih h

/-- The first character of a marker that occurs nowhere in a text. -/
theorem afterFirst_of_head {d : Char} {marker more : List Char} :
    ∀ {cs : List Char}, d ∉ cs →
      afterFirst (d :: marker) (cs ++ more) = afterFirst (d :: marker) more := by
  intro cs
  induction cs with
  | nil =>
      intro _
      rfl
  | cons c cs ih =>
      intro h
      rw [List.mem_cons, not_or] at h
      have hnot : ¬ (d :: marker).isPrefixOf (c :: (cs ++ more)) := by
        rw [starts_iff, List.cons_prefix_cons]
        exact fun heq => h.1 heq.1
      rw [List.cons_append, afterFirst, if_neg hnot]
      exact ih h.2

theorem afterFirst_self (marker more : List Char) :
    afterFirst marker (marker ++ more) = some more := by
  rcases hcs : marker ++ more with _ | ⟨c, cs⟩
  · obtain ⟨rfl, rfl⟩ := List.append_eq_nil_iff.mp hcs
    rfl
  · rw [afterFirst, ← hcs, if_pos (starts_iff.mpr (List.prefix_append _ _)),
      List.drop_left]

/-- A marker is found exactly in the texts that have it. -/
theorem afterFirst_eq_none_iff {marker cs : List Char} :
    afterFirst marker cs = none ↔ ¬ marker <:+: cs := by
  induction cs with
  | nil =>
      rw [afterFirst, List.infix_nil]
      split
      · next h => simp [h]
      · next h => simp [h]
  | cons c cs ih =>
      rw [afterFirst, List.infix_cons_iff, ← starts_iff]
      split
      · next h => simp [h]
      · next h => rw [ih]; simp [h]

theorem upToFirst_of_not_infix {marker : List Char} :
    ∀ {cs : List Char}, ¬ marker <:+: cs → upToFirst marker cs = cs := by
  intro cs
  induction cs with
  | nil =>
      intro _
      rfl
  | cons c cs ih =>
      intro h
      rw [List.infix_cons_iff, not_or, ← starts_iff] at h
      rw [upToFirst, if_neg h.1, ih h.2]

/-- What stands before the first occurrence does not depend on what stands
behind it. -/
theorem upToFirst_append {marker : List Char} (more : List Char) :
    ∀ {cs : List Char}, marker ≠ [] → marker <:+: cs →
      upToFirst marker (cs ++ more) = upToFirst marker cs := by
  intro cs
  induction cs with
  | nil =>
      intro hmarker h
      exact absurd (List.infix_nil.mp h) hmarker
  | cons c cs ih =>
      intro hmarker h
      rw [List.infix_cons_iff, ← starts_iff] at h
      rw [List.cons_append, upToFirst, upToFirst]
      by_cases hstarts : marker.isPrefixOf (c :: cs)
      · have hstarts' : marker.isPrefixOf (c :: (cs ++ more)) :=
          starts_iff.mpr ((starts_iff.mp hstarts).trans (List.prefix_append (c :: cs) more))
        rw [if_pos hstarts, if_pos hstarts']
      · have hinside : marker <:+: cs := h.resolve_left hstarts
        have hnot : ¬ marker.isPrefixOf (c :: (cs ++ more)) := by
          intro hpre
          apply hstarts
          rw [starts_iff] at hpre ⊢
          exact List.prefix_of_prefix_length_le hpre (List.prefix_append (c :: cs) more)
            (Nat.le_succ_of_le hinside.length_le)
        rw [if_neg hstarts, if_neg hnot, ih hmarker hinside]

/-! ## The planner's group -/

/-- A cost as the server prints it, with two decimals. -/
structure Cost where
  whole : Nat
  tenths : Fin 10
  hundredths : Fin 10

/-- The decimal digits of a number. -/
def decimal (n : Nat) : List Char := Nat.toDigits 10 n

def Cost.text (c : Cost) : List Char :=
  decimal c.whole ++ ['.', c.tenths.val.digitChar, c.hundredths.val.digitChar]

/-- `(cost=a..b rows=n width=w)`. -/
def planGroup (a b : Cost) (n w : Nat) : List Char :=
  "(cost=".toList ++ a.text ++ "..".toList ++ b.text ++ " rows=".toList ++ decimal n ++
    " width=".toList ++ decimal w ++ [')']

theorem isDigit_decimal {n : Nat} {c : Char} (h : c ∈ decimal n) : c.isDigit :=
  Nat.isDigit_of_mem_toDigits (by decide) (by decide) h

theorem isDigit_digitChar (d : Fin 10) : d.val.digitChar.isDigit := by
  revert d
  decide

theorem digitsValue_decimal (n : Nat) : digitsValue (decimal n) = n := by
  have hfold : digitsValue (decimal n) = Nat.ofDigitChars 10 (decimal n) 0 := by
    rw [Nat.ofDigitChars_eq_foldl]
    rfl
  rw [hfold]
  exact Nat.ofDigitChars_toDigits (by decide) (by decide)

/-- The characters of a cost are digits and dots. -/
theorem mem_text {b : Cost} {c : Char} (h : c ∈ b.text) : c.isDigit ∨ c = '.' := by
  unfold Cost.text at h
  rcases List.mem_append.mp h with h | h
  · exact .inl (isDigit_decimal h)
  · simp only [List.mem_cons, List.not_mem_nil, or_false] at h
    rcases h with rfl | rfl | rfl
    · exact .inr rfl
    · exact .inl (isDigit_digitChar _)
    · exact .inl (isDigit_digitChar _)

/-- The characters of a cost token: neither white space nor a closing
parenthesis. -/
def inToken (c : Char) : Bool := !isWhitespace c && c ≠ ')'

theorem inToken_of_isDigit {c : Char} (h : c.isDigit) : inToken c := by
  have hspace := isWhitespace_of_isDigit h
  have hparen : c ≠ ')' := by
    rintro rfl
    exact absurd h (by decide)
  simp [inToken, hspace, hparen]

theorem inToken_text {b : Cost} : ∀ c ∈ b.text, inToken c := by
  intro c hc
  rcases mem_text hc with hdigit | rfl
  · exact inToken_of_isDigit hdigit
  · decide

theorem notMem_text {b : Cost} {d : Char} (hdigit : d.isDigit = false) (hdot : d ≠ '.') :
    d ∉ b.text := by
  intro hd
  rcases mem_text hd with h | h
  · rw [hdigit] at h
    cases h
  · exact hdot h

/-- The token the two costs are read from. -/
def costs (a b : Cost) : List Char := a.text ++ "..".toList ++ b.text

theorem inToken_costs {a b : Cost} : ∀ c ∈ costs a b, inToken c := by
  intro c hc
  simp only [costs, List.mem_append] at hc
  rcases hc with (hc | hc) | hc
  · exact inToken_text c hc
  · have hdot : c = '.' := by simpa using hc
    subst hdot
    decide
  · exact inToken_text c hc

theorem dots_eq : "..".toList = ['.', '.'] := rfl

theorem dot_notMem_digitChar (d : Fin 10) : '.' ∉ [d.val.digitChar] := by
  revert d
  decide

/-- The first pair of dots is found behind a cost, never inside it. -/
theorem afterFirst_dots_text (b : Cost) (more : List Char) :
    afterFirst "..".toList (b.text ++ more) = afterFirst "..".toList more := by
  have hwhole : '.' ∉ decimal b.whole := by
    intro hdot
    exact absurd (isDigit_decimal hdot) (by decide)
  have hfirst : ¬ ['.', '.'].isPrefixOf
      ('.' :: ([b.tenths.val.digitChar] ++ ([b.hundredths.val.digitChar] ++ more))) := by
    rw [starts_iff]
    intro hpre
    have hnext := (List.cons_prefix_cons.mp (List.cons_prefix_cons.mp hpre).2).1
    exact dot_notMem_digitChar b.tenths (List.mem_singleton.mpr hnext)
  have htext : b.text ++ more = decimal b.whole ++
      ('.' :: ([b.tenths.val.digitChar] ++ ([b.hundredths.val.digitChar] ++ more))) := by
    simp [Cost.text]
  rw [dots_eq, htext, afterFirst_of_head hwhole, afterFirst, if_neg hfirst,
    afterFirst_of_head (dot_notMem_digitChar b.tenths),
    afterFirst_of_head (dot_notMem_digitChar b.hundredths)]

theorem afterFirst_dots_costs (a b : Cost) :
    afterFirst "..".toList (costs a b) = some b.text := by
  rw [costs, List.append_assoc, afterFirst_dots_text, afterFirst_self]

theorem no_dots_text (b : Cost) : ¬ "..".toList <:+: b.text := by
  rw [← afterFirst_eq_none_iff, ← List.append_nil b.text, afterFirst_dots_text]
  rfl

/-- The group from its opening parenthesis on, and from the costs on. -/
theorem planGroup_eq (a b : Cost) (n w : Nat) :
    planGroup a b n w = '(' :: ("cost=".toList ++ (costs a b ++
      (' ' :: ("rows=".toList ++ (decimal n ++ (" width=".toList ++ decimal w ++ [')'])))))) := by
  have hopen : "(cost=".toList = ['('] ++ "cost=".toList := by decide
  have hrows : " rows=".toList = [' '] ++ "rows=".toList := by decide
  unfold planGroup costs
  rw [hopen, hrows]
  generalize "cost=".toList = cost
  generalize "rows=".toList = rows
  generalize " width=".toList = width
  simp

/-- Where a text stops being taken, what is behind it does not matter. -/
theorem takeWhile_append_stop {p : Char → Bool} {cs more : List Char} {c : Char}
    (hc : c ∈ cs) (hstop : p c = false) : (cs ++ more).takeWhile p = cs.takeWhile p := by
  induction cs with
  | nil => cases hc
  | cons d cs ih =>
      rw [List.cons_append, List.takeWhile_cons, List.takeWhile_cons]
      by_cases hd : p d
      · rw [if_pos hd, if_pos hd, ih ?_]
        rcases List.mem_cons.mp hc with rfl | hc
        · rw [hstop] at hd
          cases hd
        · exact hc
      · rw [if_neg hd, if_neg hd]

/-! ## The row estimate -/

/-- Behind a label that has no `rows=` the group's own estimate is read, where it fits. -/
theorem parseRows_of_unnamed {label : List Char} (h : ¬ "rows=".toList <:+: label)
    (a b : Cost) (n w : Nat) :
    parseRows (label ++ planGroup a b n w) = if n < 2 ^ 64 then some n else none := by
  have hhead : 'r' ∉ "cost=".toList ++ costs a b ++ [' '] := by
    simp only [costs, List.mem_append, not_or]
    exact ⟨⟨by decide, ⟨notMem_text (by decide) (by decide), by decide⟩,
      notMem_text (by decide) (by decide)⟩, by decide⟩
  have hgroup : "cost=".toList ++ (costs a b ++
      (' ' :: ("rows=".toList ++ (decimal n ++ (" width=".toList ++ decimal w ++ [')']))))) =
      ("cost=".toList ++ costs a b ++ [' ']) ++
        ("rows=".toList ++ (decimal n ++ (" width=".toList ++ decimal w ++ [')']))) := by
    simp
  have hrows : "rows=".toList = 'r' :: "ows=".toList := rfl
  have hafter : afterFirst "rows=".toList (label ++ planGroup a b n w) =
      some (decimal n ++ (" width=".toList ++ decimal w ++ [')'])) := by
    rw [planGroup_eq, afterFirst_skip (by decide) (by decide) _ (afterFirst_eq_none_iff.mpr h),
      hgroup]
    nth_rewrite 1 [hrows]
    rw [afterFirst_of_head hhead, ← hrows, afterFirst_self]
  have htoken : (decimal n ++ (" width=".toList ++ decimal w ++ [')'])).takeWhile
      Char.isDigit = decimal n := by
    rw [List.takeWhile_append_of_pos fun c hc => isDigit_decimal hc]
    exact List.append_nil _
  have hne : decimal n ≠ [] := Nat.toDigits_ne_nil
  rw [parseRows, hafter]
  simp only [htoken, if_neg hne, digitsValue_decimal]

/-- A `rows=` in the label is read in place of the group's. -/
theorem parseRows_of_shadowed {label tail : List Char}
    (h : afterFirst "rows=".toList label = some tail) (a b : Cost) (n w : Nat) :
    parseRows (label ++ planGroup a b n w) = parseRows label := by
  have htoken : (tail ++ planGroup a b n w).takeWhile Char.isDigit =
      tail.takeWhile Char.isDigit := by
    by_cases hall : ∀ c ∈ tail, c.isDigit
    · rw [planGroup_eq, List.takeWhile_append_of_pos hall, ← List.append_nil tail,
        List.takeWhile_append_of_pos (by simpa using hall), List.append_nil]
      rfl
    · obtain ⟨c, hc, hstop⟩ := not_forall₂.mp hall
      exact takeWhile_append_stop hc (Bool.not_eq_true _ ▸ hstop)
  rw [parseRows, parseRows, afterFirst_append (by decide) _ h, h]
  simp only [htoken]

/-! ## The total cost -/

section

variable {F : Type} [Runtime F]

/-- The tail of a label behind its first `cost=` that leaves the group's costs in
place: it runs into the group without a gap and without a pair of dots. -/
def RunsOn (tail : List Char) : Prop :=
  (∀ c ∈ tail, inToken c) ∧ ¬ "..".toList <:+: tail

/-- What is read behind the first `cost=` of a line. -/
theorem parseTotalCost_eq {line after : List Char}
    (hafter : afterFirst "cost=".toList line = some after) :
    (parseTotalCost line : Option F) =
      (afterFirst "..".toList (after.takeWhile inToken)).bind fun total =>
        Runtime.parse (String.ofList (upToFirst "..".toList total)) := by
  have htoken : (after.takeWhile fun c => !isWhitespace c && c ≠ ')') =
      after.takeWhile inToken := rfl
  rw [parseTotalCost, hafter]
  simp only [htoken]
  cases afterFirst "..".toList (after.takeWhile inToken) with
  | none => rfl
  | some total => rfl

/-- The total of a token that holds the group's costs. -/
theorem parseTotalCost_of_token {line after token : List Char} {b : Cost}
    (hafter : afterFirst "cost=".toList line = some after)
    (htoken : after.takeWhile inToken = token)
    (htotal : afterFirst "..".toList token = some b.text) :
    (parseTotalCost line : Option F) = Runtime.parse (String.ofList b.text) := by
  rw [parseTotalCost_eq hafter, htoken, htotal, Option.bind_some,
    upToFirst_of_not_infix (no_dots_text b)]

/-- The cost token of a group. -/
theorem takeWhile_costs (a b : Cost) (n w : Nat) :
    (costs a b ++ (' ' :: ("rows=".toList ++
      (decimal n ++ (" width=".toList ++ decimal w ++ [')']))))).takeWhile inToken =
        costs a b := by
  rw [List.takeWhile_append_of_pos inToken_costs]
  exact List.append_nil _

/-- Behind a label whose first `cost=`, if it has one, runs on into the group, the
group's own total is read. -/
theorem parseTotalCost_of_plain {label : List Char}
    (h : ∀ tail, afterFirst "cost=".toList label = some tail → RunsOn tail)
    (a b : Cost) (n w : Nat) :
    (parseTotalCost (label ++ planGroup a b n w) : Option F) =
      Runtime.parse (String.ofList b.text) := by
  rcases hlabel : afterFirst "cost=".toList label with _ | tail
  · refine parseTotalCost_of_token ?_ (takeWhile_costs a b n w) (afterFirst_dots_costs a b)
    rw [planGroup_eq, afterFirst_skip (by decide) (by decide) _ hlabel, afterFirst_self]
  · obtain ⟨htoken, hdots⟩ := h tail hlabel
    have hopen : ∀ c ∈ '(' :: "cost=".toList, inToken c :=
      List.all_eq_true.mp (by decide)
    have htake : (tail ++ planGroup a b n w).takeWhile inToken =
        tail ++ ('(' :: "cost=".toList ++ costs a b) := by
      rw [planGroup_eq, List.takeWhile_append_of_pos htoken, ← List.cons_append,
        List.takeWhile_append_of_pos hopen, takeWhile_costs]
    have htotal : afterFirst "..".toList (tail ++ ('(' :: "cost=".toList ++ costs a b)) =
        some b.text := by
      rw [List.cons_append, afterFirst_skip (by decide) (by decide) _
        (afterFirst_eq_none_iff.mpr hdots), dots_eq, afterFirst_of_head (by decide), ← dots_eq,
        afterFirst_dots_costs]
    exact parseTotalCost_of_token (afterFirst_append (by decide) _ hlabel) htake htotal

/-- Any other `cost=` in the label is read without a look at the group's total. -/
theorem parseTotalCost_of_shadowed {label tail : List Char}
    (hlabel : afterFirst "cost=".toList label = some tail) (h : ¬ RunsOn tail)
    (a b b' : Cost) (n n' w w' : Nat) :
    (parseTotalCost (label ++ planGroup a b n w) : Option F) =
      parseTotalCost (label ++ planGroup a b' n' w') := by
  rw [parseTotalCost_eq (afterFirst_append (by decide) _ hlabel),
    parseTotalCost_eq (afterFirst_append (by decide) _ hlabel)]
  by_cases hall : ∀ c ∈ tail, inToken c
  · have hdots : afterFirst "..".toList tail ≠ none := by
      intro hnone
      exact h ⟨hall, afterFirst_eq_none_iff.mp hnone⟩
    obtain ⟨rest, hrest⟩ := Option.ne_none_iff_exists'.mp hdots
    have hopen : ∀ c ∈ '(' :: "cost=".toList, inToken c :=
      List.all_eq_true.mp (by decide)
    -- The pair of dots in the label comes first, and the next one ends the total.
    have hafter : ∀ (b : Cost) (n w : Nat),
        afterFirst "..".toList ((tail ++ planGroup a b n w).takeWhile inToken) =
          some ((rest ++ ('(' :: "cost=".toList ++ (a.text ++ "..".toList))) ++ b.text) := by
      intro b n w
      rw [planGroup_eq, List.takeWhile_append_of_pos hall, ← List.cons_append,
        List.takeWhile_append_of_pos hopen, takeWhile_costs, afterFirst_append (by decide) _ hrest,
        costs]
      simp only [List.append_assoc]
    have hinside : "..".toList <:+: rest ++ ('(' :: "cost=".toList ++ (a.text ++ "..".toList)) :=
      ⟨rest ++ ('(' :: "cost=".toList ++ a.text), [],
        by simp only [List.append_assoc, List.append_nil]⟩
    rw [hafter, hafter]
    simp only [Option.bind_some, upToFirst_append _ (by decide) hinside]
  · obtain ⟨c, hc, hstop⟩ := not_forall₂.mp hall
    rw [takeWhile_append_stop hc (Bool.not_eq_true _ ▸ hstop),
      takeWhile_append_stop hc (Bool.not_eq_true _ ▸ hstop)]

/-! ## The decision -/

/-- The estimate a decision carries. -/
def EstimateDecision.estimate : EstimateDecision F → Option (PlanEstimate F)
  | .within e => some e
  | .exceeded _ e => some e
  | .failClosed _ => none

/-- A decision carries the estimate it was made on. -/
theorem estimate_decide (ceiling : ExplainCeiling F) (e : PlanEstimate F) :
    (decide ceiling e).estimate = some e := by
  unfold decide
  split
  · rfl
  · split
    · rfl
    · rfl

/-- A line is decided on an estimate exactly when that is what it parses to. -/
theorem decidePlanLine_eq_iff {ceiling : ExplainCeiling F} {line : String}
    {e : PlanEstimate F} :
    decidePlanLine ceiling line = some (decide ceiling e) ↔ parsePlanEstimate line = some e := by
  unfold decidePlanLine
  rcases parsePlanEstimate line with _ | e'
  · simp only [reduceCtorEq, iff_false, Option.map_eq_some_iff, not_exists, not_and]
    intro shown _ h
    have hestimate := congrArg EstimateDecision.estimate h
    rw [estimate_decide] at hestimate
    cases hestimate
  · simp only [Option.some.injEq]
    constructor
    · intro h
      have hestimate := congrArg EstimateDecision.estimate h
      rw [estimate_decide, estimate_decide] at hestimate
      exact Option.some.inj hestimate
    · intro h
      rw [h]

/-- What `f64::from_str` does with the server's costs: it reads each of them, and
not all of them as one number. -/
structure ReadsCosts (F : Type) [Runtime F] : Prop where
  reads : ∀ b : Cost, ∃ cost : F, Runtime.parse (String.ofList b.text) = some cost
  apart : ∃ b b' : Cost, (Runtime.parse (String.ofList b.text) : Option F) ≠
    Runtime.parse (String.ofList b'.text)

end

/-- Behind this label the decision is made on the total and the row estimate of the
group, whatever the total is. -/
def Exact (F : Type) [Runtime F] (label : String) (n : Nat) : Prop :=
  ∀ (a b : Cost) (w : Nat) (cost : F), Runtime.parse (String.ofList b.text) = some cost →
    ∀ ceiling : ExplainCeiling F,
      decidePlanLine ceiling (label ++ String.ofList (planGroup a b n w)) =
        some (decide ceiling ⟨cost, n⟩)

/-- The label has a `cost=` only at its end, where it runs into the group. -/
def PlainCosts (label : String) : Prop :=
  ∀ tail, afterFirst "cost=".toList label.toList = some tail → RunsOn tail

/-- The label has a `rows=` only in front of the number `n`. -/
def PlainRows (label : String) (n : Nat) : Prop :=
  ∀ tail, afterFirst "rows=".toList label.toList = some tail →
    tail.takeWhile Char.isDigit ≠ [] ∧ digitsValue (tail.takeWhile Char.isDigit) = n

/-- The gate gets to a verdict. -/
def NeverPanics (F : Type) [Runtime F] (line : String) : Prop :=
  ∀ ceiling : ExplainCeiling F, decidePlanLine ceiling line ≠ none

/-- A character of the text ends after exactly this many bytes. -/
def BoundaryAt (max : Nat) (s : String) : Prop :=
  ∃ k, ((s.toList.take k).map Char.utf8Size).sum = max

section

variable {F : Type} [Runtime F]

private theorem line_toList (label : String) (a b : Cost) (n w : Nat) :
    (label ++ String.ofList (planGroup a b n w)).toList = label.toList ++ planGroup a b n w := by
  rw [String.toList_append, String.toList_ofList]

/-- Behind an exact label the total and the rows of the group are read. -/
theorem Exact.parsed {label : String} {n : Nat} (hexact : Exact F label n) (a : Cost) {b : Cost}
    (w : Nat) {cost : F} (hcost : Runtime.parse (String.ofList b.text) = some cost) :
    (parseTotalCost (label.toList ++ planGroup a b n w) : Option F) = some cost ∧
      parseRows (label.toList ++ planGroup a b n w) = some n := by
  have hestimate := decidePlanLine_eq_iff.mp (hexact a b w cost hcost ⟨cost, 0⟩)
  rw [parsePlanEstimate, line_toList] at hestimate
  rcases htotal : (parseTotalCost (label.toList ++ planGroup a b n w) : Option F) with
    _ | total
  · rw [htotal] at hestimate
    cases hestimate
  rcases hrows : parseRows (label.toList ++ planGroup a b n w) with _ | rows
  · rw [htotal, hrows] at hestimate
    cases hestimate
  · rw [htotal, hrows] at hestimate
    cases hestimate
    exact ⟨rfl, rfl⟩

omit [Runtime F] in
/-- The rows that are read are those of the group exactly when they fit and the label
names no others. -/
theorem parseRows_eq_iff (label : String) (a b : Cost) (n w : Nat) :
    parseRows (label.toList ++ planGroup a b n w) = some n ↔
      n < 2 ^ 64 ∧ PlainRows label n := by
  rcases htail : afterFirst "rows=".toList label.toList with _ | tail
  · have hplain : PlainRows label n := by
      intro tail h
      rw [htail] at h
      cases h
    rw [parseRows_of_unnamed (afterFirst_eq_none_iff.mp htail)]
    simp [hplain]
  · have hplain : PlainRows label n ↔ tail.takeWhile Char.isDigit ≠ [] ∧
        digitsValue (tail.takeWhile Char.isDigit) = n := by
      constructor
      · exact fun h => h tail htail
      · intro h tail' htail'
        rw [htail] at htail'
        cases htail'
        exact h
    rw [parseRows_of_shadowed htail, hplain, parseRows, htail]
    by_cases hdigits : tail.takeWhile Char.isDigit = []
    · simp [hdigits]
    · by_cases hfits : digitsValue (tail.takeWhile Char.isDigit) < 2 ^ 64
      · simp only [hdigits, hfits, if_true, if_false, Option.some.injEq, ne_eq, not_false_eq_true,
          true_and]
        exact ⟨fun h => ⟨h ▸ hfits, h⟩, fun h => h.2⟩
      · simp only [hdigits, hfits, if_false, reduceCtorEq, false_iff, ne_eq, not_false_eq_true,
          true_and, not_and]
        exact fun hn h => hfits (h ▸ hn)

theorem exact_iff_plain (hF : ReadsCosts F) (label : String) (n : Nat) :
    Exact F label n ↔ PlainCosts label ∧ n < 2 ^ 64 ∧ PlainRows label n := by
  obtain ⟨b₀, b₁, hapart⟩ := hF.apart
  obtain ⟨cost₀, hcost₀⟩ := hF.reads b₀
  obtain ⟨cost₁, hcost₁⟩ := hF.reads b₁
  constructor
  · intro hexact
    obtain ⟨htotal, hrows⟩ := hexact.parsed b₀ 0 hcost₀
    refine ⟨?_, (parseRows_eq_iff label b₀ b₀ n 0).mp hrows⟩
    intro tail htail
    by_contra hstop
    have hother := (hexact.parsed b₀ 0 hcost₁).1
    rw [parseTotalCost_of_shadowed htail hstop b₀ b₀ b₁ n n 0 0, hother] at htotal
    exact hapart (hcost₀.trans (htotal.symm.trans hcost₁.symm))
  · rintro ⟨hcosts, hrows⟩ a b w cost hcost ceiling
    apply decidePlanLine_eq_iff.mpr
    rw [parsePlanEstimate, line_toList, parseTotalCost_of_plain hcosts, hcost,
      (parseRows_eq_iff label a b n w).mpr hrows]

/-- The first bytes can be taken exactly where a character ends after them. -/
theorem firstBytes_isSome_iff : ∀ (cs : List Char) (n : Nat),
    (firstBytes n cs).isSome ↔ ∃ k, ((cs.take k).map Char.utf8Size).sum = n := by
  intro cs
  induction cs with
  | nil =>
      intro n
      cases n with
      | zero => simp [firstBytes]
      | succ n => simp [firstBytes]
  | cons c cs ih =>
      intro n
      cases n with
      | zero =>
          rw [firstBytes]
          exact iff_of_true rfl ⟨0, rfl⟩
      | succ n =>
          have hpos := Char.utf8Size_pos c
          rw [firstBytes]
          split
          · next hfits =>
              rw [Option.isSome_map, ih]
              constructor
              · rintro ⟨k, hk⟩
                refine ⟨k + 1, ?_⟩
                rw [List.take_succ_cons, List.map_cons, List.sum_cons, hk]
                omega
              · rintro ⟨k, hk⟩
                cases k with
                | zero => simp at hk
                | succ k =>
                    rw [List.take_succ_cons, List.map_cons, List.sum_cons] at hk
                    exact ⟨k, by omega⟩
          · next hover =>
              refine iff_of_false (by simp) ?_
              rintro ⟨k, hk⟩
              cases k with
              | zero => simp at hk
              | succ k =>
                  rw [List.take_succ_cons, List.map_cons, List.sum_cons] at hk
                  omega

theorem neverPanics_iff [Nonempty F] (line : String) :
    NeverPanics F line ↔
      (parsePlanEstimate line : Option (PlanEstimate F)) ≠ none ∨
        line.utf8ByteSize ≤ 200 ∨ BoundaryAt 200 line := by
  obtain ⟨cost⟩ := ‹Nonempty F›
  unfold NeverPanics decidePlanLine
  rcases hparse : (parsePlanEstimate line : Option (PlanEstimate F)) with _ | e
  · have htruncate : truncate line 200 ≠ none ↔ line.utf8ByteSize ≤ 200 ∨ BoundaryAt 200 line := by
      unfold truncate
      split
      · next hshort => simp [hshort]
      · next hlong =>
          rw [Ne, Option.map_eq_none_iff, ← Option.not_isSome_iff_eq_none, not_not,
            firstBytes_isSome_iff]
          simp only [hlong, false_or]
          rfl
    simp only [ne_eq, Option.map_eq_none_iff, not_true_eq_false, false_or]
    rw [← htruncate]
    exact ⟨fun h => h ⟨cost, 0⟩, fun h _ => h⟩
  · simp

/-- The group's numbers decide exactly behind a label that names no others, where the
rows fit, and the gate survives exactly the lines that parse or whose two hundredth byte
ends a character. -/
theorem planLine_iff (hF : ReadsCosts F) (label : String) (n : Nat) (line : String) :
    (Exact F label n ↔ PlainCosts label ∧ n < 2 ^ 64 ∧ PlainRows label n) ∧
      (NeverPanics F line ↔
        (parsePlanEstimate line : Option (PlanEstimate F)) ≠ none ∨
          line.utf8ByteSize ≤ 200 ∨ BoundaryAt 200 line) := by
  obtain ⟨b, -, -⟩ := hF.apart
  obtain ⟨cost, -⟩ := hF.reads b
  have : Nonempty F := ⟨cost⟩
  exact ⟨exact_iff_plain hF label n, neverPanics_iff line⟩

end

theorem readsCosts_hundredths : @ReadsCosts Nat Proxy.Runtime.hundredths := by
  let _ := Proxy.Runtime.hundredths
  exact ⟨fun b => ⟨_, rfl⟩, ⟨0, 0, 0⟩, ⟨1, 0, 0⟩, by decide⟩

/-- The label of a plain scan, and a line without an estimate. -/
theorem planLine_iff_seqScan :
    letI := Proxy.Runtime.hundredths
    Exact Nat "Seq Scan on accounts  " 40 ∧ NeverPanics Nat "Result" := by
  let _ := Proxy.Runtime.hundredths
  have hboth := planLine_iff readsCosts_hundredths "Seq Scan on accounts  " 40 "Result"
  refine ⟨hboth.1.mpr ⟨?_, by decide, ?_⟩, hboth.2.mpr (.inr (.inl (by decide +kernel)))⟩
  · intro tail htail
    exact absurd htail (by decide +revert)
  · intro tail htail
    exact absurd htail (by decide +revert)

/-- The bytes of a text, character by character. -/
theorem utf8ByteSize_ofList (cs : List Char) :
    (String.ofList cs).utf8ByteSize = (cs.map Char.utf8Size).sum := by
  induction cs with
  | nil => rfl
  | cons c cs ih =>
      rw [← List.singleton_append, String.ofList_append, String.utf8ByteSize_append, ih]
      exact congrArg (· + _) String.utf8ByteSize_singleton

/-- One-byte characters, and one of two bytes behind them. -/
def onesThenTwo (m : Nat) : List Char := List.replicate m 'x' ++ ['é']

theorem onesThenTwo_size (m : Nat) : ((onesThenTwo m).map Char.utf8Size).sum = m + 2 := by
  have hone : 'x'.utf8Size = 1 := rfl
  have htwo : 'é'.utf8Size = 2 := rfl
  simp [onesThenTwo, hone, htwo]

/-- No character ends after the first byte of the last one. -/
theorem onesThenTwo_no_boundary (m k : Nat) :
    (((onesThenTwo m).take k).map Char.utf8Size).sum ≠ m + 1 := by
  rcases Nat.lt_or_ge m k with hgt | hle
  · have hlength : (onesThenTwo m).length = m + 1 := by simp [onesThenTwo]
    rw [List.take_of_length_le (by omega), onesThenTwo_size]
    omega
  · have hone : 'x'.utf8Size = 1 := rfl
    have htake : (onesThenTwo m).take k = List.replicate k 'x' := by
      rw [onesThenTwo, List.take_append_of_le_length (by simpa using hle), List.take_replicate,
        Nat.min_eq_left hle]
    rw [htake, List.map_replicate, hone, List.sum_replicate_nat]
    omega

/-- A line of one-byte characters with a longer one across the cut. -/
def splitLine : String := String.ofList (onesThenTwo 199)

theorem splitLine_panics {F : Type} [Runtime F] [Nonempty F] : ¬ NeverPanics F splitLine := by
  intro hnever
  rcases (neverPanics_iff splitLine).mp hnever with hparse | hshort | ⟨k, hk⟩
  · apply hparse
    have hmarker : 'c' ∉ onesThenTwo 199 := by
      rw [onesThenTwo, List.mem_append, List.mem_replicate]
      rintro (⟨-, h⟩ | h)
      · exact absurd h (by decide)
      · exact absurd h (by decide)
    have hline : splitLine.toList = onesThenTwo 199 ++ [] := by
      rw [List.append_nil]
      exact String.toList_ofList
    have hcost : "cost=".toList = 'c' :: "ost=".toList := rfl
    have hnone : afterFirst "cost=".toList splitLine.toList = none := by
      rw [hline, hcost, afterFirst_of_head hmarker]
      rfl
    rw [parsePlanEstimate, parseTotalCost, hnone]
  · rw [splitLine, utf8ByteSize_ofList, onesThenTwo_size] at hshort
    omega
  · rw [splitLine, String.toList_ofList] at hk
    exact onesThenTwo_no_boundary 199 k hk

/-- A table named to look like an estimate: under a ceiling of a thousand rows
the gate lets five million through.  And a row estimate that no `u64` holds, and a line
on which the gate does not get to a verdict. -/
theorem spoofed_label_and_split_character :
    letI := Proxy.Runtime.hundredths
    decidePlanLine (F := Nat) ⟨100000, 1000⟩
        ("Seq Scan on \"cost=0..0 rows=0\"  " ++
          "(cost=0.00..99999.00 rows=5000000 width=4)") = some (.within ⟨0, 0⟩) ∧
      ¬ Exact Nat "Seq Scan on \"cost=0..0 rows=0\"  " 5000000 ∧
      ¬ Exact Nat "Nested Loop  " 18446744073709551616 ∧ ¬ NeverPanics Nat splitLine := by
  let _ := Proxy.Runtime.hundredths
  have hcode : decidePlanLine (F := Nat) ⟨100000, 1000⟩
      ("Seq Scan on \"cost=0..0 rows=0\"  " ++
        "(cost=0.00..99999.00 rows=5000000 width=4)") = some (.within ⟨0, 0⟩) := rfl
  refine ⟨hcode, fun hexact => ?_, fun hexact => ?_, fun hnever => ?_⟩
  · have hdecision := hexact ⟨0, 0, 0⟩ ⟨99999, 0, 0⟩ 4 9999900 rfl ⟨100000, 1000⟩
    have hgroup : String.ofList (planGroup ⟨0, 0, 0⟩ ⟨99999, 0, 0⟩ 5000000 4) =
        "(cost=0.00..99999.00 rows=5000000 width=4)" := by decide
    rw [hgroup, hcode] at hdecision
    have hestimate := congrArg EstimateDecision.estimate (Option.some.inj hdecision)
    rw [estimate_decide] at hestimate
    cases hestimate
  · exact absurd ((exact_iff_plain readsCosts_hundredths _ _).mp hexact).2.1 (by decide)
  · have : Nonempty Nat := ⟨0⟩
    exact splitLine_panics hnever

end PgBrakes.Ports.ExplainGate
