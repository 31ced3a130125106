/-!
# Runs of a machine and what every step of them finds behind it

A machine takes an input and a state to a record of what happened and a new
state.  A law of the form "whatever was committed had been approved before" is
about the records of a whole run: for every record, something about the records
in front of it.  `EveryStep P` is that shape, and `run_rule` reduces it to one
step: find an invariant that ties the state to the history so far, and show that
one step keeps it and satisfies `P`.

## Main results

* `run_rule` — the invariant rule.
* `run_rule_where` — the same over the runs whose steps all meet a condition.
* `everyStep_iff_pairwise` — laws that compare two records at a time.
-/

namespace PgBrakes.Verified.History

variable {ι σ ρ : Type}

/-- The records of a run, oldest first, and the state at its end. -/
def run (step : ι → σ → ρ × σ) : List ι → σ → List ρ × σ
  | [], s => ([], s)
  | i :: is, s =>
      ((step i s).1 :: (run step is (step i s).2).1, (run step is (step i s).2).2)

/-- `P` holds of every record and the records in front of it. -/
def EveryStep (P : List ρ → ρ → Prop) (history : List ρ) : Prop :=
  ∀ before r after, history = before ++ r :: after → P before r

theorem everyStep_nil (P : List ρ → ρ → Prop) : EveryStep P [] := by
  intro before r after h
  simp at h

/-- Extending a history by one record asks for `P` of that record only. -/
theorem EveryStep.snoc {P : List ρ → ρ → Prop} {history : List ρ} {r : ρ}
    (h : EveryStep P history) (hr : P history r) : EveryStep P (history ++ [r]) := by
  intro before r' after heq
  rcases List.eq_nil_or_concat after with rfl | ⟨init, last, rfl⟩
  · have hlast := List.append_inj' heq rfl
    obtain ⟨rfl, hrr⟩ := hlast
    cases hrr
    exact hr
  · have hsplit : history ++ [r] = (before ++ r' :: init) ++ [last] := by
      simpa using heq
    exact h before r' init (List.append_inj_left' hsplit rfl)

/-- The records in front of a place obey the law as well. -/
theorem EveryStep.front {P : List ρ → ρ → Prop} {history rest : List ρ}
    (h : EveryStep P (history ++ rest)) : EveryStep P history := by
  intro before r after heq
  exact h before r (after ++ rest) (by rw [heq, List.append_assoc, List.cons_append])

/-- A law about each record alone. -/
theorem everyStep_iff_forall {p : ρ → Prop} {history : List ρ} :
    EveryStep (fun _ r => p r) history ↔ ∀ r ∈ history, p r := by
  constructor
  · intro h r hr
    obtain ⟨before, after, heq⟩ := List.append_of_mem hr
    exact h before r after heq
  · intro h before r after heq
    exact h r (by simp [heq])

/-- A law about what is seen of each record. -/
theorem EveryStep.map {ν : Type} {P : List ν → ν → Prop} {history : List ρ} {f : ρ → ν}
    (h : EveryStep (fun before r => P (before.map f) (f r)) history) :
    EveryStep P (history.map f) := by
  intro before r after heq
  obtain ⟨front, rest, rfl, rfl, hrest⟩ := List.map_eq_append_iff.mp heq
  obtain ⟨r', back, rfl, rfl, -⟩ := List.map_eq_cons_iff.mp hrest
  exact h front r' back rfl

/-- The records in front of a record are those with a smaller index. -/
theorem everyStep_iff_get {P : List ρ → ρ → Prop} {history : List ρ} :
    EveryStep P history ↔ ∀ i : Fin history.length, P (history.take i) (history.get i) := by
  constructor
  · intro h i
    refine h (history.take i) (history.get i) (history.drop (i + 1)) ?_
    rw [List.get_eq_getElem, ← List.drop_eq_getElem_cons i.isLt, List.take_append_drop]
  · rintro h before r after rfl
    have hi : before.length < (before ++ r :: after).length := by simp
    have hget : (before ++ r :: after).get ⟨before.length, hi⟩ = r := List.getElem_of_append rfl rfl
    have htake : (before ++ r :: after).take before.length = before := List.take_left
    have hstep := h ⟨before.length, hi⟩
    rw [hget] at hstep
    rwa [htake] at hstep

/-- The same records, read as a law between an earlier and a later one. -/
theorem everyStep_iff_pairwise {R : ρ → ρ → Prop} {history : List ρ} :
    EveryStep (fun before r => ∀ r' ∈ before, R r' r) history ↔ history.Pairwise R := by
  constructor
  · intro h
    induction history with
    | nil => exact List.Pairwise.nil
    | cons a rest ih =>
        refine List.Pairwise.cons ?_ (ih ?_)
        · intro b hb
          obtain ⟨l₁, l₂, rfl⟩ := List.append_of_mem hb
          exact h (a :: l₁) b l₂ rfl a (by simp)
        · intro before r after heq r' hr'
          exact h (a :: before) r after (by rw [heq, List.cons_append]) r' (by simp [hr'])
  · intro h before r after heq
    subst heq
    intro r' hr'
    exact (List.pairwise_append.mp h).2.2 r' hr' r (by simp)

/-- The invariant rule over the runs whose inputs and steps all meet a condition: an
invariant between the history and the state that one such step keeps, and under which
it satisfies `P`, gives `P` at every step. -/
theorem run_rule_where (step : ι → σ → ρ × σ) (Inv : List ρ → σ → Prop) (ok : ι → Prop)
    (met P : List ρ → ρ → Prop)
    (hstep : ∀ history s i, ok i → met history (step i s).1 → Inv history s →
      P history (step i s).1 ∧ Inv (history ++ [(step i s).1]) (step i s).2)
    {s : σ} (hinit : Inv [] s) {inputs : List ι} (hok : ∀ i ∈ inputs, ok i)
    (hmet : EveryStep met (run step inputs s).1) :
    Inv (run step inputs s).1 (run step inputs s).2 ∧ EveryStep P (run step inputs s).1 := by
  -- From any history and any state of a run.
  have hgeneral : ∀ (inputs : List ι) (history : List ρ) (s : σ), (∀ i ∈ inputs, ok i) →
      EveryStep met (history ++ (run step inputs s).1) → Inv history s → EveryStep P history →
      Inv (history ++ (run step inputs s).1) (run step inputs s).2 ∧
        EveryStep P (history ++ (run step inputs s).1) := by
    intro inputs
    induction inputs with
    | nil =>
        intro history s _ _ hinv hevery
        simpa [run] using ⟨hinv, hevery⟩
    | cons i is ih =>
        intro history s hok hmet hinv hevery
        obtain ⟨hP, hinv'⟩ := hstep history s i (hok i (by simp)) (hmet history _ _ rfl) hinv
        have hrest := ih (history ++ [(step i s).1]) (step i s).2
          (fun j hj => hok j (by simp [hj])) (by simpa [run] using hmet) hinv' (hevery.snoc hP)
        simpa [run] using hrest
  simpa using hgeneral inputs [] s hok (by simpa using hmet) hinit (everyStep_nil P)

/-- The invariant rule: an invariant between the history and the state that one
step keeps, and under which one step satisfies `P`, gives `P` at every step. -/
theorem run_rule (step : ι → σ → ρ × σ) (Inv : List ρ → σ → Prop) (ok : ι → Prop)
    (P : List ρ → ρ → Prop)
    (hstep : ∀ history s i, ok i → Inv history s →
      P history (step i s).1 ∧ Inv (history ++ [(step i s).1]) (step i s).2)
    {s : σ} (hinit : Inv [] s) {inputs : List ι} (hok : ∀ i ∈ inputs, ok i) :
    Inv (run step inputs s).1 (run step inputs s).2 ∧ EveryStep P (run step inputs s).1 :=
  run_rule_where step Inv ok (fun _ _ => True) P
    (fun history s i hi _ hinv => hstep history s i hi hinv) hinit hok fun _ _ _ _ => trivial

end PgBrakes.Verified.History
