/-!
# Fallible programs over a world, and the log of the calls they make

An engine that drives a connection is a program that may fail at every step
and that leaves the world behind in either case: an error does not undo what
the connection already did.  `Eff ω ε α` is that program, a function from the
world to a result *and* a world.  It is a monad, so an engine is written with
`do` and reads like the code it ports.

A claim about such an engine is usually about the calls it made: a commit
that happened, a rollback that did not.  `Logged ω κ` is a world with the
list of the calls performed so far, `perform` makes one call and records it
with its outcome, and the log only ever grows at its end.

## Main results

* `bind_ok_iff` — how a sequence of two programs succeeds.  It is the rule every
  inversion of an engine is made of.
* `Appends` and its rules — a program built from calls that satisfy `P` only
  appends calls that satisfy `P`, whatever the connection answers and wherever
  the program stops.
* `Traces` and its rules — what the calls of a program are as a whole.
* `Triple` and its rules — pre- and postconditions, with one for the runs that stop.
* `Keeps` and its rules — invariants of a program.
-/

namespace PgBrakes.Verified.Effect

/-- A fallible program over the world `ω`.  It hands the world back whether it
succeeds or fails. -/
def Eff (ω ε α : Type) : Type := ω → Except ε α × ω

namespace Eff

variable {ω ε ε' κ α β : Type}

/-- Run `m` and continue with its value; an error ends the program. -/
def andThen (m : Eff ω ε α) (f : α → Eff ω ε β) : Eff ω ε β := fun w =>
  match m w with
  | (.ok a, w') => f a w'
  | (.error e, w') => (.error e, w')

instance : Monad (Eff ω ε) where
  pure a := fun w => (.ok a, w)
  bind := andThen

/-- Stop with an error. -/
def fail (e : ε) : Eff ω ε α := fun w => (.error e, w)

/-- A pure computation that may fail, as a program that leaves the world
alone. -/
def lift (r : Except ε α) : Eff ω ε α := fun w => (r, w)

/-- A question to the world that always has an answer. -/
def ask (act : ω → α × ω) : Eff ω ε α := fun w => (.ok (act w).1, (act w).2)

/-- Stop with the error a check found, if it found one. -/
def refuse (g : α → ε) : Option α → Eff ω ε Unit
  | none => pure ()
  | some a => fail (g a)

/-- Run `m` and hand its outcome on as a value: the program continues also
when `m` failed. -/
def attempt (m : Eff ω ε α) : Eff ω ε' (Except ε α) := fun w =>
  ((.ok (m w).1 : Except ε' (Except ε α)), (m w).2)

/-- Rename the errors of a program (the source's `map_err`, or `?` through a
`From` instance). -/
def mapError (g : ε → ε') (m : Eff ω ε α) : Eff ω ε' α := fun w =>
  ((m w).1.mapError g, (m w).2)

@[simp] theorem pure_apply (a : α) (w : ω) :
    (pure a : Eff ω ε α) w = (.ok a, w) := rfl

@[simp] theorem fail_apply (e : ε) (w : ω) :
    (fail e : Eff ω ε α) w = (.error e, w) := rfl

@[simp] theorem lift_apply (r : Except ε α) (w : ω) :
    (lift r : Eff ω ε α) w = (r, w) := rfl

@[simp] theorem ask_apply (act : ω → α × ω) (w : ω) :
    (ask act : Eff ω ε α) w = (.ok (act w).1, (act w).2) := rfl

theorem ask_bind_apply (act : ω → α × ω) (f : α → Eff ω ε β) (w : ω) :
    (ask act >>= f) w = f (act w).1 (act w).2 := rfl

theorem lift_of_ok {r : Except ε α} {a : α} (h : r = .ok a) (w : ω) :
    (lift r : Eff ω ε α) w = (.ok a, w) := by
  rw [lift_apply, h]

@[simp] theorem attempt_apply (m : Eff ω ε α) (w : ω) :
    (attempt m : Eff ω ε' (Except ε α)) w = (.ok (m w).1, (m w).2) := rfl

theorem attempt_of {m : Eff ω ε α} {w w' : ω} {r : Except ε α} (h : m w = (r, w')) :
    (attempt m : Eff ω ε' (Except ε α)) w = (.ok r, w') := by
  rw [attempt_apply, h]

@[simp] theorem mapError_apply (g : ε → ε') (m : Eff ω ε α) (w : ω) :
    mapError g m w = ((m w).1.mapError g, (m w).2) := rfl

theorem bind_apply (m : Eff ω ε α) (f : α → Eff ω ε β) (w : ω) :
    (m >>= f) w = match m w with
      | (.ok a, w') => f a w'
      | (.error e, w') => (.error e, w') := rfl

theorem bind_of_ok {m : Eff ω ε α} {f : α → Eff ω ε β} {w w' : ω} {a : α}
    (h : m w = (.ok a, w')) : (m >>= f) w = f a w' := by
  rw [bind_apply, h]

theorem bind_of_error {m : Eff ω ε α} {f : α → Eff ω ε β} {w w' : ω} {e : ε}
    (h : m w = (.error e, w')) : (m >>= f) w = (.error e, w') := by
  rw [bind_apply, h]

@[simp] theorem pure_bind_apply (a : α) (f : α → Eff ω ε β) (w : ω) :
    ((pure a : Eff ω ε α) >>= f) w = f a w := rfl

@[simp] theorem fail_bind_apply (e : ε) (f : α → Eff ω ε β) (w : ω) :
    ((fail e : Eff ω ε α) >>= f) w = (.error e, w) := rfl

@[simp] theorem refuse_none_bind_apply (g : κ → ε) (f : Unit → Eff ω ε β) (w : ω) :
    (refuse g none >>= f) w = f () w := rfl

@[simp] theorem refuse_some_bind_apply (g : κ → ε) (a : κ) (f : Unit → Eff ω ε β) (w : ω) :
    (refuse g (some a) >>= f) w = (.error (g a), w) := rfl

/-- A check is passed exactly when it found nothing. -/
theorem refuse_bind_ok_iff {g : κ → ε} {o : Option κ} {f : Unit → Eff ω ε β} {w w' : ω} {b : β} :
    (refuse g o >>= f) w = (.ok b, w') ↔ o = none ∧ f () w = (.ok b, w') := by
  cases o with
  | none => simp
  | some a => simp

/-- A sequence succeeds exactly when both parts do. -/
theorem bind_ok_iff {m : Eff ω ε α} {f : α → Eff ω ε β} {w w'' : ω} {b : β} :
    (m >>= f) w = (.ok b, w'') ↔
      ∃ a w', m w = (.ok a, w') ∧ f a w' = (.ok b, w'') := by
  rw [bind_apply]
  rcases hm : m w with ⟨r, w'⟩
  cases r with
  | ok a =>
      constructor
      · intro h
        exact ⟨a, w', rfl, h⟩
      · rintro ⟨a', w₁, h₁, h₂⟩
        cases h₁
        exact h₂
  | error e => simp

/-- Whatever value the program ends with satisfies `Q`. -/
def Yields (Q : α → Prop) (m : Eff ω ε α) : Prop := ∀ w a, (m w).1 = .ok a → Q a

theorem Yields.pure {Q : α → Prop} {a : α} (h : Q a) : Yields Q (Pure.pure a : Eff ω ε α) := by
  intro w b hb
  cases hb
  exact h

theorem Yields.fail {Q : α → Prop} (e : ε) : Yields Q (Eff.fail e : Eff ω ε α) := by
  intro w b hb
  cases hb

/-- The value of a sequence is the value of its second part. -/
theorem Yields.bind {Q : β → Prop} {m : Eff ω ε α} {f : α → Eff ω ε β}
    (h : ∀ a, Yields Q (f a)) : Yields Q (m >>= f) := by
  intro w b hb
  rw [bind_apply] at hb
  rcases hm : m w with ⟨r, w'⟩
  rw [hm] at hb
  cases r with
  | ok a => exact h a w' b hb
  | error e => cases hb

theorem Yields.ite {Q : α → Prop} {c : Prop} [Decidable c] {m n : Eff ω ε α}
    (hm : c → Yields Q m) (hn : ¬ c → Yields Q n) : Yields Q (if c then m else n) := by
  by_cases h : c
  · rw [if_pos h]
    exact hm h
  · rw [if_neg h]
    exact hn h

/-- From a world that satisfies `P` the program ends well in one that satisfies `Q`,
or stops in one that satisfies `E`. -/
def Triple (P : ω → Prop) (m : Eff ω ε α) (Q : α → ω → Prop) (E : ω → Prop) : Prop :=
  ∀ w, P w → match m w with
    | (.ok a, w') => Q a w'
    | (.error _, w') => E w'

namespace Triple

variable {P : ω → Prop} {m n : Eff ω ε α} {Q : α → ω → Prop} {R : β → ω → Prop} {E : ω → Prop}

theorem pure {a : α} (h : ∀ w, P w → Q a w) : Triple P (Pure.pure a : Eff ω ε α) Q E := h

theorem fail {e : ε} (h : ∀ w, P w → E w) : Triple P (Eff.fail e : Eff ω ε α) Q E := h

theorem lift {r : Except ε α} (h : ∀ a w, P w → Q a w) (hstop : ∀ w, P w → E w) :
    Triple P (Eff.lift r : Eff ω ε α) Q E := by
  intro w hw
  cases r with
  | ok a => exact h a w hw
  | error e => exact hstop w hw

theorem exists_pre {ι : Sort _} {P : ι → ω → Prop} (h : ∀ i, Triple (P i) m Q E) :
    Triple (fun w => ∃ i, P i w) m Q E := by
  rintro w ⟨i, hw⟩
  exact h i w hw

theorem conseq {A : ω → Prop} {B : α → ω → Prop} (hm : Triple A m B E) (hpre : ∀ w, P w → A w)
    (hpost : ∀ a w, B a w → Q a w) : Triple P m Q E := by
  intro w hw
  have hrun := hm w (hpre w hw)
  rcases hm' : m w with ⟨r, w'⟩
  rw [hm'] at hrun
  cases r with
  | ok a => exact hpost a w' hrun
  | error e => exact hrun

theorem stops {E' : ω → Prop} (hm : Triple P m Q E) (h : ∀ w, E w → E' w) : Triple P m Q E' := by
  intro w hw
  have hrun := hm w hw
  rcases hm' : m w with ⟨r, w'⟩
  rw [hm'] at hrun
  cases r with
  | ok a => exact hrun
  | error e => exact h w' hrun

/-- A sequence: what holds in between is what the second part starts from. -/
theorem bind {k : α → Eff ω ε β} (hm : Triple P m Q E) (hk : ∀ a, Triple (Q a) (k a) R E) :
    Triple P (m >>= k) R E := by
  intro w hw
  have hrun := hm w hw
  rw [bind_apply]
  rcases hm' : m w with ⟨r, w'⟩
  rw [hm'] at hrun
  cases r with
  | ok a => exact hk a w' hrun
  | error e => exact hrun

theorem ite {c : Prop} [Decidable c] (hm : c → Triple P m Q E) (hn : ¬ c → Triple P n Q E) :
    Triple P (if c then m else n) Q E := by
  by_cases h : c
  · rw [if_pos h]
    exact hm h
  · rw [if_neg h]
    exact hn h

/-- A program whose outcome is handed on: what follows starts from either end of it. -/
theorem attempt_bind {k : Except ε α → Eff ω ε' β} {E' : ω → Prop} (hm : Triple P m Q E)
    (hok : ∀ a, Triple (Q a) (k (.ok a)) R E') (herror : ∀ e, Triple E (k (.error e)) R E') :
    Triple P (attempt m >>= k) R E' := by
  intro w hw
  have hrun := hm w hw
  rcases hm' : m w with ⟨r, w'⟩
  rw [hm'] at hrun
  rw [bind_of_ok (attempt_of hm')]
  cases r with
  | ok a => exact hok a w' hrun
  | error e => exact herror e w' hrun

/-- What a run that ended well leaves behind. -/
theorem of_ok (hm : Triple P m Q E) {w w' : ω} {a : α} (hw : P w) (hrun : m w = (.ok a, w')) :
    Q a w' := by
  have h := hm w hw
  rw [hrun] at h
  exact h

end Triple

/-- The program keeps `J`, however it ends. -/
def Keeps (J : ω → Prop) (m : Eff ω ε α) : Prop := ∀ w, J w → J (m w).2

namespace Keeps

variable {J : ω → Prop} {m n : Eff ω ε α}

theorem pure (a : α) : Keeps J (Pure.pure a : Eff ω ε α) := fun _ hw => hw

theorem fail (e : ε) : Keeps J (Eff.fail e : Eff ω ε α) := fun _ hw => hw

theorem lift (r : Except ε α) : Keeps J (Eff.lift r : Eff ω ε α) := fun _ hw => hw

theorem bind {k : α → Eff ω ε β} (hm : Keeps J m) (hk : ∀ a, Keeps J (k a)) :
    Keeps J (m >>= k) := by
  intro w hw
  have hrun := hm w hw
  rw [bind_apply]
  rcases hm' : m w with ⟨r, w'⟩
  rw [hm'] at hrun
  cases r with
  | ok a => exact hk a w' hrun
  | error e => exact hrun

theorem ite {c : Prop} [Decidable c] (hm : Keeps J m) (hn : Keeps J n) :
    Keeps J (if c then m else n) := by
  by_cases h : c
  · rw [if_pos h]
    exact hm
  · rw [if_neg h]
    exact hn

theorem triple_of {P : ω → Prop} (h : ∀ w, P w → J (m w).2) : Triple P m (fun _ => J) J := by
  intro w hw
  have hrun := h w hw
  rcases hm : m w with ⟨r, w'⟩
  rw [hm] at hrun
  cases r with
  | ok a => exact hrun
  | error e => exact hrun

/-- An invariant, as a triple. -/
theorem triple {P E : ω → Prop} (h : Keeps J m) (hpre : ∀ w, P w → J w) (hstop : ∀ w, J w → E w) :
    Triple P m (fun _ => J) E := by
  intro w hw
  have hrun := h w (hpre w hw)
  rcases hm : m w with ⟨r, w'⟩
  rw [hm] at hrun
  cases r with
  | ok a => exact hrun
  | error e => exact hstop w' hrun

theorem self (h : Keeps J m) : Triple J m (fun _ => J) J := h.triple (fun _ hw => hw) fun _ hw => hw

/-- However a run ends, the invariant holds where it does. -/
theorem of_triple {P : ω → Prop} (h : Triple P m (fun _ => J) J) {w : ω} (hw : P w) :
    J (m w).2 := by
  have hrun := h w hw
  rcases hm : m w with ⟨r, w'⟩
  rw [hm] at hrun
  cases r with
  | ok a => exact hrun
  | error e => exact hrun

end Keeps

end Eff

/-! ## The log of calls -/

/-- A world together with the calls performed on it, oldest first. -/
structure Logged (ω κ : Type) where
  world : ω
  log : List κ

section Calls

variable {ω ε κ α β : Type}

/-- Perform a fallible call on the world and record it with its outcome. -/
def perform (act : Eff ω ε α) (ev : Except ε α → κ) :
    Eff (Logged ω κ) ε α := fun s =>
  ((act s.world).1, ⟨(act s.world).2, s.log ++ [ev (act s.world).1]⟩)

/-- Perform a call that cannot fail and record its answer. -/
def consult (act : ω → α × ω) (ev : α → κ) : Eff (Logged ω κ) ε α := fun s =>
  (.ok (act s.world).1, ⟨(act s.world).2, s.log ++ [ev (act s.world).1]⟩)

/-- Change the world without a call to record. -/
def disturb (act : ω → ω) : Eff (Logged ω κ) ε Unit := fun s =>
  (.ok (), ⟨act s.world, s.log⟩)

@[simp] theorem disturb_apply (act : ω → ω) (s : Logged ω κ) :
    (disturb act : Eff (Logged ω κ) ε Unit) s = (.ok (), ⟨act s.world, s.log⟩) := rfl

/-- A recorded call does to the world what the call does. -/
theorem Eff.Triple.perform {P E : ω → Prop} {Q : α → ω → Prop} {act : Eff ω ε α}
    {ev : Except ε α → κ} (h : Eff.Triple P act Q E) :
    Eff.Triple (fun s => P s.world) (Effect.perform act ev) (fun a s => Q a s.world)
      (fun s => E s.world) := by
  intro s hs
  have hrun := h s.world hs
  unfold Effect.perform
  rcases hact : act s.world with ⟨r, w'⟩
  rw [hact] at hrun
  cases r with
  | ok a => exact hrun
  | error e => exact hrun

theorem Eff.Triple.consult {P E : ω → Prop} {Q : α → ω → Prop} {act : ω → α × ω} {ev : α → κ}
    (h : ∀ w, P w → Q (act w).1 (act w).2) :
    Eff.Triple (fun s => P s.world) (Effect.consult act ev : Eff (Logged ω κ) ε α)
      (fun a s => Q a s.world) (fun s => E s.world) := by
  intro s hs
  exact h s.world hs

/-- The program only ever appends calls that satisfy `P` to the log. -/
def Appends (P : κ → Prop) (m : Eff (Logged ω κ) ε α) : Prop :=
  ∀ s, ∃ es, (m s).2.log = s.log ++ es ∧ ∀ e ∈ es, P e

namespace Appends

variable {P : κ → Prop}

theorem pure (a : α) : Appends P (Pure.pure a : Eff (Logged ω κ) ε α) :=
  fun s => ⟨[], by simp, by simp⟩

theorem lift (r : Except ε α) : Appends P (Eff.lift r : Eff (Logged ω κ) ε α) :=
  fun s => ⟨[], by simp, by simp⟩

theorem disturb (act : ω → ω) :
    Appends P (Effect.disturb act : Eff (Logged ω κ) ε Unit) :=
  fun s => ⟨[], by simp [Effect.disturb], by simp⟩

theorem perform {act : Eff ω ε α} {ev : Except ε α → κ} (h : ∀ r, P (ev r)) :
    Appends P (Effect.perform act ev) :=
  fun s => ⟨[ev (act s.world).1], rfl, by simpa using h _⟩

theorem consult {act : ω → α × ω} {ev : α → κ} (h : ∀ a, P (ev a)) :
    Appends P (Effect.consult act ev : Eff (Logged ω κ) ε α) :=
  fun s => ⟨[ev (act s.world).1], rfl, by simpa using h _⟩

theorem bind {m : Eff (Logged ω κ) ε α} {f : α → Eff (Logged ω κ) ε β}
    (hm : Appends P m) (hf : ∀ a, Appends P (f a)) : Appends P (m >>= f) := by
  intro s
  obtain ⟨es, hes, hP⟩ := hm s
  rw [Eff.bind_apply]
  rcases hr : m s with ⟨r, s'⟩
  rw [hr] at hes
  cases r with
  | error e => exact ⟨es, hes, hP⟩
  | ok a =>
      obtain ⟨fs, hfs, hQ⟩ := hf a s'
      refine ⟨es ++ fs, ?_, ?_⟩
      · rw [← List.append_assoc, ← hes]
        exact hfs
      · intro e he
        rcases List.mem_append.mp he with h | h
        · exact hP e h
        · exact hQ e h

theorem ite {c : Prop} [Decidable c] {m n : Eff (Logged ω κ) ε α}
    (hm : Appends P m) (hn : Appends P n) : Appends P (if c then m else n) := by
  by_cases h : c
  · rw [if_pos h]
    exact hm
  · rw [if_neg h]
    exact hn

/-- The calls since a known log. -/
theorem iff_keeps {m : Eff (Logged ω κ) ε α} :
    Appends P m ↔
      ∀ log, Eff.Keeps (fun s => ∃ es, s.log = log ++ es ∧ ∀ e ∈ es, P e) m := by
  constructor
  · rintro hm log s ⟨es, hes, hP⟩
    obtain ⟨fs, hfs, hQ⟩ := hm s
    refine ⟨es ++ fs, ?_, List.forall_mem_append.mpr ⟨hP, hQ⟩⟩
    rw [hfs, hes, List.append_assoc]
  · intro hm s
    exact hm s.log s ⟨[], by simp, by simp⟩

/-- What the log gained when a run ended in a known state. -/
theorem of_run {m : Eff (Logged ω κ) ε α} (h : Appends P m)
    {s s' : Logged ω κ} {r : Except ε α} (hr : m s = (r, s')) :
    ∃ es, s'.log = s.log ++ es ∧ ∀ e ∈ es, P e := by
  obtain ⟨es, hes, hP⟩ := h s
  rw [hr] at hes
  exact ⟨es, hes, hP⟩

end Appends

/-! ## What a program leaves in the log

`Traces I P m` describes the outcome of `m` and its calls as a whole: together they
satisfy `P`, wherever the program stops, and `I` holds of the world before and after.
A sequence is described from the front: after a call `e`, what follows has to satisfy
`P` with `e` put in front of its calls. -/

/-- The outcome and the calls of the program satisfy `P`, and it keeps `I`. -/
def Traces (I : ω → Prop) (P : Except ε α → List κ → Prop) (m : Eff (Logged ω κ) ε α) : Prop :=
  ∀ s, I s.world → ∃ es, (m s).2.log = s.log ++ es ∧ P (m s).1 es ∧ I (m s).2.world

/-- The program makes one call, which satisfies `E`, or stops without a call. -/
def Emits (I : ω → Prop) (E : κ → Prop) (m : Eff (Logged ω κ) ε α) : Prop :=
  ∀ s, I s.world → (∃ err, m s = (.error err, s)) ∨
    ∃ a e w, m s = (.ok a, ⟨w, s.log ++ [e]⟩) ∧ E e ∧ I w

/-- The program makes no call, and what it finds out satisfies `Q`. -/
def Finds (I : ω → Prop) (Q : α → Prop) (m : Eff (Logged ω κ) ε α) : Prop :=
  ∀ s, I s.world → ∃ a w, m s = (.ok a, ⟨w, s.log⟩) ∧ Q a ∧ I w

namespace Traces

variable {I : ω → Prop} {P P' : Except ε α → List κ → Prop} {R : Except ε β → List κ → Prop}
  {E : κ → Prop}

theorem pure {a : α} (h : P (.ok a) []) : Traces I P (Pure.pure a : Eff (Logged ω κ) ε α) :=
  fun s hs => ⟨[], by simp, h, hs⟩

theorem fail {e : ε} (h : P (.error e) []) : Traces I P (Eff.fail e : Eff (Logged ω κ) ε α) :=
  fun s hs => ⟨[], by simp, h, hs⟩

theorem lift {r : Except ε α} (h : P r []) : Traces I P (Eff.lift r : Eff (Logged ω κ) ε α) :=
  fun s hs => ⟨[], by simp, h, hs⟩

theorem mono {m : Eff (Logged ω κ) ε α} (hm : Traces I P m) (h : ∀ r es, P r es → P' r es) :
    Traces I P' m := by
  intro s hs
  obtain ⟨es, hlog, hP, hI⟩ := hm s hs
  exact ⟨es, hlog, h _ es hP, hI⟩

/-- A single call. -/
theorem emit {m : Eff (Logged ω κ) ε α} (hm : Emits I E m) (hstop : ∀ err, P (.error err) [])
    (h : ∀ a e, E e → P (.ok a) [e]) : Traces I P m := by
  intro s hs
  rcases hm s hs with ⟨err, hrun⟩ | ⟨a, e, w, hrun, he, hw⟩
  · rw [hrun]
    exact ⟨[], by simp, hstop err, hs⟩
  · rw [hrun]
    exact ⟨[e], rfl, h a e he, hw⟩

/-- A call, and then the rest with the call put in front. -/
theorem emit_bind {m : Eff (Logged ω κ) ε α} {k : α → Eff (Logged ω κ) ε β}
    (hm : Emits I E m) (hstop : ∀ err, R (.error err) [])
    (hk : ∀ a e, E e → Traces I (fun r es => R r (e :: es)) (k a)) : Traces I R (m >>= k) := by
  intro s hs
  rcases hm s hs with ⟨err, hrun⟩ | ⟨a, e, w, hrun, he, hw⟩
  · rw [Eff.bind_of_error hrun]
    exact ⟨[], by simp, hstop err, hs⟩
  · rw [Eff.bind_of_ok hrun]
    obtain ⟨es, hlog, hP, hI⟩ := hk a e he ⟨w, s.log ++ [e]⟩ hw
    refine ⟨e :: es, ?_, hP, hI⟩
    rw [hlog, List.append_assoc]
    rfl

/-- A question, and then the rest. -/
theorem find_bind {m : Eff (Logged ω κ) ε α} {k : α → Eff (Logged ω κ) ε β} {Q : α → Prop}
    (hm : Finds I Q m) (hk : ∀ a, Q a → Traces I R (k a)) : Traces I R (m >>= k) := by
  intro s hs
  obtain ⟨a, w, hrun, ha, hw⟩ := hm s hs
  rw [Eff.bind_of_ok hrun]
  exact hk a ha ⟨w, s.log⟩ hw

/-- Two programs in a row: the calls of the first, then those of the second. -/
theorem bind {m : Eff (Logged ω κ) ε α} {k : α → Eff (Logged ω κ) ε β} (hm : Traces I P m)
    (hstop : ∀ e es, P (.error e) es → R (.error e) es)
    (hk : ∀ a es, P (.ok a) es → Traces I (fun r fs => R r (es ++ fs)) (k a)) :
    Traces I R (m >>= k) := by
  intro s hs
  obtain ⟨es, hlog, hP, hI⟩ := hm s hs
  rw [Eff.bind_apply]
  rcases hrun : m s with ⟨r, s'⟩
  rw [hrun] at hlog hI hP
  cases r with
  | error e => exact ⟨es, hlog, hstop e es hP, hI⟩
  | ok a =>
      obtain ⟨fs, hlog', hR, hI'⟩ := hk a es hP s' hI
      refine ⟨es ++ fs, ?_, hR, hI'⟩
      rw [hlog', hlog, List.append_assoc]

/-- Calls that each satisfy `E`. -/
theorem of_appends {m : Eff (Logged ω κ) ε α} (hm : Appends E m) :
    Traces (fun _ => True) (fun _ es => ∀ e ∈ es, E e) m := by
  intro s _
  obtain ⟨es, hlog, hes⟩ := hm s
  exact ⟨es, hlog, hes, trivial⟩

theorem ite {c : Prop} [Decidable c] {m n : Eff (Logged ω κ) ε α}
    (hm : c → Traces I P m) (hn : ¬ c → Traces I P n) : Traces I P (if c then m else n) := by
  by_cases h : c
  · rw [if_pos h]
    exact hm h
  · rw [if_neg h]
    exact hn h

end Traces

/-- A single call, as a program that only makes calls of its kind. -/
theorem Emits.appends {I : ω → Prop} {E P : κ → Prop} {m : Eff (Logged ω κ) ε α}
    (hm : Emits I E m) (hI : ∀ w, I w) (h : ∀ e, E e → P e) : Appends P m := by
  intro s
  rcases hm s (hI _) with ⟨err, hrun⟩ | ⟨a, e, w, hrun, he, -⟩
  · rw [hrun]
    exact ⟨[], by simp, by simp⟩
  · rw [hrun]
    exact ⟨[e], rfl, by simpa using h e he⟩

/-- A call whose answer is known, as one step of a run. -/
theorem perform_of {act : Eff ω ε α} {ev : Except ε α → κ} {s : Logged ω κ}
    {r : Except ε α} {w' : ω} (h : act s.world = (r, w')) :
    perform act ev s = (r, ⟨w', s.log ++ [ev r]⟩) := by
  simp only [perform, h]

/-- A recorded call, inverted: the outcome is the connection's answer and the
log ends with the call. -/
theorem perform_eq_iff {act : Eff ω ε α} {ev : Except ε α → κ}
    {s s' : Logged ω κ} {r : Except ε α} :
    perform act ev s = (r, s') ↔
      (act s.world).1 = r ∧ s' = ⟨(act s.world).2, s.log ++ [ev r]⟩ := by
  constructor
  · intro h
    have h1 : (act s.world).1 = r := congrArg Prod.fst h
    refine ⟨h1, ?_⟩
    rw [← h1]
    exact (congrArg Prod.snd h).symm
  · rintro ⟨rfl, rfl⟩
    rfl

end Calls

end PgBrakes.Verified.Effect
