import PgBrakes.Verified.Effect

/-!
# Programs over a part of the world

A larger engine drives a smaller one: it holds the world of the smaller one as a part of
its own, and the calls of the smaller one appear in its log under another name.  `within`
runs a program there.

## Main results

* `Traces.within` — what the program leaves in its own log, it leaves in the larger one.
* `within_of` — a run of the part, as a run of the whole.
* `Records.bind` — what a sequence leaves in the log and what it makes of the world.
* `Triple.within` — what the program makes of its world, it makes of the part.
-/

namespace PgBrakes.Verified.Effect

variable {ω ν ε ε' κ κ' α : Type}

/-- Run a program on a part of the world, its calls under another name. -/
def within (get : ω → ν) (set : ω → ν → ω) (wrap : κ' → κ) (m : Eff (Logged ν κ') ε α) :
    Eff (Logged ω κ) ε α := fun s =>
  ((m ⟨get s.world, []⟩).1,
    ⟨set s.world (m ⟨get s.world, []⟩).2.world,
      s.log ++ (m ⟨get s.world, []⟩).2.log.map wrap⟩)

section
variable {get : ω → ν} {set : ω → ν → ω} {wrap : κ' → κ} {m : Eff (Logged ν κ') ε α}

/-- What the program leaves in its own log, it leaves in the larger one. -/
theorem Traces.within {J : ν → Prop} {P : Except ε α → List κ' → Prop} (hm : Traces J P m)
    (hset : ∀ w v, get (set w v) = v) :
    Traces (fun w => J (get w)) (fun r es => ∃ fs, es = fs.map wrap ∧ P r fs)
      (Effect.within get set wrap m) := by
  intro s hs
  obtain ⟨fs, hlog, hP, hJ⟩ := hm ⟨get s.world, []⟩ hs
  rw [List.nil_append] at hlog
  refine ⟨fs.map wrap, ?_, ⟨fs, rfl, hP⟩, ?_⟩
  · show s.log ++ (m ⟨get s.world, []⟩).2.log.map wrap = s.log ++ fs.map wrap
    rw [hlog]
  · show J (get (set s.world (m ⟨get s.world, []⟩).2.world))
    rw [hset]
    exact hJ

/-- A run of the part, as a run of the whole. -/
theorem within_of {s : Logged ω κ} {r : Except ε α} {v : ν} {fs : List κ'}
    (h : m ⟨get s.world, []⟩ = (r, ⟨v, fs⟩)) :
    Effect.within get set wrap m s = (r, ⟨set s.world v, s.log ++ fs.map wrap⟩) := by
  simp only [Effect.within, h]

/-- What a program makes of its world, it makes of that part. -/
theorem Eff.Triple.within {P E : ν → Prop} {Q : α → ν → Prop}
    (hm : Eff.Triple (fun s => P s.world) m (fun a s => Q a s.world) (fun s => E s.world))
    (hset : ∀ w v, get (set w v) = v) :
    Eff.Triple (fun s => P (get s.world)) (Effect.within get set wrap m)
      (fun a s => Q a (get s.world)) (fun s => E (get s.world)) := by
  intro s hs
  have hrun := hm ⟨get s.world, []⟩ hs
  rcases hm' : m ⟨get s.world, []⟩ with ⟨r, s'⟩
  rw [hm'] at hrun
  rw [within_of hm']
  cases r with
  | ok a =>
      show Q a (get (set s.world s'.world))
      rw [hset]
      exact hrun
  | error e =>
      show E (get (set s.world s'.world))
      rw [hset]
      exact hrun

end

theorem Eff.Triple.mapError {P E : ω → Prop} {Q : α → ω → Prop} {m : Eff ω ε α} {g : ε → ε'}
    (hm : Eff.Triple P m Q E) : Eff.Triple P (Eff.mapError g m) Q E := by
  intro w hw
  have hrun := hm w hw
  rcases hm' : m w with ⟨r, w'⟩
  rw [hm'] at hrun
  rw [Eff.mapError_apply, hm']
  cases r with
  | ok a => exact hrun
  | error e => exact hrun

/-- A fact in the precondition that is not about the world. -/
theorem Eff.Triple.and_pre {p : Prop} {P E : ω → Prop} {Q : α → ω → Prop} {m : Eff ω ε α}
    (h : p → Eff.Triple P m Q E) : Eff.Triple (fun w => p ∧ P w) m Q E :=
  fun w hw => h hw.1 w hw.2

/-- A pure step that may fail, and what follows where it does not. -/
theorem Eff.Triple.lift_bind {β : Type} {P E : ω → Prop} {Q : β → ω → Prop} {r : Except ε α}
    {k : α → Eff ω ε β} (hk : ∀ a, r = .ok a → Eff.Triple P (k a) Q E) (hstop : ∀ w, P w → E w) :
    Eff.Triple P (Eff.lift r >>= k) Q E := by
  cases r with
  | ok a => exact hk a rfl
  | error e => exact hstop

/-- Renaming the errors renames the outcome and leaves the calls. -/
theorem Traces.mapError {I : ω → Prop} {P : Except ε α → List κ → Prop}
    {P' : Except ε' α → List κ → Prop} {m : Eff (Logged ω κ) ε α} {g : ε → ε'}
    (hm : Traces I P m) (h : ∀ r es, P r es → P' (r.mapError g) es) :
    Traces I P' (Eff.mapError g m) := by
  intro s hs
  obtain ⟨es, hlog, hP, hI⟩ := hm s hs
  exact ⟨es, hlog, h _ es hP, hI⟩

/-! ## The log and the world together -/

/-- From a world that satisfies `I`, the outcome and the calls satisfy `P`, and the world is
left as `J` says where the program ends well. -/
def Records (I : ω → Prop) (P : Except ε α → List κ → Prop) (J : α → ω → Prop)
    (m : Eff (Logged ω κ) ε α) : Prop :=
  ∀ s, I s.world → ∃ es, (m s).2.log = s.log ++ es ∧ P (m s).1 es ∧
    ∀ a, (m s).1 = .ok a → J a (m s).2.world

namespace Records

variable {β : Type} {I : ω → Prop} {P : Except ε α → List κ → Prop} {J : α → ω → Prop}
  {R : Except ε β → List κ → Prop} {K : β → ω → Prop} {m : Eff (Logged ω κ) ε α}

theorem mono {P' : Except ε α → List κ → Prop} (hm : Records I P J m)
    (h : ∀ r es, P r es → P' r es) : Records I P' J m := by
  intro s hs
  obtain ⟨es, hlog, hP, hJ⟩ := hm s hs
  exact ⟨es, hlog, h _ es hP, hJ⟩

theorem ite {c : Prop} [Decidable c] {n : Eff (Logged ω κ) ε α} (hm : c → Records I P J m)
    (hn : ¬ c → Records I P J n) : Records I P J (if c then m else n) := by
  by_cases h : c
  · rw [if_pos h]
    exact hm h
  · rw [if_neg h]
    exact hn h

/-- A pure step that may fail. -/
theorem lift_bind {r : Except ε α} {k : α → Eff (Logged ω κ) ε β} (hstop : ∀ e, R (.error e) [])
    (hk : ∀ a, r = .ok a → Records I R K (k a)) : Records I R K (Eff.lift r >>= k) := by
  cases r with
  | error e => exact fun s hs => ⟨[], by simp [Eff.bind_apply], hstop e, nofun⟩
  | ok a => exact hk a rfl

/-- The calls are described apart from what becomes of the world. -/
theorem of_traces (hlog : Traces (fun _ => True) P m)
    (hworld : Eff.Triple (fun s => I s.world) m (fun a s => J a s.world) (fun _ => True)) :
    Records I P J m := by
  intro s hs
  obtain ⟨es, hes, hP, -⟩ := hlog s trivial
  refine ⟨es, hes, hP, fun a ha => ?_⟩
  have hrun := hworld s hs
  rcases hm : m s with ⟨r, s'⟩
  rw [hm] at hrun ha
  subst ha
  exact hrun

/-- The world keeps `I`. -/
theorem of_keeps (hlog : Traces (fun _ => True) P m) (hworld : Eff.Keeps (fun s => I s.world) m) :
    Records I P (fun _ => I) m :=
  of_traces hlog (hworld.self.stops fun _ _ => trivial)

/-- Nothing is said about the world. -/
theorem of_log (hlog : Traces (fun _ => True) P m) : Records I P (fun _ _ => True) m := by
  intro s hs
  obtain ⟨es, hes, hP, -⟩ := hlog s trivial
  exact ⟨es, hes, hP, fun _ _ => trivial⟩

theorem bind {k : α → Eff (Logged ω κ) ε β} (hm : Records I P J m)
    (hstop : ∀ e es, P (.error e) es → R (.error e) es)
    (hk : ∀ a es, P (.ok a) es → Records (J a) (fun r fs => R r (es ++ fs)) K (k a)) :
    Records I R K (m >>= k) := by
  intro s hs
  obtain ⟨es, hlog, hP, hJ⟩ := hm s hs
  rw [Eff.bind_apply]
  rcases hrun : m s with ⟨r, s'⟩
  rw [hrun] at hlog hP hJ
  cases r with
  | error e => exact ⟨es, hlog, hstop e es hP, nofun⟩
  | ok a =>
      obtain ⟨fs, hlog', hR, hK⟩ := hk a es hP s' (hJ a rfl)
      refine ⟨es ++ fs, ?_, hR, hK⟩
      rw [hlog', hlog, List.append_assoc]

end Records

end PgBrakes.Verified.Effect
