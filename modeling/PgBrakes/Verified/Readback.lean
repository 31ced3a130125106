import PgBrakes.Verified.Effect

/-!
# Reading back what was written

A writer emits a list of tokens, and a reader is a fallible program over the tokens
still to be read.  `Gives read xs a` says that the reader, standing in front of `xs`,
yields `a` and stops behind `xs`, whatever follows.  Readers are put together with
`do`, and the rules here follow that: what a sequence of readers gives back is what
its parts give back, one after the other.

`Takes P read` is the other direction.  It starts from a run that went well, and says of
the tokens the reader has taken off the front that they satisfy `P` with what it yielded.

## Main results

* `Gives.bind`, `Gives.map` — sequences of readers.
* `Gives.ends`, `Gives.bind_ends` — readers that take everything that is left.
* `Gives.many` — one reader for each item of a list.
* `Gives.terminated`, `Gives.fueled` — lists that end with a mark, read with a bound on
  their number taken from the tokens themselves.
* `Takes.bind`, `Takes.many` — what sequences and lists have taken.
-/

namespace PgBrakes.Verified.Readback

open PgBrakes.Verified.Effect

variable {τ ε α β : Type}

/-- The reader yields `a` from `xs` and leaves what follows. -/
def Gives (read : Eff (List τ) ε α) (xs : List τ) (a : α) : Prop :=
  ∀ rest, read (xs ++ rest) = (.ok a, rest)

theorem Gives.pure (a : α) : Gives (Pure.pure a : Eff (List τ) ε α) [] a := by
  intro rest
  rfl

theorem Gives.lift {r : Except ε α} {a : α} (h : r = .ok a) :
    Gives (Eff.lift r : Eff (List τ) ε α) [] a := by
  intro rest
  exact Eff.lift_of_ok h rest

theorem Gives.bind {read : Eff (List τ) ε α} {next : α → Eff (List τ) ε β} {xs ys : List τ}
    {a : α} {b : β} (h : Gives read xs a) (hnext : Gives (next a) ys b) :
    Gives (read >>= next) (xs ++ ys) b := by
  intro rest
  rw [List.append_assoc, Eff.bind_of_ok (h (ys ++ rest))]
  exact hnext rest

/-- A reader whose value is only wrapped up. -/
theorem Gives.map {read : Eff (List τ) ε α} {xs : List τ} {a : α} (h : Gives read xs a)
    (f : α → β) : Gives (read >>= fun x => Pure.pure (f x)) xs (f a) := by
  intro rest
  rw [Eff.bind_of_ok (h rest)]
  rfl

/-- At the end of the tokens nothing is left. -/
theorem Gives.ends {read : Eff (List τ) ε α} {xs : List τ} {a : α} (h : Gives read xs a) :
    read xs = (.ok a, []) := by
  have hread := h []
  rwa [List.append_nil] at hread

/-- A reader followed by one that takes the rest. -/
theorem Gives.bind_ends {read : Eff (List τ) ε α} {next : α → Eff (List τ) ε β}
    {xs ys : List τ} {a : α} {b : β} (h : Gives read xs a) (hnext : next a ys = (.ok b, [])) :
    (read >>= next) (xs ++ ys) = (.ok b, []) := by
  rw [Eff.bind_of_ok (h ys)]
  exact hnext

/-- A reader that repeats `read` as often as it is told reads a list of items back. -/
theorem Gives.many {read : Eff (List τ) ε α} {put : α → List τ}
    {many : Nat → Eff (List τ) ε (List α)} (hzero : many 0 = Pure.pure [])
    (hsucc : ∀ n, many (n + 1) = read >>= fun a => many n >>= fun as => Pure.pure (a :: as))
    {as : List α} (h : ∀ a ∈ as, Gives read (put a) a) :
    Gives (many as.length) (as.flatMap put) as := by
  induction as with
  | nil =>
      rw [List.length_nil, hzero]
      exact Gives.pure []
  | cons a as ih =>
      have hrest := ih fun b hb => h b (by simp [hb])
      rw [List.length_cons, hsucc, List.flatMap_cons]
      exact (h a (by simp)).bind (hrest.map (a :: ·))

/-- A reader that first asks for something to read. -/
theorem Gives.guarded {read : Eff (List τ) ε α} {xs : List τ} {a : α} (h : Gives read xs a)
    (hxs : xs ≠ []) (e : ε) :
    Gives (fun ys => if ys.isEmpty then (.error e, ys) else read ys) xs a := by
  intro rest
  have hsome : (xs ++ rest).isEmpty = false := by simp [hxs]
  simp only [hsome]
  exact h rest

/-- A loop that reads items up to the mark `stop`, with room for them and the mark. -/
theorem Gives.terminated {many : Nat → Eff (List τ) ε (List α)} {put : α → List τ}
    {stop : List τ} {as : List α} (hstop : ∀ n, Gives (many (n + 1)) stop [])
    (hitem : ∀ n, ∀ a ∈ as, ∀ xs bs, Gives (many n) xs bs →
      Gives (many (n + 1)) (put a ++ xs) (a :: bs)) :
    ∀ n, as.length < n → Gives (many n) (as.flatMap put ++ stop) as := by
  induction as with
  | nil =>
      intro n hn
      obtain ⟨n, rfl⟩ := Nat.exists_eq_add_of_lt hn
      rw [List.length_nil, Nat.zero_add, List.flatMap_nil, List.nil_append]
      exact hstop n
  | cons a as ih =>
      intro n hn
      obtain ⟨n, rfl⟩ := Nat.exists_eq_add_of_lt hn
      have hrest := ih (fun n b hb => hitem n b (by simp [hb])) ((a :: as).length + n)
        (by rw [List.length_cons]; omega)
      rw [List.flatMap_cons, List.append_assoc]
      exact hitem _ a (by simp) _ _ hrest

/-- A bound taken from the tokens is enough when the tokens written are as many. -/
theorem Gives.fueled {many : Nat → Eff (List τ) ε α} {xs : List τ} {a : α} (bound : Nat → Nat)
    {m : Nat} (h : ∀ n, m < n → Gives (many n) xs a)
    (hbound : ∀ n, xs.length ≤ n → m < bound n) :
    Gives (fun ys => many (bound ys.length) ys) xs a := by
  intro rest
  have hroom : m < bound (xs ++ rest).length :=
    hbound _ (by rw [List.length_append]; omega)
  exact h _ hroom rest

/-! ## What a reader has taken -/

/-- Whatever the reader yields, it yields from tokens at the front that satisfy `P` with
it. -/
def Takes (P : List τ → α → Prop) (read : Eff (List τ) ε α) : Prop :=
  ∀ xs a rest, read xs = (.ok a, rest) → ∃ ys, xs = ys ++ rest ∧ P ys a

namespace Takes

variable {P : List τ → α → Prop} {Q : List τ → β → Prop} {read other : Eff (List τ) ε α}

theorem pure {a : α} (h : P [] a) : Takes P (Pure.pure a : Eff (List τ) ε α) := by
  intro xs b rest hread
  cases hread
  exact ⟨[], rfl, h⟩

theorem fail (e : ε) : Takes P (Eff.fail e : Eff (List τ) ε α) := by
  intro xs a rest hread
  cases hread

theorem lift {r : Except ε α} (h : ∀ a, r = .ok a → P [] a) :
    Takes P (Eff.lift r : Eff (List τ) ε α) := by
  intro xs a rest hread
  cases hread
  exact ⟨[], rfl, h a rfl⟩

theorem mono {P' : List τ → α → Prop} (h : Takes P read) (himp : ∀ ys a, P ys a → P' ys a) :
    Takes P' read := by
  intro xs a rest hread
  obtain ⟨ys, hxs, hys⟩ := h xs a rest hread
  exact ⟨ys, hxs, himp ys a hys⟩

/-- The second reader is judged with the tokens of the first in front of its own. -/
theorem bind {next : α → Eff (List τ) ε β} (h : Takes P read)
    (hnext : ∀ a ys, P ys a → Takes (fun zs b => Q (ys ++ zs) b) (next a)) :
    Takes Q (read >>= next) := by
  intro xs b rest hread
  obtain ⟨a, mid, hfirst, hsecond⟩ := Eff.bind_ok_iff.mp hread
  obtain ⟨ys, hxs, hys⟩ := h xs a mid hfirst
  obtain ⟨zs, hmid, hzs⟩ := hnext a ys hys mid b rest hsecond
  refine ⟨ys ++ zs, ?_, hzs⟩
  rw [hxs, hmid, List.append_assoc]

theorem ite {c : Prop} [Decidable c] (h : c → Takes P read) (hother : ¬ c → Takes P other) :
    Takes P (if c then read else other) := by
  by_cases hc : c
  · rw [if_pos hc]
    exact h hc
  · rw [if_neg hc]
    exact hother hc

/-- A reader repeated as often as it is told takes the tokens of a list of that length. -/
theorem many {put : α → List τ} {many : Nat → Eff (List τ) ε (List α)}
    (hzero : many 0 = Pure.pure [])
    (hsucc : ∀ n, many (n + 1) = read >>= fun a => many n >>= fun as => Pure.pure (a :: as))
    (h : Takes (fun ys a => ys = put a) read) (n : Nat) :
    Takes (fun ys as => as.length = n ∧ ys = as.flatMap put) (many n) := by
  induction n with
  | zero =>
      rw [hzero]
      exact pure ⟨rfl, rfl⟩
  | succ n ih =>
      rw [hsucc]
      refine h.bind fun a ys hys => ih.bind fun as zs hzs => pure ?_
      rw [List.length_cons, List.flatMap_cons, List.append_nil, hys, hzs.1, hzs.2]
      exact ⟨rfl, rfl⟩

end Takes

end PgBrakes.Verified.Readback
