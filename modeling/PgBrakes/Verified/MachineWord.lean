import PgBrakes.Verified.Ratchet

/-!
# Counters of 64 bits

A program that counts in unsigned words of 64 bits adds and multiplies with saturation
where it is careful, and with the plain operators where it is not.  What a plain sum
does when it no longer fits depends on the build: a build with overflow checks stops
there, and one without them goes on with the sum modulo the word.  Numbers here are
natural numbers, with the limit of the word written out.

## Main results

* `foldl_satAdd_eq` — a saturating sum is the plain one cut off at the largest word.
* `plainSum_checked`, `plainSum_wrapping` — what the two builds make of a plain sum.
-/

namespace PgBrakes.Verified.MachineWord

open PgBrakes.Verified.Ratchet (saturated_eq)

/-- The largest word. -/
def u64Max : Nat := 2 ^ 64 - 1

/-- Addition that stays at the largest word. -/
def satAdd (a b : Nat) : Nat := min (a + b) u64Max

/-- Multiplication that stays at the largest word. -/
def satMul (a b : Nat) : Nat := min (a * b) u64Max

theorem satAdd_le (a b : Nat) : satAdd a b ≤ u64Max := Nat.min_le_right _ _

/-- What is below a saturating sum is below the plain one. -/
theorem lt_of_lt_satAdd {x a b : Nat} (h : x < satAdd a b) : x < a + b := by
  unfold satAdd at h
  omega

/-- A saturating sum that stays below a smaller cap has not saturated. -/
theorem satAdd_eq_of_le {a b cap : Nat} (h : satAdd a b ≤ cap) (hcap : cap < u64Max) :
    satAdd a b = a + b := by
  unfold satAdd at h ⊢
  omega

/-! ## Saturating sums of a list -/

theorem foldl_satAdd_eq (ns : List Nat) {acc : Nat} (h : acc ≤ u64Max) :
    ns.foldl satAdd acc = min (acc + ns.sum) u64Max := by
  have hsum := saturated_eq u64Max id acc ns h
  rw [List.map_id] at hsum
  exact hsum

theorem foldl_satAdd_le {acc : Nat} (h : acc ≤ u64Max) (ns : List Nat) :
    ns.foldl satAdd acc ≤ u64Max := by
  rw [foldl_satAdd_eq ns h]
  exact Nat.min_le_right _ _

/-- Whatever is added to it, a saturating sum is only zero when it was and
nothing was added. -/
theorem foldl_satAdd_eq_zero_iff (ns : List Nat) (acc : Nat) :
    ns.foldl satAdd acc = 0 ↔ acc = 0 ∧ ∀ n ∈ ns, n = 0 := by
  induction ns generalizing acc with
  | nil => simp
  | cons n ns ih =>
      rw [List.foldl_cons, ih, List.forall_mem_cons, ← and_assoc]
      refine and_congr_left fun _ => ?_
      unfold satAdd u64Max
      omega

/-! ## Plain sums -/

/-- Whether the build checks integer arithmetic. -/
inductive Profile where
  | checked
  | wrapping
deriving DecidableEq, Repr

/-- The plain addition.  A checked build has no answer where the sum does not fit. -/
def Profile.add : Profile → Nat → Nat → Option Nat
  | .checked, a, b => if a + b ≤ u64Max then some (a + b) else none
  | .wrapping, a, b => some ((a + b) % 2 ^ 64)

def plainSumFrom (profile : Profile) : Nat → List Nat → Option Nat
  | acc, [] => some acc
  | acc, n :: ns =>
      match profile.add acc n with
      | none => none
      | some acc' => plainSumFrom profile acc' ns

/-- The plain sum of a list of words. -/
def plainSum (profile : Profile) (ns : List Nat) : Option Nat := plainSumFrom profile 0 ns

theorem plainSumFrom_checked (ns : List Nat) {acc : Nat} (h : acc ≤ u64Max) :
    plainSumFrom .checked acc ns = if acc + ns.sum ≤ u64Max then some (acc + ns.sum) else none := by
  induction ns generalizing acc with
  | nil => simp [plainSumFrom, h]
  | cons n ns ih =>
      rw [plainSumFrom, Profile.add, List.sum_cons, ← Nat.add_assoc]
      by_cases hn : acc + n ≤ u64Max
      · rw [if_pos hn]
        exact ih hn
      · rw [if_neg hn, if_neg (by omega)]

/-- A checked build answers with the sum exactly when it fits. -/
theorem plainSum_checked (ns : List Nat) :
    plainSum .checked ns = if ns.sum ≤ u64Max then some ns.sum else none := by
  rw [plainSum, plainSumFrom_checked ns (Nat.zero_le _), Nat.zero_add]

theorem plainSumFrom_wrapping (ns : List Nat) {acc : Nat} (h : acc < 2 ^ 64) :
    plainSumFrom .wrapping acc ns = some ((acc + ns.sum) % 2 ^ 64) := by
  induction ns generalizing acc with
  | nil =>
      rw [List.sum_nil, Nat.add_zero, Nat.mod_eq_of_lt h]
      rfl
  | cons n ns ih =>
      have hstep : (acc + n) % 2 ^ 64 < 2 ^ 64 := Nat.mod_lt _ (by decide)
      calc plainSumFrom .wrapping acc (n :: ns)
          = plainSumFrom .wrapping ((acc + n) % 2 ^ 64) ns := rfl
        _ = some (((acc + n) % 2 ^ 64 + ns.sum) % 2 ^ 64) := ih hstep
        _ = some ((acc + (n :: ns).sum) % 2 ^ 64) := by
            rw [Nat.mod_add_mod, List.sum_cons, Nat.add_assoc]

/-- A build without the checks answers with the sum modulo the word. -/
theorem plainSum_wrapping (ns : List Nat) : plainSum .wrapping ns = some (ns.sum % 2 ^ 64) := by
  rw [plainSum, plainSumFrom_wrapping ns (by decide), Nat.zero_add]

/-- Where the sum fits, the two builds agree on it. -/
theorem plainSum_of_le {ns : List Nat} (h : ns.sum ≤ u64Max) (profile : Profile) :
    plainSum profile ns = some ns.sum := by
  cases profile with
  | checked => rw [plainSum_checked, if_pos h]
  | wrapping =>
      have hlt : ns.sum < 2 ^ 64 := by unfold u64Max at h; omega
      rw [plainSum_wrapping, Nat.mod_eq_of_lt hlt]

end PgBrakes.Verified.MachineWord
