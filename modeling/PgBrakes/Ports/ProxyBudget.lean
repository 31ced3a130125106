import Mathlib.Algebra.Group.Nat.Defs
import PgBrakes.Verified.MachineWord

/-!
# The two meters of the proxy

A single statement is held to a number of rows and bytes by a budget; the reads of
a session are held to a volume per window by a meter that starts over when the
window has passed.  The counters are 64-bit and saturate.

## Main results

* `Budget.Bounding.charge` — a row the budget admits is counted exactly.
* `WindowMeter.charge_within` — a charge leaves the window within its caps whether it
  is admitted or refused.
-/

namespace PgBrakes.Ports.Proxy

open PgBrakes.Verified.MachineWord

/-- The volume a role may read per window. -/
structure WindowBudget where
  windowSecs : Nat
  maxBytes : Nat
  maxRows : Nat

/-- The caps of a role on one statement, and on a window. -/
structure RoleBudget where
  maxBytes : Nat
  maxRows : Nat
  perWindow : WindowBudget

/-! ## One statement -/

inductive Cap where
  | bytes
  | rows
deriving DecidableEq

def Cap.code : Cap → String
  | .bytes => "byte_budget_exceeded"
  | .rows => "row_budget_exceeded"

/-- The outcome of charging a row; the totals are those after an admitted row, and
those before a refused one. -/
inductive BudgetOutcome where
  | within (bytes rows : Nat)
  | exceeded (cap : Cap) (bytes rows : Nat)
deriving DecidableEq

structure Budget where
  maxBytes : Nat
  maxRows : Nat
  usedBytes : Nat
  usedRows : Nat

def Budget.forRole (role : RoleBudget) : Budget := ⟨role.maxBytes, role.maxRows, 0, 0⟩

/-- Charge one row.  A refused row is not counted. -/
def Budget.chargeRow (b : Budget) (rowBytes : Nat) : BudgetOutcome × Budget :=
  if satAdd b.usedRows 1 > b.maxRows then
    (.exceeded .rows b.usedBytes b.usedRows, b)
  else if satAdd b.usedBytes rowBytes > b.maxBytes then
    (.exceeded .bytes b.usedBytes b.usedRows, b)
  else
    (.within (satAdd b.usedBytes rowBytes) (satAdd b.usedRows 1),
      { b with
        usedRows := satAdd b.usedRows 1
        usedBytes := satAdd b.usedBytes rowBytes })

/-! ## A window -/

inductive WindowCap where
  | bytes
  | rows
deriving DecidableEq

def WindowCap.code : WindowCap → String
  | .bytes => "window_byte_budget_exceeded"
  | .rows => "window_row_budget_exceeded"

inductive WindowOutcome where
  | within (bytes rows : Nat)
  | exceeded (cap : WindowCap) (bytes rows : Nat)
deriving DecidableEq

structure WindowMeter where
  maxBytes : Nat
  maxRows : Nat
  windowMs : Nat
  anchorMs : Option Nat
  usedBytes : Nat
  usedRows : Nat

def WindowMeter.forWindow (budget : WindowBudget) : WindowMeter :=
  ⟨budget.maxBytes, budget.maxRows, satMul budget.windowSecs 1000, none, 0, 0⟩

/-- Start over where the window has passed, or where there is none yet. -/
def WindowMeter.roll (w : WindowMeter) (nowMs : Nat) : WindowMeter :=
  match w.anchorMs with
  | none => { w with anchorMs := some nowMs, usedBytes := 0, usedRows := 0 }
  | some anchor =>
      if nowMs - anchor ≥ w.windowMs then
        { w with anchorMs := some nowMs, usedBytes := 0, usedRows := 0 }
      else w

/-- Charge a volume at a time.  A refused charge is not counted. -/
def WindowMeter.charge (w : WindowMeter) (bytes rows nowMs : Nat) : WindowOutcome × WindowMeter :=
  let w := w.roll nowMs
  if satAdd w.usedRows rows > w.maxRows then
    (.exceeded .rows w.usedBytes w.usedRows, w)
  else if satAdd w.usedBytes bytes > w.maxBytes then
    (.exceeded .bytes w.usedBytes w.usedRows, w)
  else
    (.within (satAdd w.usedBytes bytes) (satAdd w.usedRows rows),
      { w with
        usedRows := satAdd w.usedRows rows
        usedBytes := satAdd w.usedBytes bytes })

/-! ## What a charge does -/

/-- An admitted row keeps the totals within the caps; they are what the outcome
says. -/
theorem Budget.chargeRow_within {b b' : Budget} {rowBytes bytes rows : Nat}
    (h : b.chargeRow rowBytes = (.within bytes rows, b')) :
    satAdd b.usedRows 1 ≤ b.maxRows ∧ satAdd b.usedBytes rowBytes ≤ b.maxBytes ∧
      b' = ⟨b.maxBytes, b.maxRows, satAdd b.usedBytes rowBytes,
        satAdd b.usedRows 1⟩ := by
  unfold Budget.chargeRow at h
  split at h
  · cases h
  · split at h
    · cases h
    · cases h
      refine ⟨?_, ?_, rfl⟩ <;> omega

/-- A budget that bounds: its caps are below the largest number, and its totals
within them. -/
structure Budget.Bounding (b : Budget) : Prop where
  maxRows : b.maxRows < u64Max
  maxBytes : b.maxBytes < u64Max
  rows : b.usedRows ≤ b.maxRows
  bytes : b.usedBytes ≤ b.maxBytes

/-- Such a budget counts an admitted row exactly: below its caps no sum
saturates. -/
theorem Budget.Bounding.charge {b b' : Budget} (h : b.Bounding) {rowBytes bytes rows : Nat}
    (hcharge : b.chargeRow rowBytes = (.within bytes rows, b')) :
    b' = ⟨b.maxBytes, b.maxRows, b.usedBytes + rowBytes, b.usedRows + 1⟩ ∧ b'.Bounding := by
  obtain ⟨hrows, hbytes, rfl⟩ := Budget.chargeRow_within hcharge
  have hmaxRows := h.maxRows
  have hmaxBytes := h.maxBytes
  have hexactRows : satAdd b.usedRows 1 = b.usedRows + 1 := satAdd_eq_of_le hrows hmaxRows
  have hexactBytes : satAdd b.usedBytes rowBytes = b.usedBytes + rowBytes :=
    satAdd_eq_of_le hbytes hmaxBytes
  refine ⟨?_, hmaxRows, hmaxBytes, hrows, hbytes⟩
  rw [hexactRows, hexactBytes]

/-- A refused row leaves the budget as it was. -/
theorem Budget.chargeRow_exceeded {b b' : Budget} {rowBytes bytes rows : Nat} {cap : Cap}
    (h : b.chargeRow rowBytes = (.exceeded cap bytes rows, b')) : b' = b := by
  unfold Budget.chargeRow at h
  split at h
  · cases h
    rfl
  · split at h
    · cases h
      rfl
    · cases h

/-- The totals of the window are within its caps. -/
def WindowMeter.Within (w : WindowMeter) : Prop :=
  w.usedBytes ≤ w.maxBytes ∧ w.usedRows ≤ w.maxRows

theorem WindowMeter.forWindow_within (budget : WindowBudget) :
    (WindowMeter.forWindow budget).Within := ⟨Nat.zero_le _, Nat.zero_le _⟩

/-- Starting over keeps the caps and never adds to the totals. -/
theorem WindowMeter.roll_cases (w : WindowMeter) (nowMs : Nat) :
    w.roll nowMs = w ∨
      w.roll nowMs = { w with anchorMs := some nowMs, usedBytes := 0, usedRows := 0 } := by
  unfold WindowMeter.roll
  split
  · exact .inr rfl
  · split
    · exact .inr rfl
    · exact .inl rfl

theorem WindowMeter.roll_within {w : WindowMeter} (h : w.Within) (nowMs : Nat) :
    (w.roll nowMs).Within := by
  rcases w.roll_cases nowMs with heq | heq
  · rw [heq]
    exact h
  · rw [heq]
    exact ⟨Nat.zero_le _, Nat.zero_le _⟩

@[simp] theorem WindowMeter.roll_caps (w : WindowMeter) (nowMs : Nat) :
    (w.roll nowMs).maxBytes = w.maxBytes ∧ (w.roll nowMs).maxRows = w.maxRows := by
  rcases w.roll_cases nowMs with heq | heq
  · rw [heq]
    exact ⟨rfl, rfl⟩
  · rw [heq]
    exact ⟨rfl, rfl⟩

/-- A charge keeps the caps and leaves the totals within them. -/
theorem WindowMeter.charge_within {w : WindowMeter} (h : w.Within) (bytes rows nowMs : Nat) :
    (w.charge bytes rows nowMs).2.Within ∧
      (w.charge bytes rows nowMs).2.maxBytes = w.maxBytes ∧
      (w.charge bytes rows nowMs).2.maxRows = w.maxRows := by
  have hroll := WindowMeter.roll_within h nowMs
  have hcaps := w.roll_caps nowMs
  unfold WindowMeter.charge
  dsimp only
  split
  · exact ⟨hroll, hcaps⟩
  · split
    · exact ⟨hroll, hcaps⟩
    · next hrows hbytes =>
        refine ⟨⟨?_, ?_⟩, hcaps⟩
        · show satAdd (w.roll nowMs).usedBytes bytes ≤ (w.roll nowMs).maxBytes
          omega
        · show satAdd (w.roll nowMs).usedRows rows ≤ (w.roll nowMs).maxRows
          omega

end PgBrakes.Ports.Proxy
