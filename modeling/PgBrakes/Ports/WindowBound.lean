import PgBrakes.Verified.TumblingWindow
import PgBrakes.Ports.ProxyBudget

/-!
# What the window meter admits over a run

A session charges its reads one after the other, at times that never go back.
Each charge first rolls the window and is then counted or refused.  `admitted`
is the run: the counted charges, each with the window it was counted in.  The
windows are numbered by the rolls that opened them.

Two things the totals do not say by themselves.  They saturate, so under a cap
of `u64::MAX` every charge is admitted and the sum is not bounded.  And a
refused charge has rolled the window before it was refused, so it may leave
fresh totals behind instead of the old ones.

## Main results

* `admitted_spaced` — the windows of a run are a full length apart.
* `window_bounds` — what a window and an interval of its length admit at most,
  and what a refused charge leaves behind.
-/

namespace PgBrakes.Ports.Proxy

open PgBrakes.Verified.MachineWord
open PgBrakes.Verified.TumblingWindow

/-- The arguments of one `charge`, with the reading of the clock. -/
structure ReadCharge where
  bytes : Nat
  rows : Nat
  nowMs : Nat

namespace WindowCap

/-- What a charge adds to a dimension, what the meter has counted in it, and its
cap. -/
def amount : WindowCap → ReadCharge → Nat
  | .bytes, c => c.bytes
  | .rows, c => c.rows

def used : WindowCap → WindowMeter → Nat
  | .bytes, w => w.usedBytes
  | .rows, w => w.usedRows

def limit : WindowCap → WindowMeter → Nat
  | .bytes, w => w.maxBytes
  | .rows, w => w.maxRows

end WindowCap

namespace WindowMeter

/-! ## One charge -/

/-- Rolling at this time opens a window. -/
def opens (w : WindowMeter) (nowMs : Nat) : Prop :=
  ∀ anchor, w.anchorMs = some anchor → w.windowMs ≤ nowMs - anchor

instance (w : WindowMeter) (nowMs : Nat) : Decidable (w.opens nowMs) :=
  match h : w.anchorMs with
  | none => isTrue fun _ hanchor => by rw [h] at hanchor; cases hanchor
  | some anchor =>
      decidable_of_iff (w.windowMs ≤ nowMs - anchor)
        ⟨fun hle _ hanchor => by rw [h] at hanchor; cases hanchor; exact hle,
          fun hopens => hopens anchor h⟩

theorem roll_of_opens {w : WindowMeter} {nowMs : Nat} (h : w.opens nowMs) :
    w.roll nowMs = { w with anchorMs := some nowMs, usedBytes := 0, usedRows := 0 } := by
  unfold roll
  split
  · rfl
  · next anchor hanchor =>
      rw [if_pos (h anchor hanchor)]

/-- A window that is still open stays as it is. -/
theorem roll_of_not_opens {w : WindowMeter} {nowMs : Nat} (h : ¬ w.opens nowMs) :
    w.roll nowMs = w ∧ ∃ anchor, w.anchorMs = some anchor ∧ nowMs < anchor + w.windowMs := by
  unfold roll
  split
  · next hnone =>
      refine absurd (fun anchor hanchor => ?_) h
      rw [hnone] at hanchor
      cases hanchor
  · next anchor hanchor =>
      have hlt : ¬ w.windowMs ≤ nowMs - anchor := by
        intro hle
        refine h fun other hother => ?_
        rw [hanchor] at hother
        cases hother
        exact hle
      rw [if_neg hlt]
      exact ⟨rfl, anchor, hanchor, by omega⟩

/-- Counting a charge in a meter, whatever its caps say. -/
def count (w : WindowMeter) (c : ReadCharge) : WindowMeter :=
  { w with
    usedRows := satAdd w.usedRows c.rows
    usedBytes := satAdd w.usedBytes c.bytes }

/-- The meter refused a charge. -/
def refuses (w : WindowMeter) (c : ReadCharge) : Prop :=
  ∃ cap bytes rows, (w.charge c.bytes c.rows c.nowMs).1 = .exceeded cap bytes rows

/-- A charge is refused over the rolled meter, or counted in it within both
caps. -/
theorem charge_cases (w : WindowMeter) (c : ReadCharge) :
    (∃ cap bytes rows, w.charge c.bytes c.rows c.nowMs =
      (.exceeded cap bytes rows, w.roll c.nowMs)) ∨
    ∃ bytes rows, w.charge c.bytes c.rows c.nowMs =
        (.within bytes rows, (w.roll c.nowMs).count c) ∧
      ∀ d : WindowCap, d.used ((w.roll c.nowMs).count c) ≤ d.limit w := by
  have hcaps := w.roll_caps c.nowMs
  unfold charge
  dsimp only
  split
  · exact .inl ⟨_, _, _, rfl⟩
  · split
    · exact .inl ⟨_, _, _, rfl⟩
    · next hrows hbytes =>
        refine .inr ⟨_, _, rfl, fun d => ?_⟩
        cases d with
        | bytes =>
            show satAdd (w.roll c.nowMs).usedBytes c.bytes ≤ w.maxBytes
            omega
        | rows =>
            show satAdd (w.roll c.nowMs).usedRows c.rows ≤ w.maxRows
            omega

/-- Below a cap that is not the largest number, the counter is exact. -/
theorem used_count {w : WindowMeter} {c : ReadCharge} {d : WindowCap} {limit : Nat}
    (h : d.used (w.count c) ≤ limit) (hlimit : limit < u64Max) :
    d.used (w.count c) = d.used w + d.amount c := by
  cases d with
  | bytes =>
      simp only [WindowCap.used, WindowCap.amount, count] at h ⊢
      exact satAdd_eq_of_le h hlimit
  | rows =>
      simp only [WindowCap.used, WindowCap.amount, count] at h ⊢
      exact satAdd_eq_of_le h hlimit

@[simp] theorem roll_windowMs (w : WindowMeter) (nowMs : Nat) :
    (w.roll nowMs).windowMs = w.windowMs := by
  rcases w.roll_cases nowMs with heq | heq
  · rw [heq]
  · rw [heq]

@[simp] theorem limit_roll (w : WindowMeter) (nowMs : Nat) (d : WindowCap) :
    d.limit (w.roll nowMs) = d.limit w := by
  cases d with
  | bytes => exact (w.roll_caps nowMs).1
  | rows => exact (w.roll_caps nowMs).2

@[simp] theorem limit_count (w : WindowMeter) (c : ReadCharge) (d : WindowCap) :
    d.limit (w.count c) = d.limit w := by
  cases d <;> rfl

/-! ## A run -/

/-- The number of the window a charge at this time falls into, when the meter
stands in window `n`. -/
def windowAt (w : WindowMeter) (n nowMs : Nat) : Nat :=
  if w.opens nowMs then n + 1 else n

/-- The charges a run admits, each in its window.  A refused charge is not
counted, and the meter goes on with what it left behind. -/
def admitted (w : WindowMeter) (n : Nat) : List ReadCharge → List (Slot ReadCharge)
  | [] => []
  | c :: cs =>
      let n' := w.windowAt n c.nowMs
      match w.charge c.bytes c.rows c.nowMs with
      | (.within _ _, w') =>
          { item := c, time := c.nowMs, window := n', anchor := w'.anchorMs.getD 0 } ::
            w'.admitted n' cs
      | (.exceeded _ _ _, w') => w'.admitted n' cs

/-- The clock of a run never goes back, and not behind the window the meter is
in. -/
structure Clocked (w : WindowMeter) (cs : List ReadCharge) : Prop where
  sorted : cs.Pairwise fun c c' => c.nowMs ≤ c'.nowMs
  after : ∀ anchor, w.anchorMs = some anchor → ∀ c ∈ cs, anchor ≤ c.nowMs

/-- One step of a run: the rest of it starts from the rolled meter, with or
without the charge counted. -/
theorem admitted_cons (w : WindowMeter) (n : Nat) (c : ReadCharge) (cs : List ReadCharge) :
    w.admitted n (c :: cs) = (w.roll c.nowMs).admitted (w.windowAt n c.nowMs) cs ∨
      (w.admitted n (c :: cs) =
          { item := c, time := c.nowMs, window := w.windowAt n c.nowMs,
            anchor := (w.roll c.nowMs).anchorMs.getD 0 } ::
            ((w.roll c.nowMs).count c).admitted (w.windowAt n c.nowMs) cs ∧
        ∀ d : WindowCap, d.used ((w.roll c.nowMs).count c) ≤ d.limit w) := by
  rcases w.charge_cases c with ⟨cap, bytes, rows, hcharge⟩ | ⟨bytes, rows, hcharge, hwithin⟩
  · left
    rw [admitted, hcharge]
  · right
    refine ⟨?_, hwithin⟩
    rw [admitted, hcharge]
    rfl

/-- Rolling always leaves a window open: one that began at this very time, or
the one the meter was in, which has not ended yet. -/
theorem roll_anchor {w : WindowMeter} {c : ReadCharge} {cs : List ReadCharge}
    (h : Clocked w (c :: cs)) :
    ∃ anchor, (w.roll c.nowMs).anchorMs = some anchor ∧ anchor ≤ c.nowMs ∧
      (0 < w.windowMs → c.nowMs < anchor + w.windowMs) := by
  by_cases hopens : w.opens c.nowMs
  · rw [roll_of_opens hopens]
    exact ⟨c.nowMs, rfl, Nat.le_refl _, fun hpos => by omega⟩
  · obtain ⟨hroll, anchor, hanchor, hlt⟩ := roll_of_not_opens hopens
    rw [hroll]
    exact ⟨anchor, hanchor, h.after anchor hanchor c List.mem_cons_self, fun _ => hlt⟩

theorem Clocked.roll {w : WindowMeter} {c : ReadCharge} {cs : List ReadCharge}
    (h : Clocked w (c :: cs)) : Clocked (w.roll c.nowMs) cs := by
  obtain ⟨anchor, hanchor, hle, -⟩ := roll_anchor h
  refine ⟨(List.pairwise_cons.mp h.sorted).2, fun other hother c' hc' => ?_⟩
  rw [hanchor] at hother
  cases hother
  exact Nat.le_trans hle ((List.pairwise_cons.mp h.sorted).1 c' hc')

theorem Clocked.count {w : WindowMeter} {cs : List ReadCharge} (h : Clocked w cs)
    (c : ReadCharge) : Clocked (w.count c) cs :=
  ⟨h.sorted, h.after⟩

/-- A slot of the window the meter is in, or of one at least a length after
it. -/
def Later (w : WindowMeter) (n : Nat) (s : Slot ReadCharge) : Prop :=
  n ≤ s.window ∧ ∀ anchor, w.anchorMs = some anchor →
    anchor ≤ s.anchor ∧ (n < s.window → anchor + w.windowMs ≤ s.anchor)

/-- What comes after the roll comes after the meter before it. -/
theorem Later.of_roll {w : WindowMeter} {n : Nat} {c : ReadCharge} {cs : List ReadCharge}
    {s : Slot ReadCharge} (hclock : Clocked w (c :: cs))
    (h : Later (w.roll c.nowMs) (w.windowAt n c.nowMs) s) : Later w n s := by
  unfold windowAt at h
  by_cases hopens : w.opens c.nowMs
  · rw [if_pos hopens, roll_of_opens hopens] at h
    have hnow := (h.2 c.nowMs rfl).1
    refine ⟨by have := h.1; omega, fun anchor hanchor => ?_⟩
    have hpast := hopens anchor hanchor
    have hle := hclock.after anchor hanchor c List.mem_cons_self
    omega
  · rw [if_neg hopens, (roll_of_not_opens hopens).1] at h
    exact h

/-- The windows of a run are a full length apart, and none comes before the one
the meter is in. -/
theorem admitted_spaced : ∀ (cs : List ReadCharge) (w : WindowMeter) (n : Nat),
    Clocked w cs →
      Spaced w.windowMs (w.admitted n cs) ∧ ∀ s ∈ w.admitted n cs, Later w n s := by
  intro cs
  induction cs with
  | nil =>
      intro w n _
      exact ⟨Spaced.nil _, fun s hs => absurd hs List.not_mem_nil⟩
  | cons c cs ih =>
      intro w n hclock
      rcases w.admitted_cons n c cs with hrun | ⟨hrun, -⟩
      · obtain ⟨hspaced, hlater⟩ := ih (w.roll c.nowMs) (w.windowAt n c.nowMs) hclock.roll
        rw [roll_windowMs] at hspaced
        rw [hrun]
        exact ⟨hspaced, fun s hs => (hlater s hs).of_roll hclock⟩
      · obtain ⟨hspaced, hlater⟩ :=
          ih ((w.roll c.nowMs).count c) (w.windowAt n c.nowMs) (hclock.roll.count c)
        have hlength : ((w.roll c.nowMs).count c).windowMs = w.windowMs := w.roll_windowMs _
        rw [hlength] at hspaced
        obtain ⟨anchor, hanchor, hle, hlt⟩ := roll_anchor hclock
        rw [hanchor, Option.getD_some] at hrun
        rw [hrun]
        constructor
        · refine hspaced.cons ⟨hle, hlt⟩ (fun s hs => (hlater s hs).1) fun s hs hwindow => ?_
          have hfar := ((hlater s hs).2 anchor hanchor).2 hwindow
          rwa [hlength] at hfar
        · intro s hs
          rcases List.mem_cons.mp hs with rfl | hs
          · refine Later.of_roll hclock ⟨Nat.le_refl _, fun other hother => ?_⟩
            rw [hanchor] at hother
            cases hother
            exact ⟨Nat.le_refl _, fun hwindow => absurd hwindow (Nat.lt_irrefl _)⟩
          · exact Later.of_roll hclock (hlater s hs)

/-- No slot of a run is numbered before the window the meter is in. -/
theorem le_window : ∀ (cs : List ReadCharge) (w : WindowMeter) (n : Nat),
    ∀ s ∈ w.admitted n cs, n ≤ s.window := by
  intro cs
  induction cs with
  | nil =>
      intro w n s hs
      cases hs
  | cons c cs ih =>
      intro w n s hs
      have hstep : n ≤ w.windowAt n c.nowMs := by
        unfold windowAt
        split <;> omega
      rcases w.admitted_cons n c cs with hrun | ⟨hrun, -⟩
      · rw [hrun] at hs
        exact Nat.le_trans hstep (ih _ _ s hs)
      · rw [hrun] at hs
        rcases List.mem_cons.mp hs with rfl | hs
        · exact hstep
        · exact Nat.le_trans hstep (ih _ _ s hs)

/-- What the rest of a run admits in a window fits under the cap, on top of what
the meter has counted in the window it is in. -/
def FitsUnder (d : WindowCap) (w : WindowMeter) (n : Nat) (slots : List (Slot ReadCharge)) :
    Prop :=
  ∀ k, total d.amount (ofWindow k slots) + (if k = n then d.used w else 0) ≤ d.limit w

/-- A roll that opens a window leaves the room of the old one unused. -/
theorem FitsUnder.of_roll {d : WindowCap} {w : WindowMeter} {n nowMs : Nat}
    {slots : List (Slot ReadCharge)} (hused : d.used w ≤ d.limit w)
    (hle : ∀ s ∈ slots, w.windowAt n nowMs ≤ s.window)
    (h : FitsUnder d (w.roll nowMs) (w.windowAt n nowMs) slots) : FitsUnder d w n slots := by
  unfold windowAt at hle h
  by_cases hopens : w.opens nowMs
  · rw [if_pos hopens] at hle h
    intro k
    have hk := h k
    rw [limit_roll] at hk
    by_cases hkn : k = n
    · have hzero := total_ofWindow_eq_zero d.amount (k := k) fun s hs => by
        have := hle s hs
        omega
      rw [if_pos hkn]
      omega
    · rw [if_neg hkn]
      omega
  · rw [if_neg hopens, (roll_of_not_opens hopens).1] at h
    exact h

/-- Counting a charge uses its room up. -/
theorem FitsUnder.cons {d : WindowCap} {w : WindowMeter} {n : Nat} {c : ReadCharge}
    {slots : List (Slot ReadCharge)} {s : Slot ReadCharge} (hitem : s.item = c)
    (hwindow : s.window = n) (hlimit : d.limit w < u64Max)
    (hwithin : d.used (w.count c) ≤ d.limit w) (h : FitsUnder d (w.count c) n slots) :
    FitsUnder d w n (s :: slots) := by
  intro k
  have hk := h k
  rw [limit_count, used_count hwithin hlimit] at hk
  rw [ofWindow_cons, hwindow]
  by_cases hkn : k = n
  · rw [if_pos hkn] at hk
    rw [if_pos hkn, if_pos hkn.symm, total_cons, hitem]
    omega
  · rw [if_neg hkn] at hk
    rw [if_neg hkn, if_neg (fun h => hkn h.symm)]
    exact hk

theorem used_roll_le {d : WindowCap} {w : WindowMeter} (h : d.used w ≤ d.limit w)
    (nowMs : Nat) : d.used (w.roll nowMs) ≤ d.limit w := by
  rcases w.roll_cases nowMs with heq | heq
  · rw [heq]
    exact h
  · rw [heq]
    cases d <;> exact Nat.zero_le _

theorem admitted_total (d : WindowCap) : ∀ (cs : List ReadCharge) (w : WindowMeter) (n : Nat),
    d.limit w < u64Max → d.used w ≤ d.limit w → FitsUnder d w n (w.admitted n cs) := by
  intro cs
  induction cs with
  | nil =>
      intro w n _ hused k
      simp only [admitted, ofWindow, List.filter_nil, total_nil]
      split <;> omega
  | cons c cs ih =>
      intro w n hlimit hused
      have hrolled := used_roll_le hused c.nowMs
      rcases w.admitted_cons n c cs with hrun | ⟨hrun, hwithin⟩
      · rw [hrun]
        refine FitsUnder.of_roll hused (le_window cs _ _) (ih _ _ ?_ ?_)
        · rwa [limit_roll]
        · rwa [limit_roll]
      · rw [hrun]
        refine @FitsUnder.of_roll d w n c.nowMs _ hused ?_ ?_
        · intro s hs
          rcases List.mem_cons.mp hs with rfl | hs
          · exact Nat.le_refl _
          · exact le_window cs _ _ s hs
        · refine FitsUnder.cons (c := c) rfl rfl (by rwa [limit_roll])
            (by rw [limit_roll]; exact hwithin d) (ih _ _ ?_ ?_)
          · rwa [limit_count, limit_roll]
          · rw [limit_count, limit_roll]
            exact hwithin d

end WindowMeter

/-! ## The bounds -/

/-- The sums a run stays under: the cap in each window, twice the cap in an
interval of a window's length, which a charge at its far end may belong to or
not. -/
structure WindowsBounded (d : WindowCap) (w : WindowMeter) (slots : List (Slot ReadCharge)) :
    Prop where
  window : ∀ k, total d.amount (ofWindow k slots) ≤ d.limit w
  interval : ∀ first, total d.amount (slots.filter fun s =>
    first ≤ s.time ∧ s.time < first + w.windowMs) ≤ 2 * d.limit w
  closedInterval : 0 < w.windowMs →
    ∀ first, total d.amount (during first (first + w.windowMs) slots) ≤ 2 * d.limit w

/-- A charge is refused without its amount being counted: the totals are those
of the open window, or none where the charge came after its end. -/
def RefusalKeeps (w : WindowMeter) (c : ReadCharge) : Prop :=
  w.refuses c → ∀ d : WindowCap, d.used (w.charge c.bytes c.rows c.nowMs).2 =
    if w.opens c.nowMs then 0 else d.used w

theorem refusalKeeps (w : WindowMeter) (c : ReadCharge) : RefusalKeeps w c := by
  intro hrefuses d
  rcases w.charge_cases c with ⟨cap, bytes, rows, hcharge⟩ | ⟨bytes, rows, hcharge, -⟩
  · rw [hcharge]
    split
    · next hopens =>
        rw [WindowMeter.roll_of_opens hopens]
        cases d <;> rfl
    · next hopens => rw [(WindowMeter.roll_of_not_opens hopens).1]
  · obtain ⟨cap, bytes', rows', hexceeded⟩ := hrefuses
    rw [hcharge] at hexceeded
    cases hexceeded

/-- Over every run with a clock that never goes back: a cap below the largest
number bounds every window, and doubled every interval of the window's length;
a refused charge is not counted. -/
theorem window_bounds (budget : WindowBudget) (cs : List ReadCharge)
    (hclock : cs.Pairwise fun c c' => c.nowMs ≤ c'.nowMs) :
    (∀ d : WindowCap, d.limit (.forWindow budget) < u64Max →
      WindowsBounded d (.forWindow budget) ((WindowMeter.forWindow budget).admitted 0 cs)) ∧
    ∀ (w : WindowMeter) (c : ReadCharge), RefusalKeeps w c := by
  refine ⟨fun d hlimit => ?_, refusalKeeps⟩
  have hspaced := (WindowMeter.admitted_spaced cs (.forWindow budget) 0
    ⟨hclock, fun anchor hanchor => by cases hanchor⟩).1
  have hused : d.used (.forWindow budget) ≤ d.limit (.forWindow budget) := by
    cases d <;> exact Nat.zero_le _
  have hwindow : ∀ k, total d.amount (ofWindow k ((WindowMeter.forWindow budget).admitted 0 cs)) ≤
      d.limit (.forWindow budget) := fun k =>
    Nat.le_trans (Nat.le_add_right _ _)
      (WindowMeter.admitted_total d cs (.forWindow budget) 0 hlimit hused k)
  refine ⟨hwindow, fun first => ?_, fun hpos first => ?_⟩
  · rcases Nat.eq_zero_or_pos (WindowMeter.forWindow budget).windowMs with hzero | hpos
    · have hnone : (((WindowMeter.forWindow budget).admitted 0 cs).filter fun s =>
          first ≤ s.time ∧ s.time < first + (WindowMeter.forWindow budget).windowMs) = [] := by
        rw [List.filter_eq_nil_iff]
        intro s _
        simp only [decide_eq_true_eq]
        omega
      rw [hnone, total_nil]
      exact Nat.zero_le _
    · refine hspaced.total_filter_le hpos hwindow first fun s hs => ?_
      simp only [decide_eq_true_eq] at hs
      omega
  · exact hspaced.total_filter_le hpos hwindow first fun s hs => of_decide_eq_true hs

/-- Three reads of a minute's budget, the last one in the next minute. -/
theorem window_bounds_threeReads :
    WindowsBounded .bytes (.forWindow ⟨60, 1000, 100⟩)
      ((WindowMeter.forWindow ⟨60, 1000, 100⟩).admitted 0
        [⟨500, 1, 0⟩, ⟨400, 1, 59999⟩, ⟨1000, 1, 60000⟩]) :=
  (window_bounds ⟨60, 1000, 100⟩ _ (by decide)).1 .bytes (by decide)

/-- A meter whose caps are the largest number, and one with half of its bytes
used at time zero. -/
def unboundedMeter : WindowMeter := .forWindow ⟨60, u64Max, u64Max⟩

def halfUsedMeter : WindowMeter := ((WindowMeter.forWindow ⟨60, 1000, 100⟩).charge 500 1 0).2

/-- Under a cap of `u64::MAX` one window admits the cap twice, and a read that
comes after the window's end clears the totals although it is refused. -/
theorem saturated_window_and_cleared_totals :
    ¬ total WindowCap.bytes.amount (ofWindow 1
        (unboundedMeter.admitted 0 [⟨u64Max, 1, 0⟩, ⟨u64Max, 1, 0⟩])) ≤
        unboundedMeter.maxBytes ∧
      halfUsedMeter.refuses ⟨2000, 1, 60000⟩ ∧
      (halfUsedMeter.charge 2000 1 60000).2.usedBytes ≠ halfUsedMeter.usedBytes := by
  refine ⟨by decide, ⟨.bytes, 0, 0, by decide⟩, by decide⟩

end PgBrakes.Ports.Proxy
