import Mathlib.Data.List.Infix
import PgBrakes.Verified.History

/-!
# Append-only logs behind many handles

Components append entries to logs and read the logs back, each through a handle of its
own, and several handles may be on one log.  A call may fail, and an append that failed
may have landed all the same: its answer was lost.

What an entry looks like in the log depends on the entries in front of it, so a log is
the list of the entries that landed and a function `records` from such lists.  `Honest`
is what one call owes the calls before it: an acknowledged append has landed, as the
record it was answered with, and a read that succeeds shows what has landed.

## Main results

* `acknowledged_stays` — an acknowledged record is in every later read of its log, at
  its place.
* `reads_grow` — a read is a prefix of every later read of the same log.
* `read_counts` — a read holds a record for each acknowledged append, and no more
  records than appends were tried.
-/

namespace PgBrakes.Verified.SharedLog

open PgBrakes.Verified.History

variable {κ ι ρ ε : Type}

/-- What a call did to a log and what it answered. -/
inductive Event (κ ι ρ ε : Type) where
  | append (log : κ) (entry : ι) (landed : Bool) (answer : Except ε ρ)
  | read (log : κ) (answer : Except ε (List ρ))

/-! ## What has landed -/

section Landed

variable [DecidableEq κ]

/-- The entry a call put into the log. -/
def Event.lands (log : κ) : Event κ ι ρ ε → Option ι
  | .append l entry true _ => if l = log then some entry else none
  | .append _ _ false _ => none
  | .read _ _ => none

/-- The entries of the log, oldest first. -/
def landed (log : κ) (history : List (Event κ ι ρ ε)) : List ι :=
  history.filterMap (Event.lands log)

@[simp] theorem landed_nil (log : κ) : landed log ([] : List (Event κ ι ρ ε)) = [] := rfl

@[simp] theorem landed_append (log : κ) (xs ys : List (Event κ ι ρ ε)) :
    landed log (xs ++ ys) = landed log xs ++ landed log ys := by
  simp [landed]

@[simp] theorem landed_read (log l : κ) (answer : Except ε (List ρ))
    (history : List (Event κ ι ρ ε)) :
    landed log (.read l answer :: history) = landed log history := rfl

@[simp] theorem landed_lost (log l : κ) (entry : ι) (answer : Except ε ρ)
    (history : List (Event κ ι ρ ε)) :
    landed log (.append l entry false answer :: history) = landed log history := rfl

@[simp] theorem landed_self (log : κ) (entry : ι) (answer : Except ε ρ)
    (history : List (Event κ ι ρ ε)) :
    landed log (.append log entry true answer :: history) = entry :: landed log history := by
  simp [landed, Event.lands]

theorem landed_other {log l : κ} (h : l ≠ log) (entry : ι) (arrived : Bool)
    (answer : Except ε ρ) (history : List (Event κ ι ρ ε)) :
    landed log (.append l entry arrived answer :: history) = landed log history := by
  cases arrived with
  | false => rfl
  | true => simp [landed, Event.lands, h]

end Landed

/-! ## Records -/

/-- Each entry adds one record and leaves those before it. -/
structure Growing (records : List ι → List ρ) : Prop where
  nil : records [] = []
  snoc : ∀ entries entry, ∃ r, records (entries ++ [entry]) = records entries ++ [r]

variable {records : List ι → List ρ}

theorem Growing.isPrefix (h : Growing records) (entries more : List ι) :
    records entries <+: records (entries ++ more) := by
  induction more using List.reverseRecOn with
  | nil => simp
  | append_singleton more entry ih =>
      obtain ⟨r, hr⟩ := h.snoc (entries ++ more) entry
      rw [← List.append_assoc, hr]
      exact ih.trans (List.prefix_append _ _)

theorem Growing.length (h : Growing records) (entries : List ι) :
    (records entries).length = entries.length := by
  induction entries using List.reverseRecOn with
  | nil => rw [h.nil]; rfl
  | append_singleton entries entry ih =>
      obtain ⟨r, hr⟩ := h.snoc entries entry
      rw [hr]
      simp [ih]

/-! ## Honest histories -/

section Honest

variable [DecidableEq κ]

/-- What a call owes the calls before it. -/
def Honest (records : List ι → List ρ) (before : List (Event κ ι ρ ε)) :
    Event κ ι ρ ε → Prop
  | .append log entry arrived (.ok r) =>
      arrived = true ∧ records (landed log before ++ [entry]) = records (landed log before) ++ [r]
  | .append _ _ _ (.error _) => True
  | .read log (.ok rs) => rs = records (landed log before)
  | .read _ (.error _) => True

variable {before mid after history : List (Event κ ι ρ ε)}

theorem Honest.read {log : κ} {rs : List ρ}
    (h : EveryStep (Honest records) (before ++ .read log (.ok rs) :: after)) :
    rs = records (landed log before) :=
  h before _ after rfl

/-- An acknowledged record is in every later read, behind the records that were there
before it. -/
theorem acknowledged_stays (hrecords : Growing records) {log : κ} {entry : ι} {arrived : Bool}
    {r : ρ} {rs : List ρ}
    (h : EveryStep (Honest records)
      (before ++ .append log entry arrived (.ok r) :: (mid ++ .read log (.ok rs) :: after))) :
    records (landed log before) ++ [r] <+: rs := by
  obtain ⟨rfl, hrecord⟩ := h before _ _ rfl
  have hread : rs = records (landed log (before ++ .append log entry true (.ok r) :: mid)) := by
    have hfront : EveryStep (Honest records)
        ((before ++ .append log entry true (.ok r) :: mid) ++ .read log (.ok rs) :: after) := by
      simpa using h
    exact Honest.read hfront
  rw [hread, ← hrecord]
  simpa using hrecords.isPrefix (landed log before ++ [entry]) (landed log mid)

/-- A read is a prefix of every later read. -/
theorem reads_grow (hrecords : Growing records) {log : κ} {rs rs' : List ρ}
    (h : EveryStep (Honest records)
      (before ++ .read log (.ok rs) :: (mid ++ .read log (.ok rs') :: after))) :
    rs <+: rs' := by
  have hfirst : rs = records (landed log before) := Honest.read h
  have hsecond : rs' = records (landed log (before ++ .read log (.ok rs) :: mid)) := by
    have hfront : EveryStep (Honest records)
        ((before ++ .read log (.ok rs) :: mid) ++ .read log (.ok rs') :: after) := by
      simpa using h
    exact Honest.read hfront
  rw [hfirst, hsecond]
  simpa using hrecords.isPrefix (landed log before) (landed log mid)

/-- The call is an append to the log. -/
def Event.tries (log : κ) : Event κ ι ρ ε → Bool
  | .append l _ _ _ => l = log
  | .read _ _ => false

/-- The call is an append to the log that was acknowledged. -/
def Event.acknowledges (log : κ) : Event κ ι ρ ε → Bool
  | .append l _ _ (.ok _) => l = log
  | .append _ _ _ (.error _) => false
  | .read _ _ => false

theorem landed_le_tries (log : κ) (history : List (Event κ ι ρ ε)) :
    (landed log history).length ≤ history.countP (Event.tries log) := by
  induction history with
  | nil => simp
  | cons event history ih =>
      rw [List.countP_cons]
      cases event with
      | read l answer => simpa using Nat.le_add_right_of_le ih
      | append l entry arrived answer =>
          by_cases hl : l = log
          · subst hl
            cases arrived with
            | false => exact Nat.le_add_right_of_le ih
            | true => simpa [Event.tries] using ih
          · rw [landed_other hl]
            exact Nat.le_add_right_of_le ih

theorem acknowledged_le_landed {log : κ} (h : EveryStep (Honest records) history) :
    history.countP (Event.acknowledges log) ≤ (landed log history).length := by
  induction history using List.reverseRecOn with
  | nil => simp
  | append_singleton history event ih =>
      have hfront := ih h.front
      have hlast := h history event [] rfl
      rw [List.countP_append, landed_append, List.length_append]
      refine Nat.add_le_add hfront ?_
      cases event with
      | read l answer => simp [Event.acknowledges]
      | append l entry arrived answer =>
          cases answer with
          | error e => simp [Event.acknowledges]
          | ok r =>
              obtain ⟨rfl, -⟩ := hlast
              by_cases hl : l = log
              · subst hl
                simp [Event.acknowledges]
              · simp [Event.acknowledges, hl]

/-- A read holds a record for each acknowledged append, and no more records than
appends were tried. -/
theorem read_counts (hrecords : Growing records) {log : κ} {rs : List ρ}
    (h : EveryStep (Honest records) (before ++ .read log (.ok rs) :: after)) :
    before.countP (Event.acknowledges log) ≤ rs.length ∧
      rs.length ≤ before.countP (Event.tries log) := by
  rw [Honest.read h, hrecords.length]
  exact ⟨acknowledged_le_landed h.front, landed_le_tries log before⟩

end Honest

end PgBrakes.Verified.SharedLog
