import Mathlib.Data.List.Basic
import Mathlib.Data.List.Nodup
import Mathlib.Data.List.Perm.Subperm
import PgBrakes.Verified.History

/-!
# Answers without numbers

A client that asks over one socket at a time, one question after the other, and takes the
next answer that comes back for the answer to its question.  The questions have serial
numbers, but the client does not look for them in the answers.  A socket that was lost is
replaced by a new one and the question is asked once more; after a time-out the socket is
dropped.  The server reads the questions of every socket in their order, whenever it likes,
and also those of sockets that nobody holds any more.

What keeps the pairing right is that a socket is kept only where nothing is left on it.

## Main results

* `step_inv` — what one step keeps.
* `run_paired` — over every run, an answer that is returned was given to the question of that
  very call.
* `runs_le_two` — how often a question is run.
* `server_rule` — the invariant rule for the server behind the sockets.
-/

namespace PgBrakes.Verified.LineRpc

open PgBrakes.Verified.History

variable {σ Req Rep Other : Type}

/-- What the server answers to a question, and what else may happen to it. -/
structure Server (σ Req Rep Other : Type) where
  serve : Nat → Req → σ → Rep × σ
  other : Other → σ → σ

/-- A question on its way.  Its call and attempt are known to the observer only. -/
structure Line (Req : Type) where
  socket : Nat
  serial : Nat
  call : Nat
  attempt : Nat
  req : Req

/-- An answer on its way back. -/
structure Answer (Rep : Type) where
  socket : Nat
  call : Nat
  rep : Rep

/-- Where the client is, with the question of the call. -/
inductive Phase (Req : Type) where
  | idle
  | dialing (req : Req) (attempt : Nat)
  | writing (req : Req) (attempt : Nat)
  | reading (req : Req) (attempt : Nat)

inductive Outcome (Rep : Type) where
  | answered (rep : Rep)
  | refused (detail : String)
  | lost (detail : String)
  | timedOut

/-- The server, what is on the sockets, and the client: the socket it holds, and how many
sockets it has dialed, calls it has begun and serial numbers it has taken. -/
structure System (σ Req Rep : Type) where
  server : σ
  lines : List (Line Req)
  answers : List (Answer Rep)
  held : Option Nat
  dials : Nat
  begun : Nat
  taken : Nat
  phase : Phase Req

inductive Event (Req Other : Type) where
  | call (req : Req)
  | dialOk
  | dialFails (detail : String)
  | write
  | lose (detail : String)
  | timeOut
  | read
  | serve (socket : Nat)
  | other (o : Other)

/-- What a step did. -/
inductive Record (σ Req Rep Other : Type) where
  | called (n : Nat) (req : Req)
  | ran (n attempt serial : Nat) (req : Req) (before : σ)
  | lostFirst (n : Nat)
  | returned (n : Nat) (outcome : Outcome Rep)
  | touched (o : Other) (before : σ)
  | silent

/-- A client without a socket. -/
def System.start (server : σ) : System σ Req Rep := ⟨server, [], [], none, 0, 0, 0, .idle⟩

/-- The next attempt: on the socket that is held, or on a new one. -/
def Phase.attempting (req : Req) (attempt : Nat) (held : Option Nat) : Phase Req :=
  if held.isSome then .writing req attempt else .dialing req attempt

/-- An attempt takes its serial number before it writes. -/
def System.take (s : System σ Req Rep) : System σ Req Rep := { s with taken := s.taken + 1 }

/-- The socket is lost: the first attempt is repeated, the second was the last. -/
def lose (s : System σ Req Rep) (req : Req) (attempt : Nat) (detail : String) :
    Record σ Req Rep Other × System σ Req Rep :=
  if attempt = 0 then (.lostFirst s.begun, { s with held := none, phase := .dialing req 1 })
  else (.returned s.begun (.lost detail), { s with held := none, phase := .idle })

/-- Too late: the socket is dropped. -/
def timeOut (s : System σ Req Rep) : Record σ Req Rep Other × System σ Req Rep :=
  (.returned s.begun .timedOut, { s with held := none, phase := .idle })

/-- One step of the client, of a thread of the server or of the rest of the world.  An event
that cannot happen changes nothing. -/
def step (v : Server σ Req Rep Other) (e : Event Req Other) (s : System σ Req Rep) :
    Record σ Req Rep Other × System σ Req Rep :=
  match e with
  | .call req =>
      match s.phase with
      | .idle => (.called (s.begun + 1) req,
          { s with begun := s.begun + 1, phase := .attempting req 0 s.held })
      | _ => (.silent, s)
  | .dialOk =>
      match s.phase with
      | .dialing req attempt => (.silent,
          { s with held := some s.dials, dials := s.dials + 1, phase := .writing req attempt })
      | _ => (.silent, s)
  | .dialFails detail =>
      match s.phase with
      | .dialing _ _ => (.returned s.begun (.refused detail), { s with phase := .idle })
      | _ => (.silent, s)
  | .write =>
      match s.phase, s.held with
      | .writing req attempt, some socket => (.silent,
          { s with
            lines := s.lines ++ [⟨socket, s.taken + 1, s.begun, attempt, req⟩]
            taken := s.taken + 1
            phase := .reading req attempt })
      | _, _ => (.silent, s)
  | .lose detail =>
      match s.phase with
      | .writing req attempt => lose s.take req attempt detail
      | .reading req attempt => lose s req attempt detail
      | _ => (.silent, s)
  | .timeOut =>
      match s.phase with
      | .writing _ _ => timeOut s.take
      | .reading _ _ => timeOut s
      | _ => (.silent, s)
  | .read =>
      match s.phase, s.held with
      | .reading _ _, some socket =>
          match s.answers.find? (·.socket = socket) with
          | some answer => (.returned s.begun (.answered answer.rep),
              { s with
                answers := s.answers.eraseP (·.socket = socket)
                phase := .idle })
          | none => (.silent, s)
      | _, _ => (.silent, s)
  | .serve socket =>
      match s.lines.find? (·.socket = socket) with
      | some line => (.ran line.call line.attempt line.serial line.req s.server,
          { s with
            server := (v.serve line.serial line.req s.server).2
            lines := s.lines.eraseP (·.socket = socket)
            answers := s.answers ++
              [⟨socket, line.call, (v.serve line.serial line.req s.server).1⟩] })
      | none => (.silent, s)
  | .other o => (.touched o s.server, { s with server := v.other o s.server })

/-! ## What is known in the middle of a run -/

/-- Which line it is. -/
def Line.id (l : Line Req) : Nat × Nat := (l.call, l.attempt)

def Record.ran? : Record σ Req Rep Other → Option (Nat × Nat)
  | .ran n attempt _ _ _ => some (n, attempt)
  | _ => none

/-- The lines that were run. -/
def ranIds (history : List (Record σ Req Rep Other)) : List (Nat × Nat) :=
  history.filterMap Record.ran?

/-- A second attempt follows a first that was lost. -/
def Attempted (history : List (Record σ Req Rep Other)) (n attempt : Nat) : Prop :=
  attempt = 0 ∨ attempt = 1 ∧ .lostFirst n ∈ history

/-- The attempts of the call that are behind it. -/
def Phase.used : Phase Req → Nat
  | .idle => 2
  | .dialing _ attempt => attempt
  | .writing _ attempt => attempt
  | .reading _ attempt => attempt + 1

/-- The question the client is about, with its attempt. -/
def Phase.asks : Phase Req → Option (Req × Nat)
  | .idle => none
  | .dialing req attempt => some (req, attempt)
  | .writing req attempt => some (req, attempt)
  | .reading req attempt => some (req, attempt)

/-- Nothing is on the socket. -/
def Quiet (s : System σ Req Rep) (socket : Nat) : Prop :=
  (s.lines.filter fun l => l.socket = socket) = [] ∧
    (s.answers.filter fun a => a.socket = socket) = []

/-- The question of the call is all there is on the socket, or an answer to it is. -/
def OneUnderWay (v : Server σ Req Rep Other) (history : List (Record σ Req Rep Other))
    (s : System σ Req Rep) (req : Req) (attempt socket : Nat) : Prop :=
  (∃ serial, (s.lines.filter fun l => l.socket = socket) =
      [⟨socket, serial, s.begun, attempt, req⟩] ∧
    (s.answers.filter fun a => a.socket = socket) = []) ∨
  ((s.lines.filter fun l => l.socket = socket) = [] ∧ ∃ answer serial before,
    (s.answers.filter fun a => a.socket = socket) = [answer] ∧
      answer.rep = (v.serve serial req before).1 ∧
        .ran s.begun attempt serial req before ∈ history)

/-- What the phase says of the socket that is held. -/
def Holds (v : Server σ Req Rep Other) (history : List (Record σ Req Rep Other))
    (s : System σ Req Rep) : Prop :=
  match s.phase with
  | .idle => ∀ socket ∈ s.held, Quiet s socket
  | .dialing _ _ => s.held = none
  | .writing _ _ => ∃ socket, s.held = some socket ∧ Quiet s socket
  | .reading req attempt =>
      ∃ socket, s.held = some socket ∧ OneUnderWay v history s req attempt socket

structure Inv (v : Server σ Req Rep Other) (history : List (Record σ Req Rep Other))
    (s : System σ Req Rep) : Prop where
  lines : ∀ l ∈ s.lines, l.socket < s.dials ∧ .called l.call l.req ∈ history ∧
    Attempted history l.call l.attempt
  answers : ∀ a ∈ s.answers, a.socket < s.dials
  held : ∀ socket ∈ s.held, socket < s.dials
  /-- A line is on its way or was run, and not twice. -/
  nodup : (s.lines.map Line.id ++ ranIds history).Nodup
  ids : ∀ id ∈ s.lines.map Line.id ++ ranIds history,
    id.1 ≤ s.begun ∧ (id.1 = s.begun → id.2 < s.phase.used)
  asks : ∀ req attempt, s.phase.asks = some (req, attempt) →
    .called s.begun req ∈ history ∧ Attempted history s.begun attempt
  holds : Holds v history s

/-- A question that is run was asked and is not run twice, the second attempt only after a
loss; and what is returned is returned to a call, an answer as it was given to the question
of that call. -/
def Paired (v : Server σ Req Rep Other) (before : List (Record σ Req Rep Other)) :
    Record σ Req Rep Other → Prop
  | .ran n attempt _ req _ =>
      .called n req ∈ before ∧ (n, attempt) ∉ ranIds before ∧ Attempted before n attempt
  | .returned n outcome =>
      ∃ req, .called n req ∈ before ∧ ∀ rep, outcome = .answered rep →
        ∃ attempt serial s, .ran n attempt serial req s ∈ before ∧
          rep = (v.serve serial req s).1
  | _ => True

/-! ## The lists of what is under way -/

section Lists

variable {α : Type} {p q : α → Bool} {l : List α} {a : α}

/-- Where the first of its kind stands. -/
theorem split_of_find (h : l.find? p = some a) : ∃ front back, l = front ++ a :: back ∧
    l.eraseP p = front ++ back ∧ p a = true ∧ ∀ x ∈ front, p x = false := by
  obtain ⟨ha, front, back, rfl, hfront⟩ := List.find?_eq_some_iff_append.mp h
  have hnot : ∀ x ∈ front, p x = false := fun x hx => by simpa using hfront x hx
  refine ⟨front, back, rfl, ?_, ha, hnot⟩
  rw [List.eraseP_append_right _ (fun x hx => by simp [hnot x hx]), List.eraseP_cons_of_pos ha]

/-- The first of its kind goes, the others of its kind stay. -/
theorem filter_eraseP (h : l.find? p = some a) :
    l.filter p = a :: (l.eraseP p).filter p := by
  obtain ⟨front, back, rfl, herase, ha, hfront⟩ := split_of_find h
  have hnone : front.filter p = [] := List.filter_eq_nil_iff.mpr fun x hx => by simp [hfront x hx]
  rw [herase, List.filter_append, List.filter_append, hnone, List.nil_append, List.nil_append,
    List.filter_cons_of_pos ha]

/-- Those of another kind stay. -/
theorem filter_eraseP_other (hpq : ∀ x, p x = true → q x = false) :
    (l.eraseP p).filter q = l.filter q := by
  induction l with
  | nil => rfl
  | cons x l ih =>
      by_cases hx : p x = true
      · rw [List.eraseP_cons_of_pos hx, List.filter_cons_of_neg (by simp [hpq x hx])]
      · rw [List.eraseP_cons_of_neg hx, List.filter_cons, List.filter_cons, ih]

end Lists

/-! ## One step -/

section Step

variable {v : Server σ Req Rep Other} {history : List (Record σ Req Rep Other)}
  {s : System σ Req Rep}

theorem Attempted.mono {n attempt : Nat} (h : Attempted history n attempt)
    (more : List (Record σ Req Rep Other)) : Attempted (history ++ more) n attempt :=
  h.imp id fun h => ⟨h.1, List.mem_append_left _ h.2⟩

theorem Attempted.le {n attempt : Nat} (h : Attempted history n attempt) : attempt ≤ 1 := by
  rcases h with h | ⟨h, -⟩ <;> omega

theorem ranIds_snoc {r : Record σ Req Rep Other} (hr : r.ran? = none) :
    ranIds (history ++ [r]) = ranIds history := by
  rw [ranIds, List.filterMap_append, List.filterMap_cons_none hr, List.filterMap_nil,
    List.append_nil]
  rfl

theorem OneUnderWay.mono {req : Req} {attempt socket : Nat}
    (h : OneUnderWay v history s req attempt socket) (more : List (Record σ Req Rep Other)) :
    OneUnderWay v (history ++ more) s req attempt socket := by
  rcases h with h | ⟨hlines, answer, serial, before, hanswers, hrep, hran⟩
  · exact .inl h
  · exact .inr ⟨hlines, answer, serial, before, hanswers, hrep, List.mem_append_left _ hran⟩

theorem Holds.mono (h : Holds v history s) (more : List (Record σ Req Rep Other)) :
    Holds v (history ++ more) s := by
  unfold Holds at h ⊢
  split at h
  · exact h
  · exact h
  · exact h
  · obtain ⟨socket, hheld, hone⟩ := h
    exact ⟨socket, hheld, hone.mono more⟩

/-- A step that leaves what is under way as it is. -/
theorem Inv.move (h : Inv v history s) {r : Record σ Req Rep Other} (hr : r.ran? = none)
    {server : σ} {held : Option Nat} {dials begun taken : Nat} {phase : Phase Req}
    (hdials : s.dials ≤ dials) (hheld : ∀ socket ∈ held, socket < dials)
    (hids : ∀ id ∈ s.lines.map Line.id ++ ranIds history,
      id.1 ≤ begun ∧ (id.1 = begun → id.2 < phase.used))
    (hasks : ∀ req attempt, phase.asks = some (req, attempt) →
      .called begun req ∈ history ++ [r] ∧ Attempted (history ++ [r]) begun attempt)
    (hholds : Holds v (history ++ [r])
      ⟨server, s.lines, s.answers, held, dials, begun, taken, phase⟩) :
    Inv v (history ++ [r]) ⟨server, s.lines, s.answers, held, dials, begun, taken, phase⟩ := by
  refine ⟨fun l hl => ?_, fun a ha => ?_, hheld, ?_, ?_, hasks, hholds⟩
  · obtain ⟨hsocket, hcalled, hattempt⟩ := h.lines l hl
    exact ⟨Nat.lt_of_lt_of_le hsocket hdials, List.mem_append_left _ hcalled, hattempt.mono _⟩
  · exact Nat.lt_of_lt_of_le (h.answers a ha) hdials
  · rw [ranIds_snoc hr]
    exact h.nodup
  · rw [ranIds_snoc hr]
    exact hids

/-- A step that does nothing. -/
theorem Inv.silent (h : Inv v history s) : Inv v (history ++ [.silent]) s :=
  h.move rfl (Nat.le_refl _) h.held h.ids
    (fun req attempt hasks => ⟨List.mem_append_left _ (h.asks req attempt hasks).1,
      (h.asks req attempt hasks).2.mono _⟩) (h.holds.mono _)

/-- The numbers that were taken do not matter. -/
theorem Inv.take (h : Inv v history s) : Inv v history s.take :=
  ⟨h.lines, h.answers, h.held, h.nodup, h.ids, h.asks, h.holds⟩

/-- The ids allow for a phase that has more attempts behind it. -/
theorem Inv.ids_used (h : Inv v history s) {phase : Phase Req}
    (hused : s.phase.used ≤ phase.used) :
    ∀ id ∈ s.lines.map Line.id ++ ranIds history,
      id.1 ≤ s.begun ∧ (id.1 = s.begun → id.2 < phase.used) := fun id hid =>
  ⟨(h.ids id hid).1, fun heq => Nat.lt_of_lt_of_le ((h.ids id hid).2 heq) hused⟩

/-- The client gives up its socket and moves on to a phase that needs none. -/
theorem Inv.drop (h : Inv v history s) {r : Record σ Req Rep Other} (hr : r.ran? = none)
    {phase : Phase Req} (hused : s.phase.used ≤ phase.used)
    (hasks : ∀ req attempt, phase.asks = some (req, attempt) →
      .called s.begun req ∈ history ++ [r] ∧ Attempted (history ++ [r]) s.begun attempt)
    (hphase : phase = .idle ∨ ∃ req attempt, phase = .dialing req attempt) :
    Inv v (history ++ [r]) { s with held := none, phase := phase } := by
  refine h.move hr (Nat.le_refl _) nofun (h.ids_used hused) hasks ?_
  rcases hphase with rfl | ⟨req, attempt, rfl⟩
  · exact nofun
  · rfl

theorem lose_inv (h : Inv v history s) {req : Req} {attempt : Nat}
    (hasks : s.phase.asks = some (req, attempt)) (hused : s.phase.used ≤ attempt + 1)
    (detail : String) :
    Paired v history (lose s req attempt detail).1 ∧
      Inv v (history ++ [(lose s req attempt detail : Record σ Req Rep Other × _).1])
        (lose s req attempt detail : Record σ Req Rep Other × _).2 := by
  obtain ⟨hcalled, hattempt⟩ := h.asks req attempt hasks
  unfold lose
  split
  next hzero =>
    refine ⟨trivial, h.drop rfl (by rw [hzero] at hused; exact hused) ?_ (.inr ⟨_, _, rfl⟩)⟩
    intro req' attempt' heq
    cases heq
    exact ⟨List.mem_append_left _ hcalled, .inr ⟨rfl, by simp⟩⟩
  next hlater =>
    have hone := hattempt.le
    refine ⟨⟨req, hcalled, nofun⟩, h.drop rfl ?_ nofun (.inl rfl)⟩
    show s.phase.used ≤ 2
    omega

theorem timeOut_inv (h : Inv v history s) {req : Req} {attempt : Nat}
    (hasks : s.phase.asks = some (req, attempt)) (hused : s.phase.used ≤ attempt + 1) :
    Paired v history (timeOut s).1 ∧
      Inv v (history ++ [(timeOut s : Record σ Req Rep Other × _).1])
        (timeOut s : Record σ Req Rep Other × _).2 := by
  obtain ⟨hcalled, hattempt⟩ := h.asks req attempt hasks
  have hone := hattempt.le
  refine ⟨⟨req, hcalled, nofun⟩, h.drop rfl ?_ nofun (.inl rfl)⟩
  show s.phase.used ≤ 2
  omega

theorem quiet_fresh (h : Inv v history s) : Quiet s s.dials := by
  refine ⟨List.filter_eq_nil_iff.mpr fun l hl => ?_, List.filter_eq_nil_iff.mpr fun a ha => ?_⟩
  · have hlt := (h.lines l hl).1
    simp only [decide_eq_true_eq]
    omega
  · have hlt := h.answers a ha
    simp only [decide_eq_true_eq]
    omega

theorem call_inv (h : Inv v history s) (hphase : s.phase = .idle) (req : Req) :
    Inv v (history ++ [.called (s.begun + 1) req])
      { s with begun := s.begun + 1, phase := .attempting req 0 s.held } := by
  have hquiet : ∀ socket ∈ s.held, Quiet s socket := by
    have hholds := h.holds
    rwa [Holds, hphase] at hholds
  have hasks : (Phase.attempting req 0 s.held).asks = some (req, 0) := by
    unfold Phase.attempting
    split <;> rfl
  refine h.move rfl (Nat.le_refl _) h.held (fun id hid => ?_) (fun req' attempt' heq => ?_) ?_
  · have hle := (h.ids id hid).1
    exact ⟨by omega, fun heq => by omega⟩
  · rw [hasks] at heq
    cases heq
    exact ⟨by simp, .inl rfl⟩
  · unfold Phase.attempting Holds
    cases hheld : s.held with
    | none => rfl
    | some socket => exact ⟨socket, rfl, hquiet socket hheld⟩

theorem dialOk_inv (h : Inv v history s) {req : Req} {attempt : Nat}
    (hphase : s.phase = .dialing req attempt) :
    Inv v (history ++ [.silent])
      { s with held := some s.dials, dials := s.dials + 1, phase := .writing req attempt } := by
  refine h.move rfl (Nat.le_succ _) (fun socket hsocket => ?_) (h.ids_used ?_)
    (fun req' attempt' heq => ?_) ⟨s.dials, rfl, quiet_fresh h⟩
  · cases hsocket
    exact Nat.lt_succ_self _
  · rw [hphase]
    exact Nat.le_refl _
  · cases heq
    obtain ⟨hcalled, hattempt⟩ := h.asks req attempt (by rw [hphase]; rfl)
    exact ⟨List.mem_append_left _ hcalled, hattempt.mono _⟩

theorem dialFails_inv (h : Inv v history s) {req : Req} {attempt : Nat}
    (hphase : s.phase = .dialing req attempt) (detail : String) :
    Paired v history (.returned s.begun (.refused detail)) ∧
      Inv v (history ++ [.returned s.begun (.refused detail)]) { s with phase := .idle } := by
  obtain ⟨hcalled, hattempt⟩ := h.asks req attempt (by rw [hphase]; rfl)
  have hone := hattempt.le
  have hheld : s.held = none := by
    have hholds := h.holds
    rwa [Holds, hphase] at hholds
  refine ⟨⟨req, hcalled, nofun⟩, h.move rfl (Nat.le_refl _) h.held (h.ids_used ?_) nofun ?_⟩
  · rw [hphase]
    show attempt ≤ 2
    omega
  · intro socket hsocket
    rw [hheld] at hsocket
    cases hsocket

theorem write_inv (h : Inv v history s) {req : Req} {attempt socket : Nat}
    (hphase : s.phase = .writing req attempt) (hheld : s.held = some socket) :
    Inv v (history ++ [.silent])
      { s with
        lines := s.lines ++ [⟨socket, s.taken + 1, s.begun, attempt, req⟩]
        taken := s.taken + 1
        phase := .reading req attempt } := by
  obtain ⟨hcalled, hattempt⟩ := h.asks req attempt (by rw [hphase]; rfl)
  have hquiet : Quiet s socket := by
    have hholds := h.holds
    rw [Holds, hphase] at hholds
    obtain ⟨socket', hheld', hquiet⟩ := hholds
    cases hheld.symm.trans hheld'
    exact hquiet
  let line : Line Req := ⟨socket, s.taken + 1, s.begun, attempt, req⟩
  have hperm : ((s.lines ++ [line]).map Line.id ++ ranIds history).Perm
      ((s.begun, attempt) :: (s.lines.map Line.id ++ ranIds history)) := by
    rw [List.map_append, List.append_assoc]
    exact List.perm_middle
  have hran : ranIds (history ++ [(.silent : Record σ Req Rep Other)]) = ranIds history :=
    ranIds_snoc rfl
  refine ⟨fun l hl => ?_, h.answers, h.held, ?_, fun id hid => ?_, ?_, ?_⟩
  · rcases List.mem_append.mp hl with hl | hl
    · obtain ⟨hsocket, hcalled', hattempt'⟩ := h.lines l hl
      exact ⟨hsocket, List.mem_append_left _ hcalled', hattempt'.mono _⟩
    · cases List.mem_singleton.mp hl
      exact ⟨h.held socket hheld, List.mem_append_left _ hcalled, hattempt.mono _⟩
  · rw [hran, hperm.nodup_iff, List.nodup_cons]
    refine ⟨fun hmem => ?_, h.nodup⟩
    have hlt := (h.ids _ hmem).2 rfl
    rw [hphase] at hlt
    exact Nat.lt_irrefl _ hlt
  · rw [hran] at hid
    show id.1 ≤ s.begun ∧ (id.1 = s.begun → id.2 < attempt + 1)
    rcases List.mem_cons.mp (hperm.mem_iff.mp hid) with rfl | hid
    · exact ⟨Nat.le_refl _, fun _ => Nat.lt_succ_self _⟩
    · obtain ⟨hle, hlt⟩ := h.ids id hid
      rw [hphase] at hlt
      exact ⟨hle, fun heq => Nat.lt_succ_of_lt (hlt heq)⟩
  · intro req' attempt' heq
    cases heq
    exact ⟨List.mem_append_left _ hcalled, hattempt.mono _⟩
  · refine ⟨socket, hheld, .inl ⟨s.taken + 1, ?_, hquiet.2⟩⟩
    show (s.lines ++ [_]).filter _ = _
    rw [List.filter_append, hquiet.1, List.nil_append, List.filter_cons_of_pos (by simp),
      List.filter_nil]

theorem read_inv (h : Inv v history s) {req : Req} {attempt socket : Nat} {answer : Answer Rep}
    (hphase : s.phase = .reading req attempt) (hheld : s.held = some socket)
    (hfind : s.answers.find? (·.socket = socket) = some answer) :
    Paired v history (.returned s.begun (.answered answer.rep)) ∧
      Inv v (history ++ [.returned s.begun (.answered answer.rep)])
        { s with answers := s.answers.eraseP (·.socket = socket), phase := .idle } := by
  have hone : OneUnderWay v history s req attempt socket := by
    have hholds := h.holds
    rw [Holds, hphase] at hholds
    obtain ⟨socket', hheld', hone⟩ := hholds
    cases hheld.symm.trans hheld'
    exact hone
  have hsplit := filter_eraseP hfind
  rcases hone with ⟨-, -, hnone⟩ | ⟨hlines, answer', serial, before, hanswers, hrep, hran⟩
  · rw [hnone] at hsplit
    cases hsplit
  rw [hanswers] at hsplit
  obtain ⟨rfl, hrest⟩ := List.cons.inj hsplit
  have hcalled := (h.asks req attempt (by rw [hphase]; rfl)).1
  refine ⟨⟨req, hcalled, fun rep heq => ?_⟩, ?_⟩
  · cases heq
    exact ⟨attempt, serial, before, hran, hrep⟩
  have hids : ranIds (history ++
      [(.returned s.begun (.answered answer'.rep) : Record σ Req Rep Other)]) = ranIds history :=
    ranIds_snoc rfl
  refine ⟨fun l hl => ?_, fun a ha => h.answers a (List.mem_of_mem_eraseP ha), h.held, ?_, ?_,
    nofun, ?_⟩
  · obtain ⟨hsocket, hcalled, hattempt⟩ := h.lines l hl
    exact ⟨hsocket, List.mem_append_left _ hcalled, hattempt.mono _⟩
  · rw [hids]
    exact h.nodup
  · rw [hids]
    refine h.ids_used ?_
    have hle := (h.asks req attempt (by rw [hphase]; rfl)).2.le
    rw [hphase]
    show attempt + 1 ≤ 2
    omega
  · intro socket' hsocket'
    cases hheld.symm.trans hsocket'
    exact ⟨hlines, hrest.symm⟩

/-- The socket that is held, while the server reads a line of any socket. -/
theorem holds_serve (h : Inv v history s) {socket : Nat} {line : Line Req}
    (hfind : s.lines.find? (·.socket = socket) = some line) :
    Holds v (history ++ [.ran line.call line.attempt line.serial line.req s.server])
      { s with
        server := (v.serve line.serial line.req s.server).2
        lines := s.lines.eraseP (·.socket = socket)
        answers := s.answers ++
          [⟨socket, line.call, (v.serve line.serial line.req s.server).1⟩] } := by
  have hsplit := filter_eraseP hfind
  let answer : Answer Rep := ⟨socket, line.call, (v.serve line.serial line.req s.server).1⟩
  -- On another socket nothing changes.
  have hother {socket' : Nat} (hne : socket' ≠ socket) :
      ((s.lines.eraseP (·.socket = socket)).filter fun l => l.socket = socket') =
        (s.lines.filter fun l => l.socket = socket') ∧
      ((s.answers ++ [answer]).filter fun a => a.socket = socket') =
        (s.answers.filter fun a => a.socket = socket') := by
    refine ⟨filter_eraseP_other fun l hl => ?_, ?_⟩
    · simp only [decide_eq_true_eq] at hl
      simp only [hl, decide_eq_false_iff_not]
      exact Ne.symm hne
    · rw [List.filter_append, List.filter_cons_of_neg (by simpa using Ne.symm hne), List.filter_nil,
        List.append_nil]
  have hquiet {socket' : Nat} (hq : Quiet s socket') : socket' ≠ socket := by
    rintro rfl
    rw [hq.1] at hsplit
    cases hsplit
  have hholds := h.holds
  unfold Holds at hholds ⊢
  cases hphase : s.phase with
  | idle =>
      rw [hphase] at hholds
      intro socket' hsocket'
      have hq := hholds socket' hsocket'
      obtain ⟨hlines, hanswers⟩ := hother (hquiet hq)
      exact ⟨hlines.trans hq.1, hanswers.trans hq.2⟩
  | dialing req attempt =>
      rw [hphase] at hholds
      exact hholds
  | writing req attempt =>
      rw [hphase] at hholds
      obtain ⟨socket', hheld, hq⟩ := hholds
      obtain ⟨hlines, hanswers⟩ := hother (hquiet hq)
      exact ⟨socket', hheld, hlines.trans hq.1, hanswers.trans hq.2⟩
  | reading req attempt =>
      rw [hphase] at hholds
      obtain ⟨socket', hheld, hone⟩ := hholds
      refine ⟨socket', hheld, ?_⟩
      by_cases hsame : socket' = socket
      · subst hsame
        rcases hone with ⟨serial, hline, hnone⟩ | ⟨hnone, -⟩
        · rw [hline] at hsplit
          obtain ⟨rfl, hrest⟩ := List.cons.inj hsplit
          refine .inr ⟨hrest.symm, answer, serial, s.server, ?_, rfl, by simp⟩
          show (s.answers ++ [_]).filter _ = _
          rw [List.filter_append, hnone, List.nil_append, List.filter_cons_of_pos (by simp),
            List.filter_nil]
        · rw [hnone] at hsplit
          cases hsplit
      · obtain ⟨hlines, hanswers⟩ := hother hsame
        rcases hone with ⟨serial, hline, hnone⟩ |
          ⟨hnone, answer, serial, before, hanswer, hrep, hran⟩
        · exact .inl ⟨serial, hlines.trans hline, hanswers.trans hnone⟩
        · exact .inr ⟨hlines.trans hnone, answer, serial, before, hanswers.trans hanswer, hrep,
            List.mem_append_left _ hran⟩

theorem serve_inv (h : Inv v history s) {socket : Nat} {line : Line Req}
    (hfind : s.lines.find? (·.socket = socket) = some line) :
    Paired v history (.ran line.call line.attempt line.serial line.req s.server) ∧
      Inv v (history ++ [.ran line.call line.attempt line.serial line.req s.server])
        { s with
          server := (v.serve line.serial line.req s.server).2
          lines := s.lines.eraseP (·.socket = socket)
          answers := s.answers ++
          [⟨socket, line.call, (v.serve line.serial line.req s.server).1⟩] } := by
  obtain ⟨front, back, hlist, herase, hsocket, -⟩ := split_of_find hfind
  have hmem : line ∈ s.lines := by
    rw [hlist]
    simp
  obtain ⟨hdialed, hcalled, hattempt⟩ := h.lines line hmem
  have hran : ranIds (history ++ [.ran line.call line.attempt line.serial line.req s.server]) =
      ranIds history ++ [line.id] := by
    rw [ranIds, List.filterMap_append]
    rfl
  -- The line goes from one list to the other.
  have hperm : ((front ++ back).map Line.id ++ (ranIds history ++ [line.id])).Perm
      (s.lines.map Line.id ++ ranIds history) := by
    rw [hlist, List.map_append, List.map_append, List.map_cons, ← List.append_assoc]
    refine (List.perm_append_singleton _ _).trans ?_
    rw [List.append_assoc, List.append_assoc]
    exact List.perm_middle.symm
  have hnew : line.id ∉ ranIds history := by
    have hnodup := h.nodup
    rw [hlist] at hnodup
    intro hin
    exact (List.nodup_append.mp hnodup).2.2 line.id (by simp) line.id hin rfl
  refine ⟨⟨hcalled, hnew, hattempt⟩, fun l hl => ?_, fun a ha => ?_, h.held, ?_, fun id hid => ?_,
    fun req attempt hasks => ?_, holds_serve h hfind⟩
  · obtain ⟨hsocket', hcalled', hattempt'⟩ := h.lines l (List.mem_of_mem_eraseP hl)
    exact ⟨hsocket', List.mem_append_left _ hcalled', hattempt'.mono _⟩
  · rcases List.mem_append.mp ha with ha | ha
    · exact h.answers a ha
    · cases List.mem_singleton.mp ha
      simp only [decide_eq_true_eq] at hsocket
      rw [← hsocket]
      exact hdialed
  · rw [hran]
    show ((s.lines.eraseP _).map Line.id ++ _).Nodup
    rw [herase]
    exact hperm.nodup_iff.mpr h.nodup
  · rw [hran] at hid
    change id ∈ (s.lines.eraseP _).map Line.id ++ _ at hid
    rw [herase] at hid
    exact h.ids id (hperm.mem_iff.mp hid)
  · obtain ⟨hcalled', hattempt'⟩ := h.asks req attempt hasks
    exact ⟨List.mem_append_left _ hcalled', hattempt'.mono _⟩

theorem step_inv (h : Inv v history s) (e : Event Req Other) :
    Paired v history (step v e s).1 ∧ Inv v (history ++ [(step v e s).1]) (step v e s).2 := by
  cases e with
  | call req =>
      simp only [step]
      split
      next hphase => exact ⟨trivial, call_inv h hphase req⟩
      next => exact ⟨trivial, h.silent⟩
  | dialOk =>
      simp only [step]
      split
      next req attempt hphase => exact ⟨trivial, dialOk_inv h hphase⟩
      next => exact ⟨trivial, h.silent⟩
  | dialFails detail =>
      simp only [step]
      split
      next req attempt hphase => exact dialFails_inv h hphase detail
      next => exact ⟨trivial, h.silent⟩
  | write =>
      simp only [step]
      split
      next req attempt socket hphase hheld => exact ⟨trivial, write_inv h hphase hheld⟩
      next => exact ⟨trivial, h.silent⟩
  | lose detail =>
      simp only [step]
      split
      next req attempt hphase =>
        have hasks : s.take.phase.asks = some (req, attempt) := congrArg Phase.asks hphase
        have hused : s.take.phase.used = attempt := congrArg Phase.used hphase
        exact lose_inv h.take hasks (by omega) detail
      next req attempt hphase =>
        exact lose_inv h (by rw [hphase]; rfl) (by rw [hphase]; exact Nat.le_refl _) detail
      next => exact ⟨trivial, h.silent⟩
  | timeOut =>
      simp only [step]
      split
      next req attempt hphase =>
        have hasks : s.take.phase.asks = some (req, attempt) := congrArg Phase.asks hphase
        have hused : s.take.phase.used = attempt := congrArg Phase.used hphase
        exact timeOut_inv h.take hasks (by omega)
      next req attempt hphase =>
        exact timeOut_inv h (by rw [hphase]; rfl) (by rw [hphase]; exact Nat.le_refl _)
      next => exact ⟨trivial, h.silent⟩
  | read =>
      simp only [step]
      split
      next req attempt socket hphase hheld =>
        split
        next answer hfind => exact read_inv h hphase hheld hfind
        next => exact ⟨trivial, h.silent⟩
      next => exact ⟨trivial, h.silent⟩
  | serve socket =>
      simp only [step]
      split
      next line hfind => exact serve_inv h hfind
      next => exact ⟨trivial, h.silent⟩
  | other o =>
      exact ⟨trivial, h.move rfl (Nat.le_refl _) h.held h.ids
        (fun req attempt hasks => ⟨List.mem_append_left _ (h.asks req attempt hasks).1,
          (h.asks req attempt hasks).2.mono _⟩) (h.holds.mono _)⟩

end Step

/-! ## Whole runs -/

theorem start_inv (v : Server σ Req Rep Other) (server : σ) : Inv v [] (System.start server) :=
  ⟨nofun, nofun, nofun, List.nodup_nil, nofun, nofun, nofun⟩

theorem run_inv (v : Server σ Req Rep Other) (server : σ) (events : List (Event Req Other)) :
    Inv v (run (step v) events (System.start server)).1
        (run (step v) events (System.start server)).2 ∧
      EveryStep (Paired v) (run (step v) events (System.start server)).1 :=
  run_rule (step v) (Inv v) (fun _ => True) (Paired v) (fun _ _ e _ h => step_inv h e)
    (start_inv v server) fun _ _ => trivial

theorem run_paired (v : Server σ Req Rep Other) (server : σ) (events : List (Event Req Other)) :
    EveryStep (Paired v) (run (step v) events (System.start server)).1 :=
  (run_inv v server events).2

/-- The attempts of a call that were run. -/
def attemptsRun (history : List (Record σ Req Rep Other)) (n : Nat) : List Nat :=
  ((ranIds history).filter fun id => id.1 = n).map (·.2)

theorem attemptsRun_nodup {history : List (Record σ Req Rep Other)}
    (h : (ranIds history).Nodup) (n : Nat) : (attemptsRun history n).Nodup := by
  refine (h.filter _).map_on fun a ha b hb heq => ?_
  have hfirst : a.1 = b.1 := by
    simp only [List.mem_filter, decide_eq_true_eq] at ha hb
    exact ha.2.trans hb.2.symm
  exact Prod.ext hfirst heq

theorem mem_attemptsRun {history : List (Record σ Req Rep Other)} {n attempt : Nat} :
    attempt ∈ attemptsRun history n ↔
      ∃ serial req before, .ran n attempt serial req before ∈ history := by
  have hmem : attempt ∈ attemptsRun history n ↔ (n, attempt) ∈ ranIds history := by
    simp [attemptsRun]
  rw [hmem, ranIds, List.mem_filterMap]
  constructor
  · intro ⟨r, hr, hran⟩
    cases r with
    | ran n' attempt' serial req before =>
        cases hran
        exact ⟨serial, req, before, hr⟩
    | _ => cases hran
  · intro ⟨serial, req, before, hr⟩
    exact ⟨_, hr, rfl⟩

/-- A line that was run stands in the history once. -/
theorem ran_unique {history : List (Record σ Req Rep Other)} (h : (ranIds history).Nodup)
    {n attempt serial serial' : Nat} {req req' : Req} {s s' : σ}
    (hran : .ran n attempt serial req s ∈ history)
    (hran' : .ran n attempt serial' req' s' ∈ history) :
    serial = serial' ∧ req = req' ∧ s = s' := by
  obtain ⟨front, back, rfl⟩ := List.append_of_mem hran
  have hsplit : ranIds (front ++ .ran n attempt serial req s :: back) =
      ranIds front ++ (n, attempt) :: ranIds back := by
    rw [ranIds, List.filterMap_append]
    rfl
  rw [hsplit, List.nodup_append, List.nodup_cons] at h
  have hin {l : List (Record σ Req Rep Other)} (hl : .ran n attempt serial' req' s' ∈ l) :
      (n, attempt) ∈ ranIds l := List.mem_filterMap.mpr ⟨_, hl, rfl⟩
  rcases List.mem_append.mp hran' with hfront | hback
  · exact absurd rfl (h.2.2 _ (hin hfront) _ List.mem_cons_self)
  · rcases List.mem_cons.mp hback with heq | hback
    · cases heq
      exact ⟨rfl, rfl, rfl⟩
    · exact absurd (hin hback) h.2.1.1

/-- In front of any record the lines that were run stand once. -/
theorem run_nodup (v : Server σ Req Rep Other) (server : σ) (events : List (Event Req Other))
    {before after : List (Record σ Req Rep Other)} {r : Record σ Req Rep Other}
    (heq : (run (step v) events (System.start server)).1 = before ++ r :: after) :
    (ranIds before).Nodup := by
  have hnodup := (List.nodup_append.mp (run_inv v server events).1.nodup).2.1
  rw [heq, ranIds, List.filterMap_append] at hnodup
  exact (List.nodup_append.mp hnodup).1

/-- Without a loss the first attempt of a call is its only one. -/
theorem first_attempt {v : Server σ Req Rep Other} {history : List (Record σ Req Rep Other)}
    (h : EveryStep (Paired v) history) {n attempt serial : Nat} {req : Req} {s : σ}
    (hran : .ran n attempt serial req s ∈ history) (hlost : .lostFirst n ∉ history) :
    attempt = 0 := by
  obtain ⟨before, after, rfl⟩ := List.append_of_mem hran
  rcases (h before _ after rfl).2.2 with h | ⟨-, h⟩
  · exact h
  · exact absurd (List.mem_append_left _ h) hlost

/-- A list of numbers up to one, none of them twice. -/
theorem length_le_two {l : List Nat} (hnodup : l.Nodup) (hle : ∀ a ∈ l, a ≤ 1) :
    l.length ≤ 2 := by
  have hsubset : l ⊆ [0, 1] := by
    intro a ha
    have hone := hle a ha
    rcases (show a = 0 ∨ a = 1 by omega) with rfl | rfl
    · simp
    · simp
  have hsub := (List.subperm_of_subset hnodup hsubset).length_le
  exact hsub

/-- A question is run at most twice, and twice only where the first attempt was lost. -/
theorem runs_le_two (v : Server σ Req Rep Other) (server : σ) (events : List (Event Req Other))
    (n : Nat) :
    let history := (run (step v) events (System.start server)).1
    (attemptsRun history n).length ≤ 2 ∧
      (2 ≤ (attemptsRun history n).length → .lostFirst n ∈ history) := by
  intro history
  obtain ⟨hinv, hpaired⟩ := run_inv v server events
  have hattempted : ∀ attempt ∈ attemptsRun history n, Attempted history n attempt := by
    intro attempt hmem
    obtain ⟨serial, req, s, hran⟩ := mem_attemptsRun.mp hmem
    obtain ⟨before, after, heq⟩ := List.append_of_mem hran
    have hbefore := (hpaired before _ after heq).2.2
    rw [heq]
    exact hbefore.mono _
  have hnodup : (attemptsRun history n).Nodup :=
    attemptsRun_nodup (List.nodup_append.mp hinv.nodup).2.1 n
  constructor
  · exact length_le_two hnodup fun attempt hmem => (hattempted attempt hmem).le
  · intro htwo
    by_contra hlost
    have hzero : ∀ attempt ∈ attemptsRun history n, attempt = 0 := by
      intro attempt hmem
      rcases hattempted attempt hmem with h | ⟨-, h⟩
      · exact h
      · exact absurd h hlost
    have hone : (attemptsRun history n).length ≤ 1 := by
      have hsubset : attemptsRun history n ⊆ [0] := fun a ha => by simp [hzero a ha]
      exact (List.subperm_of_subset hnodup hsubset).length_le
    omega

/-! ## The server of a run -/

/-- What a record says about the server it left behind. -/
def Record.Moves (v : Server σ Req Rep Other) (s s' : σ) : Record σ Req Rep Other → Prop
  | .ran _ _ serial req before => before = s ∧ s' = (v.serve serial req s).2
  | .touched o before => before = s ∧ s' = v.other o s
  | _ => s' = s

theorem lose_server {v : Server σ Req Rep Other} (s : System σ Req Rep) (req : Req)
    (attempt : Nat) (detail : String) :
    (lose s req attempt detail : Record σ Req Rep Other × _).1.Moves v s.server
      (lose s req attempt detail : Record σ Req Rep Other × _).2.server := by
  unfold lose
  split <;> rfl

/-- Only a line that is run and the rest of the world move the server. -/
theorem step_moves (v : Server σ Req Rep Other) (e : Event Req Other) (s : System σ Req Rep) :
    (step v e s).1.Moves v s.server (step v e s).2.server := by
  cases e with
  | call req =>
      simp only [step]
      split <;> rfl
  | dialOk =>
      simp only [step]
      split <;> rfl
  | dialFails detail =>
      simp only [step]
      split <;> rfl
  | write =>
      simp only [step]
      split <;> rfl
  | lose detail =>
      simp only [step]
      split
      next => exact lose_server s.take _ _ detail
      next => exact lose_server s _ _ detail
      next => rfl
  | timeOut =>
      simp only [step]
      split <;> rfl
  | read =>
      simp only [step]
      split
      next =>
        split <;> rfl
      next => rfl
  | serve socket =>
      simp only [step]
      split
      next => exact ⟨rfl, rfl⟩
      next => rfl
  | other o => exact ⟨rfl, rfl⟩

/-- The invariant rule for the server of a run: what the lines that are run and the rest of
the world keep. -/
theorem server_rule (v : Server σ Req Rep Other) (I : List (Record σ Req Rep Other) → σ → Prop)
    (P : List (Record σ Req Rep Other) → Record σ Req Rep Other → Prop)
    (hstep : ∀ history r s s', Record.Moves v s s' r → I history s →
      P history r ∧ I (history ++ [r]) s')
    {server : σ} (hstart : I [] server) (events : List (Event Req Other)) :
    I (run (step v) events (System.start server)).1
        (run (step v) events (System.start server)).2.server ∧
      EveryStep P (run (step v) events (System.start server)).1 :=
  run_rule (step v) (fun history s => I history s.server) (fun _ => True) P
    (fun history s e _ h => hstep history _ _ _ (step_moves v e s) h) hstart
    fun _ _ => trivial

end PgBrakes.Verified.LineRpc
