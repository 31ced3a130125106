import PgBrakes.Verified.Effect
import PgBrakes.Verified.History

/-!
# A connection that is dialed again

A program that holds at most one connection, and dials when it holds none.  A request over a
connection is answered, denied, or lost together with the connection.  A connection that was
lost is given up, and the request is repeated on a new one as often as the program has
attempts left.

Connections are numbered as they are dialed.  Dials and requests are logged with their
outcome; the log may hold other calls as well, which are none of its business.

## Main results

* `withClient_keeps` — over any number of requests, no connection is used before it was
  dialed or after it was lost, and none is dialed while another one lives.
* `withClient_asks` — what one request sends: itself, once for each attempt, up to the first
  answer.
-/

namespace PgBrakes.Verified.Redial

open PgBrakes.Verified.Effect
open PgBrakes.Verified.History

variable {ω Req Rep Bad κ : Type}

/-- How a request ended that was not answered. -/
inductive Failure (Bad : Type) where
  | lost (detail : String)
  | denied (reason : Bad)

/-- The other end, and the errors of the program itself. -/
structure Peer (ω Req Rep Bad : Type) where
  dial : ω → Except Bad Unit × ω
  exec : Nat → Req → ω → Except (Failure Bad) Rep × ω
  unavailable : String → Bad
  exhausted : Bad

/-- The world, the connection that is held, and how many were dialed. -/
structure Line (ω : Type) where
  world : ω
  held : Option Nat
  dials : Nat

def Line.start (w : ω) : Line ω := ⟨w, none, 0⟩

inductive Event (Req Rep Bad : Type) where
  | dialed (client : Nat)
  | refused (reason : Bad)
  | sent (client : Nat) (req : Req) (answer : Except (Failure Bad) Rep)

def dialEvent : Except Bad Nat → Event Req Rep Bad
  | .ok c => .dialed c
  | .error reason => .refused reason

def dial (p : Peer ω Req Rep Bad) : Eff (Line ω) Bad Nat := fun l =>
  match p.dial l.world with
  | (.ok (), w) => (.ok l.dials, ⟨w, some l.dials, l.dials + 1⟩)
  | (.error reason, w) => (.error reason, { l with world := w })

/-- A loss takes the connection with it. -/
def exec (p : Peer ω Req Rep Bad) (c : Nat) (req : Req) : Eff (Line ω) (Failure Bad) Rep :=
  fun l =>
    match p.exec c req l.world with
    | (.ok rep, w) => (.ok rep, { l with world := w })
    | (.error (.denied reason), w) => (.error (.denied reason), { l with world := w })
    | (.error (.lost detail), w) => (.error (.lost detail), { l with world := w, held := none })

/-- The connection that is held, or a new one. -/
def client (p : Peer ω Req Rep Bad) : Eff (Logged (Line ω) (Event Req Rep Bad ⊕ κ)) Bad Nat :=
  fun s =>
    match s.world.held with
    | some c => (.ok c, s)
    | none => perform (dial p) (fun r => .inl (dialEvent r)) s

def request (p : Peer ω Req Rep Bad) (c : Nat) (req : Req) :
    Eff (Logged (Line ω) (Event Req Rep Bad ⊕ κ)) (Failure Bad) Rep :=
  perform (exec p c req) fun r => .inl (.sent c req r)

/-- The request, on the connection that is held or on a new one, as long as attempts are
left. -/
def withClient (p : Peer ω Req Rep Bad) (req : Req) :
    Nat → Eff (Logged (Line ω) (Event Req Rep Bad ⊕ κ)) Bad Rep
  | 0 => Eff.fail p.exhausted
  | n + 1 => do
      let c ← client p
      match ← Eff.attempt (request p c req) with
      | .ok rep => pure rep
      | .error (.denied reason) => Eff.fail reason
      | .error (.lost detail) =>
          if n = 0 then Eff.fail (p.unavailable detail) else withClient p req n

/-! ## No connection outlives its loss -/

/-- The dials and requests of a log. -/
def wireLog (log : List (Event Req Rep Bad ⊕ κ)) : List (Event Req Rep Bad) :=
  log.filterMap Sum.getLeft?

theorem wireLog_append (a b : List (Event Req Rep Bad ⊕ κ)) :
    wireLog (a ++ b) = wireLog a ++ wireLog b := List.filterMap_append

theorem wireLog_snoc (log : List (Event Req Rep Bad ⊕ κ)) (e : Event Req Rep Bad) :
    wireLog (log ++ [.inl e]) = wireLog log ++ [e] := wireLog_append log _

/-- The connection that the event dialed. -/
def Event.dials : Event Req Rep Bad → Option Nat
  | .dialed c => some c
  | _ => none

/-- The connection that was lost with the event. -/
def Event.loses : Event Req Rep Bad → Option Nat
  | .sent c _ (.error (.lost _)) => some c
  | _ => none

def Dialed (events : List (Event Req Rep Bad)) (c : Nat) : Prop :=
  ∃ e ∈ events, e.dials = some c

def Lost (events : List (Event Req Rep Bad)) (c : Nat) : Prop :=
  ∃ e ∈ events, e.loses = some c

/-- A request goes over a connection that was dialed and not lost, and a dial finds no
connection that was not lost. -/
def Orderly (before : List (Event Req Rep Bad)) : Event Req Rep Bad → Prop
  | .sent c _ _ => Dialed before c ∧ ¬ Lost before c
  | .dialed c => ¬ Dialed before c ∧ ∀ c', Dialed before c' → Lost before c'
  | .refused _ => ∀ c', Dialed before c' → Lost before c'

/-- The connection that is held is the one that was dialed and not lost. -/
structure Inv (events : List (Event Req Rep Bad)) (l : Line ω) : Prop where
  dialed : ∀ c, Dialed events c → c < l.dials
  lost : ∀ c, Lost events c → c < l.dials
  held : ∀ c, l.held = some c ↔ Dialed events c ∧ ¬ Lost events c
  orderly : EveryStep Orderly events

theorem start_inv (w : ω) : Inv ([] : List (Event Req Rep Bad)) (Line.start w) where
  dialed c h := by simp [Dialed] at h
  lost c h := by simp [Lost] at h
  held c := by simp [Line.start, Dialed]
  orderly := everyStep_nil _

section Steps

variable {events : List (Event Req Rep Bad)} {l : Line ω} {w : ω} {e : Event Req Rep Bad}
  {c : Nat}

theorem dialed_snoc : Dialed (events ++ [e]) c ↔ Dialed events c ∨ e.dials = some c := by
  simp [Dialed, or_and_right, exists_or]

theorem lost_snoc : Lost (events ++ [e]) c ↔ Lost events c ∨ e.loses = some c := by
  simp [Lost, or_and_right, exists_or]

/-- Where nothing is held, every connection was lost. -/
theorem Inv.all_lost (h : Inv events l) (hheld : l.held = none) :
    ∀ c, Dialed events c → Lost events c := by
  intro c hdialed
  by_cases hlost : Lost events c
  · exact hlost
  · have hsome := (h.held c).mpr ⟨hdialed, hlost⟩
    rw [hheld] at hsome
    cases hsome

/-- An event that neither dials nor loses a connection. -/
theorem Inv.quiet (h : Inv events l) (hdials : e.dials = none) (hloses : e.loses = none)
    (he : Orderly events e) : Inv (events ++ [e]) { l with world := w } := by
  have hdialed (c : Nat) : Dialed (events ++ [e]) c ↔ Dialed events c := by
    simp [dialed_snoc, hdials]
  have hlost (c : Nat) : Lost (events ++ [e]) c ↔ Lost events c := by
    simp [lost_snoc, hloses]
  exact
    { dialed := fun c hc => h.dialed c ((hdialed c).mp hc)
      lost := fun c hc => h.lost c ((hlost c).mp hc)
      held := by
        intro c
        rw [hdialed, hlost]
        exact h.held c
      orderly := h.orderly.snoc he }

/-- A new connection is held. -/
theorem Inv.dial (h : Inv events l) (hheld : l.held = none) :
    Inv (events ++ [.dialed l.dials]) ⟨w, some l.dials, l.dials + 1⟩ := by
  have hfresh : ¬ Dialed events l.dials := fun hmem => Nat.lt_irrefl _ (h.dialed _ hmem)
  have halive : ¬ Lost events l.dials := fun hlost => Nat.lt_irrefl _ (h.lost _ hlost)
  have hdialed (c : Nat) : Dialed (events ++ [.dialed l.dials]) c ↔
      Dialed events c ∨ l.dials = c := by
    simp [dialed_snoc, Event.dials]
  have hlost (c : Nat) : Lost (events ++ [.dialed l.dials]) c ↔ Lost events c := by
    simp [lost_snoc, Event.loses]
  refine ⟨?_, ?_, ?_, h.orderly.snoc ⟨hfresh, h.all_lost hheld⟩⟩
  · intro c hc
    show c < l.dials + 1
    rcases (hdialed c).mp hc with hc | rfl
    · have hlt := h.dialed c hc
      omega
    · omega
  · intro c hc
    show c < l.dials + 1
    have hlt := h.lost c ((hlost c).mp hc)
    omega
  · intro c
    rw [hdialed, hlost]
    show some l.dials = some c ↔ _
    constructor
    · intro heq
      cases heq
      exact ⟨.inr rfl, halive⟩
    · intro ⟨hor, hlive⟩
      rcases hor with hc | rfl
      · exact absurd (h.all_lost hheld c hc) hlive
      · rfl

/-- A loss gives up the connection that is held. -/
theorem Inv.lose (h : Inv events l) (hheld : l.held = some c) (req : Req) (detail : String) :
    Inv (events ++ [.sent c req (.error (.lost detail))]) { l with world := w, held := none } := by
  have hlive := (h.held c).mp hheld
  have hdialed (c' : Nat) : Dialed (events ++ [.sent c req (.error (.lost detail))]) c' ↔
      Dialed events c' := by
    simp [dialed_snoc, Event.dials]
  have hlost (c' : Nat) : Lost (events ++ [.sent c req (.error (.lost detail))]) c' ↔
      Lost events c' ∨ c = c' := by
    simp [lost_snoc, Event.loses]
  refine ⟨?_, ?_, ?_, h.orderly.snoc hlive⟩
  · intro c' hc'
    exact h.dialed c' ((hdialed c').mp hc')
  · intro c' hc'
    show c' < l.dials
    rcases (hlost c').mp hc' with hc' | rfl
    · exact h.lost c' hc'
    · exact h.dialed c hlive.1
  · intro c'
    rw [hdialed, hlost]
    show none = some c' ↔ _
    constructor
    · intro heq
      cases heq
    · intro ⟨hc', hnot⟩
      have heq := (h.held c').mpr ⟨hc', fun hl => hnot (.inl hl)⟩
      rw [hheld] at heq
      cases heq
      exact absurd (.inr rfl) hnot

end Steps

/-- The invariant of a log that continues another one. -/
def LineInv (front : List (Event Req Rep Bad)) (s : Logged (Line ω) (Event Req Rep Bad ⊕ κ)) :
    Prop :=
  Inv (front ++ wireLog s.log) s.world

theorem lineInv_snoc {front : List (Event Req Rep Bad)}
    {s : Logged (Line ω) (Event Req Rep Bad ⊕ κ)} {e : Event Req Rep Bad} {l : Line ω}
    (h : Inv ((front ++ wireLog s.log) ++ [e]) l) :
    LineInv front (⟨l, s.log ++ [.inl e]⟩ : Logged (Line ω) (Event Req Rep Bad ⊕ κ)) := by
  rw [LineInv, wireLog_snoc, ← List.append_assoc]
  exact h

/-- After `client` its connection is held. -/
theorem client_held (p : Peer ω Req Rep Bad) (front : List (Event Req Rep Bad)) :
    Eff.Triple (LineInv front) (client p : Eff (Logged (Line ω) (Event Req Rep Bad ⊕ κ)) Bad Nat)
      (fun c s => LineInv front s ∧ s.world.held = some c) (LineInv front) := by
  intro s hs
  unfold client
  cases hheld : s.world.held with
  | some c => exact ⟨hs, hheld⟩
  | none =>
      unfold perform dial
      rcases hdial : p.dial s.world.world with ⟨reason | ⟨⟩, w⟩
      · exact lineInv_snoc (Inv.quiet hs rfl rfl (hs.all_lost hheld))
      · exact ⟨lineInv_snoc (hs.dial hheld), rfl⟩

theorem request_keeps (p : Peer ω Req Rep Bad) (front : List (Event Req Rep Bad)) (c : Nat)
    (req : Req) :
    Eff.Triple (fun s => LineInv front s ∧ s.world.held = some c)
      (request p c req : Eff (Logged (Line ω) (Event Req Rep Bad ⊕ κ)) (Failure Bad) Rep)
      (fun _ => LineInv front) (LineInv front) := by
  intro s hs
  obtain ⟨hinv, hheld⟩ := hs
  have hlive := (hinv.held c).mp hheld
  unfold request perform exec
  rcases hexec : p.exec c req s.world.world with ⟨(detail | reason) | rep, w⟩
  · exact lineInv_snoc (hinv.lose hheld req detail)
  · exact lineInv_snoc (Inv.quiet hinv rfl rfl hlive)
  · exact lineInv_snoc (Inv.quiet hinv rfl rfl hlive)

/-- A request keeps the connections in order, however it ends. -/
theorem withClient_keeps (p : Peer ω Req Rep Bad) (front : List (Event Req Rep Bad)) (req : Req)
    (n : Nat) :
    Eff.Keeps (LineInv front)
      (withClient p req n : Eff (Logged (Line ω) (Event Req Rep Bad ⊕ κ)) Bad Rep) := by
  have htriple : Eff.Triple (LineInv front)
      (withClient p req n : Eff (Logged (Line ω) (Event Req Rep Bad ⊕ κ)) Bad Rep)
      (fun _ => LineInv front) (LineInv front) := by
    induction n with
    | zero => exact Eff.Triple.fail fun _ hs => hs
    | succ n ih =>
        refine Eff.Triple.bind (client_held p front) fun c => ?_
        refine Eff.Triple.attempt_bind (request_keeps p front c req) ?_ ?_
        · exact fun rep => Eff.Triple.pure fun _ hs => hs
        · intro e
          cases e with
          | denied reason => exact Eff.Triple.fail fun _ hs => hs
          | lost detail =>
              refine Eff.Triple.ite ?_ ?_
              · exact fun _ => Eff.Triple.fail fun _ hs => hs
              · exact fun _ => ih
  exact fun s hs => Eff.Keeps.of_triple htriple hs

/-! ## What one request sends -/

/-- The request of an event and its answer. -/
def Event.asks : Event Req Rep Bad → Option (Req × Except (Failure Bad) Rep)
  | .sent _ req answer => some (req, answer)
  | _ => none

/-- The requests of a log, with their answers. -/
def asked (log : List (Event Req Rep Bad ⊕ κ)) : List (Req × Except (Failure Bad) Rep) :=
  (wireLog log).filterMap Event.asks

theorem asked_append (a b : List (Event Req Rep Bad ⊕ κ)) :
    asked (a ++ b) = asked a ++ asked b := by
  rw [asked, wireLog_append, List.filterMap_append]
  rfl

/-- The answer that a request ended with. -/
def Final (answer : Except (Failure Bad) Rep) (r : Except Bad Rep) : Prop :=
  (∃ rep, answer = .ok rep ∧ r = .ok rep) ∨
    ∃ reason, answer = .error (.denied reason) ∧ r = .error reason

/-- Only the request is sent, and at most `n` times: some losses, and then the answer that it
ends with; without one it ends with an error. -/
def Repeats (req : Req) (n : Nat) (r : Except Bad Rep)
    (sends : List (Req × Except (Failure Bad) Rep)) : Prop :=
  ∃ (lost : List String) (last : Option (Except (Failure Bad) Rep)),
    sends = lost.map (fun detail => (req, .error (.lost detail))) ++
      last.toList.map (fun answer => (req, answer)) ∧
    lost.length + last.toList.length ≤ n ∧
    (∀ answer ∈ last, Final answer r) ∧ (last = none → ∃ reason, r = .error reason)

/-- A program that stops before it sends anything. -/
theorem repeats_nil {req : Req} {n : Nat} (reason : Bad) :
    Repeats req n (.error reason : Except Bad Rep) [] := by
  refine ⟨[], none, rfl, Nat.zero_le n, ?_, fun _ => ⟨reason, rfl⟩⟩
  intro answer h
  cases h

theorem repeats_final {req : Req} {n : Nat} {r : Except Bad Rep}
    {answer : Except (Failure Bad) Rep} (h : Final answer r) :
    Repeats req (n + 1) r [(req, answer)] := by
  refine ⟨[], some answer, rfl, Nat.le_add_left 1 n, ?_, ?_⟩
  · intro answer' heq
    cases heq
    exact h
  · intro heq
    cases heq

theorem repeats_lost {req : Req} {n : Nat} {r : Except Bad Rep}
    {sends : List (Req × Except (Failure Bad) Rep)} (h : Repeats req n r sends)
    (detail : String) :
    Repeats req (n + 1) r ((req, .error (.lost detail)) :: sends) := by
  obtain ⟨lost, last, rfl, hcount, hlast⟩ := h
  refine ⟨detail :: lost, last, rfl, ?_, hlast⟩
  show lost.length + 1 + last.toList.length ≤ n + 1
  omega

/-- The log of a program that only dials and sends. -/
def Asks (req : Req) (n : Nat) (r : Except Bad Rep) (es : List (Event Req Rep Bad ⊕ κ)) : Prop :=
  (∀ e ∈ es, ∃ w, e = .inl w) ∧ Repeats req n r (asked es)

/-- A connection is found without a request. -/
theorem client_traces (p : Peer ω Req Rep Bad) :
    Traces (fun _ => True) (fun _ es => (∀ e ∈ es, ∃ w, e = .inl w) ∧ asked es = [])
      (client p : Eff (Logged (Line ω) (Event Req Rep Bad ⊕ κ)) Bad Nat) := by
  intro s _
  unfold client
  cases hheld : s.world.held with
  | some c => exact ⟨[], by simp, ⟨by simp, rfl⟩, trivial⟩
  | none =>
      unfold perform dial
      rcases hdial : p.dial s.world.world with ⟨reason | ⟨⟩, w⟩
      · exact ⟨_, rfl, ⟨by simp, rfl⟩, trivial⟩
      · exact ⟨_, rfl, ⟨by simp, rfl⟩, trivial⟩

theorem asks_front {req : Req} {n : Nat} {r : Except Bad Rep}
    {es fs : List (Event Req Rep Bad ⊕ κ)} (hes : (∀ e ∈ es, ∃ w, e = .inl w) ∧ asked es = [])
    (h : Asks req n r fs) : Asks req n r (es ++ fs) := by
  refine ⟨List.forall_mem_append.mpr ⟨hes.1, h.1⟩, ?_⟩
  rw [asked_append, hes.2]
  exact h.2

theorem asks_sent {req : Req} {n : Nat} {r : Except Bad Rep} {c : Nat}
    {answer : Except (Failure Bad) Rep} {es : List (Event Req Rep Bad ⊕ κ)}
    (hes : ∀ e ∈ es, ∃ w, e = .inl w) (h : Repeats req n r ((req, answer) :: asked es)) :
    Asks req n r (.inl (.sent c req answer) :: es) :=
  ⟨List.forall_mem_cons.mpr ⟨⟨_, rfl⟩, hes⟩, h⟩

/-- A request sends itself, once for each attempt, up to the first answer. -/
theorem withClient_asks (p : Peer ω Req Rep Bad) (req : Req) (n : Nat) :
    Traces (fun _ => True) (Asks req n)
      (withClient p req n : Eff (Logged (Line ω) (Event Req Rep Bad ⊕ κ)) Bad Rep) := by
  induction n with
  | zero => exact Traces.fail ⟨by simp, repeats_nil p.exhausted⟩
  | succ n ih =>
      refine Traces.bind (client_traces p) ?_ ?_
      · intro reason es h
        refine ⟨h.1, ?_⟩
        rw [h.2]
        exact repeats_nil reason
      · intro c es hes s _
        have hsent (r : Except (Failure Bad) Rep) (l : Line ω)
            (hexec : exec p c req s.world = (r, l)) :
            request p c req s = (r, ⟨l, s.log ++ [.inl (.sent c req r)]⟩) := perform_of hexec
        rcases hexec : exec p c req s.world with ⟨(detail | reason) | rep, l⟩
        · rw [Eff.bind_of_ok (Eff.attempt_of (hsent _ l hexec))]
          by_cases hn : n = 0
          · refine ⟨[.inl (.sent c req (.error (.lost detail)))], ?_, ?_, trivial⟩
            · simp [hn]
            · simp only [hn, if_true]
              exact asks_front hes (asks_sent (by simp) (repeats_lost (repeats_nil _) detail))
          · simp only [hn, if_false]
            obtain ⟨fs, hlog, hasks, -⟩ :=
              ih ⟨l, s.log ++ [.inl (.sent c req (.error (.lost detail)))]⟩ trivial
            refine ⟨.inl (.sent c req (.error (.lost detail))) :: fs, ?_, ?_, trivial⟩
            · rw [hlog]
              simp
            · exact asks_front hes (asks_sent hasks.1 (repeats_lost hasks.2 detail))
        · rw [Eff.bind_of_ok (Eff.attempt_of (hsent _ l hexec))]
          refine ⟨[.inl (.sent c req (.error (.denied reason)))], rfl, ?_, trivial⟩
          exact asks_front hes (asks_sent (by simp) (repeats_final (.inr ⟨reason, rfl, rfl⟩)))
        · rw [Eff.bind_of_ok (Eff.attempt_of (hsent _ l hexec))]
          refine ⟨[.inl (.sent c req (.ok rep))], rfl, ?_, trivial⟩
          exact asks_front hes (asks_sent (by simp) (repeats_final (.inl ⟨rep, rfl, rfl⟩)))

end PgBrakes.Verified.Redial
