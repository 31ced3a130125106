import PgBrakes.Ports.ProxyOpening

/-!
# A connection as a whole

The stages of a connection put together: negotiation, proof, opening, welcome and loop.
Each stage is reached only behind a complete one, so the log of a connection is a row of
complete stages with a last one that may have stopped anywhere.  Everything said here is
read off that row.

## Main results

* `serveConnection_staged` — the log of every connection.
* `serve_proven` — nothing reaches the backend before the agent has proved itself.
* `serve_tls` — what is sent in the clear where TLS is required.
* `serve_opens` — the loop begins on a session that is pinned and has nothing to be read.
* `serve_gated` — everything the backend is sent over a whole connection.
-/

namespace PgBrakes.Ports.Proxy

open PgBrakes.Ports.ExplainGate
open PgBrakes.Ports.ReadAst (Parser)
open PgBrakes.Ports.Scram
open PgBrakes.Ports.Wire
open PgBrakes.Verified
open PgBrakes.Verified.Effect

variable {σ F : Type} [Network σ]

/-! ## The welcome -/

theorem sendAll_traces (msgs : List BackendMessage) :
    Traces (fun _ => True)
      (fun r es => es <+: msgs.map wrote ∧ (r = .ok () → es = msgs.map wrote))
      (sendAll msgs : Conn σ F Unit) := by
  induction msgs with
  | nil => exact .pure ⟨List.nil_prefix, fun _ => rfl⟩
  | cons msg rest ih =>
      refine .emit_bind (send_emits msg) (fun _ => ⟨List.nil_prefix, nofun⟩) fun _ e he => ?_
      subst he
      refine ih.mono fun r es hes => ⟨?_, fun hr => ?_⟩
      · exact List.cons_prefix_cons.mpr ⟨rfl, hes.1⟩
      · rw [List.map_cons, hes.2 hr]

/-! ## What the first stages leave alone -/

omit [Network σ] in
theorem keeps_of_inbox {α : Type} {m : Conn σ F α}
    (h : ∀ s, (m s).2.world.session.inbox = s.world.session.inbox) (P : List RawFrame → Prop) :
    Eff.Keeps (Awaits P) m := by
  intro s hs
  show P (World.unread _)
  rw [World.unread, h s]
  exact hs

theorem send_keeps (msg : BackendMessage) (P : List RawFrame → Prop) :
    Eff.Keeps (Awaits P) (send msg : Conn σ F Unit) := by
  refine keeps_of_inbox (fun s => ?_) P
  show ((deliver msg.encode : Session σ F Unit) ⟨s.world.session, []⟩).2.world.inbox = _
  unfold deliver
  cases Outside.toAgent s.world.session.outside msg.encode with
  | none => rfl
  | some outside => rfl

theorem refuse_keeps {α : Type} (code message : String) (e : ConnError)
    (P : List RawFrame → Prop) : Eff.Keeps (Awaits P) (refuse code message e : Conn σ F α) :=
  .bind (send_keeps _ P) fun _ => .fail e

omit [Network σ] in
theorem receive_keeps (eof : String) (P : List RawFrame → Prop) :
    Eff.Keeps (Awaits P) (receive eof : Conn σ F RawFrame) := by
  refine keeps_of_inbox (fun s => ?_) P
  unfold receive
  rcases readTaggedFrame s.world.stream with ⟨_ | _ | frame, rest⟩
  · rfl
  · rfl
  · rfl

omit [Network σ] in
theorem receiveStartup_keeps (P : List RawFrame → Prop) :
    Eff.Keeps (Awaits P) (receiveStartup : Conn σ F Bytes) := by
  refine keeps_of_inbox (fun s => ?_) P
  unfold receiveStartup
  rcases readStartupBody s.world.stream with ⟨_ | body, rest⟩
  · rfl
  · rfl

omit [Network σ] in
theorem requireTag_keeps (frame : RawFrame) (what : String) (P : List RawFrame → Prop) :
    Eff.Keeps (Awaits P) (requireTag frame what : Conn σ F Unit) :=
  .ite (.pure ()) (.fail _)

theorem startupAndTls_keeps (requireTls acceptor : Bool) (P : List RawFrame → Prop) :
    Eff.Keeps (Awaits P) (startupAndTls requireTls acceptor : Conn σ F Bool) := by
  have hpeek : Eff.Keeps (Awaits P) (peekExact : Conn σ F Bytes) := by
    refine keeps_of_inbox (fun s => ?_) P
    unfold peekExact
    split
    · rfl
    · split
      · rfl
      · rfl
  have hnegotiate (answer : UInt8) : Eff.Keeps (Awaits P) (negotiate answer : Conn σ F Unit) := by
    refine keeps_of_inbox (fun s => ?_) P
    unfold negotiate
    cases Network.negotiate s.world.session.outside answer with
    | none => rfl
    | some outside => rfl
  have hupgrade : Eff.Keeps (Awaits P) (upgrade : Conn σ F Unit) := by
    refine keeps_of_inbox (fun s => ?_) P
    unfold upgrade
    cases Network.accept s.world.session.outside s.world.stream with
    | none => rfl
    | some accepted => rfl
  refine .bind hpeek fun head => .ite (.bind (fun _ hs => hs) fun _ => .ite ?_ ?_)
    (.ite (refuse_keeps _ _ _ P) (.pure _))
  · exact .bind (hnegotiate _) fun _ => .bind hupgrade fun _ => .pure _
  · exact .bind (hnegotiate _) fun _ => .ite (.fail _) (.pure _)

theorem authenticateAgent_keeps [Base64] (crypto : Crypto) (password : String)
    (P : List RawFrame → Prop) :
    Eff.Keeps (Awaits P) (authenticateAgent crypto password : Conn σ F Unit) := by
  have hdraw {α : Type} (source : σ → α × σ) :
      Eff.Keeps (Awaits P) (draw source : Conn σ F α) := keeps_of_inbox (fun _ => rfl) P
  have hchallenge : Eff.Keeps (Awaits P)
      (challengeAgent crypto password : Conn σ F ScramServer) := by
    refine .bind (send_keeps _ P) fun _ => .bind (receive_keeps _ P) fun frame =>
      .bind (requireTag_keeps _ _ P) fun _ => .bind (.lift _) fun initial =>
        .ite (refuse_keeps _ _ _ P) ?_
    cases initial.initialResponse with
    | none => exact .fail _
    | some data =>
        refine .bind (.lift _) fun clientFirst => .bind (hdraw _) fun salt =>
          .bind (hdraw _) fun nonce => ?_
        dsimp only
        split
        · exact .fail _
        · exact .bind (send_keeps _ P) fun _ => .pure _
  refine .bind hchallenge fun server => .bind (receive_keeps _ P) fun frame =>
    .bind (requireTag_keeps _ _ P) fun _ => .bind (.lift _) fun clientFinal => ?_
  split
  · exact refuse_keeps _ _ _ P
  · exact send_keeps _ P

theorem sendAll_keeps (msgs : List BackendMessage) (P : List RawFrame → Prop) :
    Eff.Keeps (Awaits P) (sendAll msgs : Conn σ F Unit) := by
  induction msgs with
  | nil => exact .pure ()
  | cons msg rest ih => exact .bind (send_keeps msg P) fun _ => ih

/-! ## The stages -/

section
variable [Runtime F] [Parser]

/-- The turns of a loop that has begun with answers that satisfy `P`. -/
def Served (cfg : Config F) (P : List RawFrame → Prop) (turns : List (Turn σ F)) : Prop :=
  ∃ frames outside inbox, P (inbox.map Reply.frame) ∧
    turns = (queryLoop cfg frames (Loop.start cfg outside inbox)).1

/-- The log of a connection. -/
inductive Staged [Base64] (crypto : Crypto) (cfg : ProxyConfig F) (P : List RawFrame → Prop) :
    List (ConnEvent σ F) → Prop
  | negotiating {es : List (ConnEvent σ F)} (h : ∀ e ∈ es, e.InClear) : Staged crypto cfg P es
  | proving {encrypted : Bool} {n a : List (ConnEvent σ F)}
      (hn : Negotiation cfg.requireTls (.ok encrypted) n) (ha : ∀ e ∈ a, e.WithAgent) :
      Staged crypto cfg P (n ++ a)
  | opening {encrypted : Bool} {n a o : List (ConnEvent σ F)}
      (hn : Negotiation cfg.requireTls (.ok encrypted) n)
      (ha : Proven crypto cfg.agentPassword a) (ho : ∀ e ∈ o, Opening cfg e) :
      Staged crypto cfg P (n ++ (a ++ o))
  | welcoming {encrypted : Bool} {n a o w : List (ConnEvent σ F)} {version : String}
      (hn : Negotiation cfg.requireTls (.ok encrypted) n)
      (ha : Proven crypto cfg.agentPassword a) (he : ∀ e ∈ o, Opening cfg e)
      (ho : Opened cfg version o) (hw : w <+: (welcome version).map wrote) :
      Staged crypto cfg P (n ++ (a ++ (o ++ w)))
  | serving {encrypted : Bool} {n a o : List (ConnEvent σ F)} {version : String}
      {turns : List (Turn σ F)} (hn : Negotiation cfg.requireTls (.ok encrypted) n)
      (ha : Proven crypto cfg.agentPassword a) (he : ∀ e ∈ o, Opening cfg e)
      (ho : Opened cfg version o) (ht : Served cfg.toConfig P turns) :
      Staged crypto cfg P (n ++ (a ++ (o ++ ((welcome version).map wrote ++ turns.map .turn))))

/-- The opening leaves answers that satisfy `P`. -/
def Leaves (cfg : ProxyConfig F) (P : List RawFrame → Prop) : Prop :=
  ∀ patience, Eff.Triple (Awaits (· = [])) (connectBackend cfg patience : Conn σ F String)
    (fun _ => Awaits P) (fun _ => True)

theorem serveQueries_records (cfg : Config F) (P : List RawFrame → Prop) :
    Records (fun w => Unread P w.session)
      (fun _ es => ∃ turns, es = turns.map .turn ∧ Served cfg P turns) (fun _ _ => True)
      (serveQueries cfg : Conn σ F Unit) :=
  fun s hs => by
    obtain ⟨served, -, -, hserved⟩ := runQueryLoop_eq cfg
      ((framesOf s.world.stream).2.mapError .protocol) (framesOf s.world.stream).1
      (Loop.start cfg s.world.session.outside s.world.session.inbox)
    exact ⟨_, rfl, ⟨_, rfl, served, s.world.session.outside, s.world.session.inbox, hs,
      congrArg Prod.fst hserved⟩, fun _ _ => trivial⟩

theorem serveEncrypted_staged [Base64] (crypto : Crypto) (cfg : ProxyConfig F) (patience : Nat)
    {P : List RawFrame → Prop} (hleaves : Leaves (σ := σ) cfg P) {encrypted : Bool}
    {n : List (ConnEvent σ F)} (hn : Negotiation cfg.requireTls (.ok encrypted) n) :
    Records (fun w => Unread (· = []) w.session) (fun _ es => Staged crypto cfg P (n ++ es))
      (fun _ _ => True) (serveEncrypted crypto cfg patience : Conn σ F Unit) := by
  have hgreeting (a : List (ConnEvent σ F)) (ha : ∀ e ∈ a, e.WithAgent) :
      Staged crypto cfg P (n ++ a) := .proving hn ha
  refine .bind (.of_keeps receiveStartup_traces (receiveStartup_keeps _))
    (fun e es hes => hgreeting es (by simp [hes])) fun body es hes => ?_
  subst hes
  simp only [List.nil_append]
  refine .lift_bind (fun _ => hgreeting [] nofun) fun startup hstartup => ?_
  refine .ite (fun _ => ?_) fun _ => ?_
  · exact .of_log (refuse_traces (fun _ => hgreeting [] nofun)
      (hgreeting _ (by simp [withAgent_wrote])))
  refine .bind (.of_keeps (authenticateAgent_traces crypto cfg.agentPassword)
    (authenticateAgent_keeps crypto cfg.agentPassword _))
    (fun e a ha => hgreeting a ha.1) fun _ a ha => ?_
  have hproven := ha.2 rfl
  refine .bind (.of_traces (J := fun _ (w : Link σ) => Unread P w.session)
    (connectBackend_traces cfg patience) (hleaves patience))
    (fun e o ho => .opening hn hproven ho.1) fun version o ho => ?_
  have hopened := ho.2 version rfl
  refine .bind (.of_keeps (sendAll_traces (welcome version)) (sendAll_keeps (welcome version) _))
    (fun e w hw => .welcoming hn hproven ho.1 hopened hw.1) fun _ w hw => ?_
  rw [hw.2 rfl]
  refine (serveQueries_records cfg.toConfig P).mono fun r es hes => ?_
  obtain ⟨turns, rfl, ht⟩ := hes
  exact .serving hn hproven ho.1 hopened ht

theorem serveConnection_staged [Base64] (crypto : Crypto) (cfg : ProxyConfig F) (acceptor : Bool)
    (patience : Nat) (stream : Bytes) (outside : σ) {P : List RawFrame → Prop}
    (hleaves : Leaves (σ := σ) cfg P) :
    Staged crypto cfg P
      (serveConnection crypto cfg acceptor patience (Link.start cfg.toConfig stream outside)).2.log
    := by
  have hrecords : Records (fun w => Unread (· = []) w.session) (fun _ es => Staged crypto cfg P es)
      (fun _ _ => True) (serveConnection crypto cfg acceptor patience : Conn σ F Unit) := by
    refine .bind (.of_keeps (startupAndTls_traces cfg.requireTls acceptor)
      (startupAndTls_keeps cfg.requireTls acceptor _)) (fun e es hes => ?_) fun encrypted n hn => ?_
    · cases hes with
      | failed h => exact .negotiating h
    · refine .ite (fun h => ?_) fun _ => serveEncrypted_staged crypto cfg patience hleaves hn
      -- The negotiation goes on unencrypted only where TLS is not required.
      cases hn with
      | encrypted => exact absurd rfl h.2
      | declined hplain => rw [hplain] at h; cases h.1
      | direct hplain => rw [hplain] at h; cases h.1
  obtain ⟨es, hlog, hstaged, -⟩ := hrecords (Link.start cfg.toConfig stream outside) rfl
  rw [hlog]
  exact hstaged

omit [Runtime F] [Parser] in
theorem leaves_anything (cfg : ProxyConfig F) : Leaves (σ := σ) cfg fun _ => True := by
  intro patience s _
  split
  · trivial
  · trivial

/-! ## Nothing before the proof -/

/-- The event is a part of the connection to the backend. -/
def ConnEvent.TouchesBackend : ConnEvent σ F → Prop
  | .connected | .originated _ | .turn _ => True
  | .session (.toAgent _) => False
  | .session _ => True
  | .negotiated _ | .upgraded | .received _ => False

/-- Where the event touches the backend, a negotiation and a proof of the agent stand in
front of everything else that happened. -/
def AfterProof [Base64] (crypto : Crypto) (cfg : ProxyConfig F) (before : List (ConnEvent σ F))
    (e : ConnEvent σ F) : Prop :=
  e.TouchesBackend → ∃ encrypted n a rest, before = n ++ (a ++ rest) ∧
    Negotiation cfg.requireTls (.ok encrypted) n ∧ Proven crypto cfg.agentPassword a

omit [Network σ] [Runtime F] [Parser] in
/-- What happened before an event that is not in the first part of a list. -/
theorem prefix_before {α : Type} {l rest before after : List α} {e : α}
    (h : l ++ rest = before ++ e :: after) (he : e ∉ l) : ∃ mid, before = l ++ mid := by
  rcases List.append_eq_append_iff.mp h with ⟨mid, hbefore, -⟩ | ⟨mid, hl, hrest⟩
  · exact ⟨mid, hbefore⟩
  · cases mid with
    | nil => exact ⟨[], by simpa using hl.symm⟩
    | cons e' mid =>
        obtain ⟨rfl, -⟩ := List.cons.inj hrest
        exact absurd (by rw [hl]; simp) he

omit [Network σ] [Runtime F] [Parser] in
theorem negotiation_untouched {requireTls encrypted : Bool} {n : List (ConnEvent σ F)}
    (hn : Negotiation requireTls (.ok encrypted) n) : ∀ e ∈ n, ¬ e.TouchesBackend := by
  cases hn with
  | encrypted => simp [ConnEvent.TouchesBackend]
  | declined h => simp [ConnEvent.TouchesBackend]
  | direct h => simp

omit [Network σ] [Runtime F] [Parser] in
theorem withAgent_untouched {e : ConnEvent σ F} (h : e.WithAgent) : ¬ e.TouchesBackend := by
  rcases h with ⟨frame, rfl⟩ | ⟨msg, rfl⟩
  · exact id
  · exact id

omit [Network σ] [Runtime F] [Parser] in
theorem inClear_untouched {e : ConnEvent σ F} (h : e.InClear) : ¬ e.TouchesBackend := by
  rcases h with ⟨answer, rfl⟩ | rfl
  · exact id
  · exact id

omit [Network σ] [Runtime F] [Parser] in
theorem proven_untouched [Base64] {crypto : Crypto} {password : String} {a : List (ConnEvent σ F)}
    (ha : Proven crypto password a) : ∀ e ∈ a, ¬ e.TouchesBackend := by
  obtain ⟨first, final, clientFirst, clientFinal, serverFirst, serverFinal, nonce, salt, rfl, -⟩ :=
    ha
  simp [ConnEvent.TouchesBackend, wrote]

/-- Nothing reaches the backend, not even a connection to it, before the agent has proved
that it knows the password. -/
theorem serve_proven [Base64] (crypto : Crypto) (cfg : ProxyConfig F) (acceptor : Bool)
    (patience : Nat) (stream : Bytes) (outside : σ) :
    History.EveryStep (AfterProof crypto cfg)
      (serveConnection crypto cfg acceptor patience
        (Link.start cfg.toConfig stream outside)).2.log := by
  have hstaged := serveConnection_staged crypto cfg acceptor patience stream outside
    (leaves_anything cfg)
  intro before e after heq htouches
  rw [heq] at hstaged
  have hproof {encrypted : Bool} {n a rest : List (ConnEvent σ F)}
      (hn : Negotiation cfg.requireTls (.ok encrypted) n)
      (ha : Proven crypto cfg.agentPassword a) (hes : n ++ (a ++ rest) = before ++ e :: after) :
      ∃ encrypted n a rest, before = n ++ (a ++ rest) ∧
        Negotiation cfg.requireTls (.ok encrypted) n ∧ Proven crypto cfg.agentPassword a := by
    rw [← List.append_assoc] at hes
    obtain ⟨mid, rfl⟩ := prefix_before hes fun hmem => by
      rcases List.mem_append.mp hmem with h | h
      · exact negotiation_untouched hn e h htouches
      · exact proven_untouched ha e h htouches
    exact ⟨encrypted, n, a, mid, List.append_assoc _ _ _, hn, ha⟩
  have hmem : e ∈ before ++ e :: after := by simp
  generalize hes : before ++ e :: after = es at hstaged
  rw [hes] at hmem
  cases hstaged with
  | negotiating h => exact absurd htouches (inClear_untouched (h e hmem))
  | proving hn ha =>
      rcases List.mem_append.mp hmem with h | h
      · exact absurd htouches (negotiation_untouched hn e h)
      · exact absurd htouches (withAgent_untouched (ha e h))
  | opening hn ha ho => exact hproof hn ha hes.symm
  | welcoming hn ha he ho hw => exact hproof hn ha hes.symm
  | serving hn ha he ho ht => exact hproof hn ha hes.symm

/-! ## What goes over the wire in the clear -/

/-- Where TLS is required, an event before the handshake is an answer to the negotiation or
the error that ends the connection. -/
def ClearOnly (cfg : ProxyConfig F) (before : List (ConnEvent σ F)) (e : ConnEvent σ F) : Prop :=
  cfg.requireTls = true → .upgraded ∉ before → e = .upgraded ∨ e.InClear

theorem serve_tls [Base64] (crypto : Crypto) (cfg : ProxyConfig F) (acceptor : Bool)
    (patience : Nat) (stream : Bytes) (outside : σ) :
    History.EveryStep (ClearOnly cfg)
      (serveConnection crypto cfg acceptor patience
        (Link.start cfg.toConfig stream outside)).2.log := by
  have hstaged := serveConnection_staged crypto cfg acceptor patience stream outside
    (leaves_anything cfg)
  intro before e after heq hrequire hbefore
  rw [heq] at hstaged
  -- A negotiation that lets the connection go on has ended with the handshake.
  have hupgraded {encrypted : Bool} {n rest : List (ConnEvent σ F)}
      (hn : Negotiation cfg.requireTls (.ok encrypted) n) (hes : n ++ rest = before ++ e :: after) :
      e = .upgraded ∨ e.InClear := by
    cases hn with
    | declined h => rw [hrequire] at h; cases h
    | direct h => rw [hrequire] at h; cases h
    | encrypted =>
        by_cases hmem : e ∈ [(.negotiated 0x53 : ConnEvent σ F), .upgraded]
        · rcases List.mem_cons.mp hmem with rfl | hmem
          · exact .inr (.inl ⟨_, rfl⟩)
          · exact .inl (List.mem_singleton.mp hmem)
        · obtain ⟨mid, rfl⟩ := prefix_before hes hmem
          exact absurd (by simp) hbefore
  have hmem : e ∈ before ++ e :: after := by simp
  generalize hes : before ++ e :: after = es at hstaged
  rw [hes] at hmem
  cases hstaged with
  | negotiating h => exact .inr (h e hmem)
  | proving hn ha => exact hupgraded hn hes.symm
  | opening hn ha ho => exact hupgraded hn hes.symm
  | welcoming hn ha he ho hw => exact hupgraded hn hes.symm
  | serving hn ha he ho ht => exact hupgraded hn hes.symm

/-! ## How the loop begins -/

/-- What happens before the loop. -/
def ConnEvent.BeforeLoop (cfg : ProxyConfig F) (e : ConnEvent σ F) : Prop :=
  (∃ answer, e = .negotiated answer) ∨ e = .upgraded ∨ e.WithAgent ∨ Opening cfg e

omit [Network σ] [Runtime F] [Parser] in
theorem negotiation_beforeLoop (cfg : ProxyConfig F) {requireTls encrypted : Bool}
    {n : List (ConnEvent σ F)} (hn : Negotiation requireTls (.ok encrypted) n) :
    ∀ e ∈ n, e.BeforeLoop cfg := by
  cases hn with
  | encrypted =>
      exact List.forall_mem_cons.mpr
        ⟨.inl ⟨_, rfl⟩, List.forall_mem_singleton.mpr (.inr (.inl rfl))⟩
  | declined h => exact List.forall_mem_singleton.mpr (.inl ⟨_, rfl⟩)
  | direct h => exact List.forall_mem_nil _

omit [Network σ] [Runtime F] [Parser] in
theorem proven_beforeLoop [Base64] {crypto : Crypto} {cfg : ProxyConfig F} {password : String}
    {a : List (ConnEvent σ F)} (ha : Proven crypto password a) : ∀ e ∈ a, e.BeforeLoop cfg := by
  obtain ⟨first, final, clientFirst, clientFinal, serverFirst, serverFinal, nonce, salt, rfl, -⟩ :=
    ha
  simp [ConnEvent.BeforeLoop, withAgent_wrote, withAgent_received]

omit [Network σ] [Runtime F] [Parser] in
theorem welcome_beforeLoop (cfg : ProxyConfig F) {version : String} {w : List (ConnEvent σ F)}
    (hw : w <+: (welcome version).map wrote) : ∀ e ∈ w, e.BeforeLoop cfg := by
  intro e he
  obtain ⟨msg, -, rfl⟩ := List.mem_map.mp (hw.subset he)
  exact .inr (.inr (.inl (withAgent_wrote msg)))

omit [Network σ] [Runtime F] [Parser] in
theorem beforeLoop_not_turn {cfg : ProxyConfig F} {e : ConnEvent σ F} (h : e.BeforeLoop cfg)
    (t : Turn σ F) : e ≠ .turn t := by
  rintro rfl
  rcases h with ⟨answer, h⟩ | h | (⟨frame, h⟩ | ⟨msg, h⟩) | h
  · cases h
  · cases h
  · cases h
  · cases h
  · cases h

/-- Where the loop was not reached, there is no turn; where it was, the log ends with its
turns, and the stages in front of it are complete. -/
theorem staged_cases [Base64] {crypto : Crypto} {cfg : ProxyConfig F} {P : List RawFrame → Prop}
    {es : List (ConnEvent σ F)} (h : Staged crypto cfg P es) :
    (∀ e ∈ es, e.BeforeLoop cfg) ∨ ∃ before o version turns,
      es = before ++ (o ++ ((welcome version).map wrote ++ turns.map .turn)) ∧
        (∀ e ∈ before, e.BeforeLoop cfg ∧ ¬ e.TouchesBackend) ∧ (∀ e ∈ o, e.BeforeLoop cfg) ∧
        Opened cfg version o ∧ Served cfg.toConfig P turns := by
  have hopening {o : List (ConnEvent σ F)} (he : ∀ e ∈ o, Opening cfg e) :
      ∀ e ∈ o, e.BeforeLoop cfg := fun e h => .inr (.inr (.inr (he e h)))
  cases h with
  | negotiating h =>
      refine .inl fun e he => ?_
      rcases h e he with ⟨answer, rfl⟩ | rfl
      · exact .inl ⟨answer, rfl⟩
      · exact .inr (.inr (.inl (withAgent_wrote _)))
  | proving hn ha =>
      exact .inl (List.forall_mem_append.mpr
        ⟨negotiation_beforeLoop cfg hn, fun e he => .inr (.inr (.inl (ha e he)))⟩)
  | opening hn ha ho =>
      exact .inl (List.forall_mem_append.mpr ⟨negotiation_beforeLoop cfg hn,
        List.forall_mem_append.mpr ⟨proven_beforeLoop ha, hopening ho⟩⟩)
  | welcoming hn ha he ho hw =>
      exact .inl (List.forall_mem_append.mpr ⟨negotiation_beforeLoop cfg hn,
        List.forall_mem_append.mpr ⟨proven_beforeLoop ha,
          List.forall_mem_append.mpr ⟨hopening he, welcome_beforeLoop cfg hw⟩⟩⟩)
  | @serving encrypted n a o version turns hn ha he ho ht =>
      refine .inr ⟨n ++ a, o, version, turns, (List.append_assoc n a _).symm, ?_, hopening he, ho,
        ht⟩
      refine List.forall_mem_append.mpr ⟨fun e h => ?_, fun e h => ?_⟩
      · exact ⟨negotiation_beforeLoop cfg hn e h, negotiation_untouched hn e h⟩
      · exact ⟨proven_beforeLoop ha e h, proven_untouched ha e h⟩

/-- Where a frame of the agent is looked at, the backend's session was opened before, the
settings are pinned, the agent was told so, and the turns are those of a loop that begins
with nothing to be read. -/
def OpenedFirst (cfg : ProxyConfig F) (log : List (ConnEvent σ F)) : Prop :=
  ∀ t, .turn t ∈ log → ∃ before o version turns frames outside,
    log = before ++ (o ++ ((welcome version).map wrote ++ turns.map .turn)) ∧
      (∀ e ∈ before, ¬ e.TouchesBackend) ∧ Opened cfg version o ∧
      turns = (queryLoop cfg.toConfig frames (Loop.start cfg.toConfig outside [])).1

theorem serve_opens [Base64] (hstep : OpensInStep σ) (crypto : Crypto) (cfg : ProxyConfig F)
    (acceptor : Bool) (patience : Nat) (stream : Bytes) (outside : σ) :
    OpenedFirst cfg
      (serveConnection crypto cfg acceptor patience
        (Link.start cfg.toConfig stream outside)).2.log := by
  intro t ht
  have hstaged := serveConnection_staged crypto cfg acceptor patience stream outside
    (P := (· = [])) (connectBackend_settles hstep cfg)
  rcases staged_cases hstaged with
    hbefore | ⟨before, o, version, turns, heq, hbefore, -, ho, hserved⟩
  · exact absurd rfl (beforeLoop_not_turn (hbefore _ ht) t)
  · obtain ⟨frames, outside', inbox, hinbox, hturns⟩ := hserved
    rw [List.map_eq_nil_iff.mp hinbox] at hturns
    exact ⟨before, o, version, turns, frames, outside', heq, fun e he => (hbefore e he).2, ho,
      hturns⟩

omit [Parser] in
theorem serve_opens_small :
    letI := Network.small
    letI := Runtime.hundredths
    letI := Parser.small
    letI := Base64.standard
    OpenedFirst ProxyConfig.small (serveConnection lengths ProxyConfig.small true 3
      (Link.start ProxyConfig.small.toConfig smallStream ())).2.log := by
  exact @serve_opens Unit Nat Network.small Runtime.hundredths Parser.small Base64.standard
    opensInStep_small lengths ProxyConfig.small true 3 smallStream ()

/-! ## What reaches the backend -/

/-- The turn of an event. -/
def ConnEvent.turn? : ConnEvent σ F → Option (Turn σ F)
  | .turn t => some t
  | _ => none

/-- Everything the backend is sent is accounted for: the startup message of the configured
role, the messages of the opening, and in the turns the `EXPLAIN` of a read and what has
passed the gate. -/
structure GatedThroughout (cfg : ProxyConfig F) (log : List (ConnEvent σ F)) : Prop where
  startup : ∀ startup, .originated startup ∈ log → startup = cfg.backend.startup
  own : ∀ n msg, .session (.own n msg) ∈ log → OpeningMessage cfg msg
  forwarded : ∀ n frame, .session (.forwarded n frame) ∉ log
  planned : ∀ t, .turn t ∈ log → t.SendsPlan
  agent : History.EveryStep (TurnGated cfg.ceiling) (log.filterMap ConnEvent.turn?)

omit [Runtime F] [Parser] [Network σ] in
/-- What is sent before the loop. -/
theorem beforeLoop_sent {cfg : ProxyConfig F} {e : ConnEvent σ F} (h : e.BeforeLoop cfg) :
    (∀ startup, e = .originated startup → startup = cfg.backend.startup) ∧
      (∀ n msg, e = .session (.own n msg) → OpeningMessage cfg msg) ∧
      (∀ n frame, e ≠ .session (.forwarded n frame)) ∧ e.turn? = none := by
  rcases h with ⟨answer, rfl⟩ | rfl | (⟨frame, rfl⟩ | ⟨msg, rfl⟩) | h
  · exact ⟨nofun, nofun, nofun, rfl⟩
  · exact ⟨nofun, nofun, nofun, rfl⟩
  · exact ⟨nofun, nofun, nofun, rfl⟩
  · exact ⟨nofun, nofun, nofun, rfl⟩
  · cases h with
    | connected => exact ⟨nofun, nofun, nofun, rfl⟩
    | originated => exact ⟨fun startup h => (ConnEvent.originated.inj h).symm, nofun, nofun, rfl⟩
    | read reply => exact ⟨nofun, nofun, nofun, rfl⟩
    | sent hmsg =>
        refine ⟨nofun, fun n msg h => ?_, nofun, rfl⟩
        cases h
        exact hmsg

theorem serve_gated [Base64] (crypto : Crypto) (cfg : ProxyConfig F) (acceptor : Bool)
    (patience : Nat) (stream : Bytes) (outside : σ) :
    GatedThroughout cfg
      (serveConnection crypto cfg acceptor patience
        (Link.start cfg.toConfig stream outside)).2.log := by
  have hstaged := serveConnection_staged crypto cfg acceptor patience stream outside
    (leaves_anything cfg)
  generalize (serveConnection crypto cfg acceptor patience
    (Link.start cfg.toConfig stream outside)).2.log = log at hstaged
  have hparts : ∃ before turns, log = before ++ turns.map .turn ∧
      (∀ e ∈ before, e.BeforeLoop cfg) ∧ (∀ t ∈ turns, t.SendsPlan) ∧
      History.EveryStep (TurnGated cfg.ceiling) turns := by
    rcases staged_cases hstaged with h | ⟨before, o, version, turns, rfl, hbefore, hopening, -, ht⟩
    · exact ⟨log, [], by simp, h, List.forall_mem_nil _, History.everyStep_nil _⟩
    · obtain ⟨frames, outside', inbox, -, rfl⟩ := ht
      refine ⟨before ++ (o ++ (welcome version).map wrote),
        (queryLoop cfg.toConfig frames (Loop.start cfg.toConfig outside' inbox)).1,
        by simp only [List.append_assoc], ?_, ?_, everyStep_gated _ _ _ _⟩
      · exact List.forall_mem_append.mpr ⟨fun e he => (hbefore e he).1,
          List.forall_mem_append.mpr ⟨hopening, welcome_beforeLoop cfg List.prefix_rfl⟩⟩
      · exact queryLoop_sends cfg.toConfig frames _
  obtain ⟨before, turns, rfl, hbefore, hsends, hturns⟩ := hparts
  have hmem {e : ConnEvent σ F} (h : e ∈ before ++ turns.map .turn) (hno : ∀ t, e ≠ .turn t) :
      e.BeforeLoop cfg := by
    rcases List.mem_append.mp h with h | h
    · exact hbefore e h
    · obtain ⟨t, -, rfl⟩ := List.mem_map.mp h
      exact absurd rfl (hno t)
  refine ⟨fun startup h => ?_, fun n msg h => ?_, fun n frame h => ?_, fun t h => ?_, ?_⟩
  · exact (beforeLoop_sent (hmem h nofun)).1 startup rfl
  · exact (beforeLoop_sent (hmem h nofun)).2.1 n msg rfl
  · exact (beforeLoop_sent (hmem h nofun)).2.2.1 n frame rfl
  · rcases List.mem_append.mp h with h | h
    · exact absurd rfl (beforeLoop_not_turn (hbefore _ h) t)
    · obtain ⟨t', ht', heq⟩ := List.mem_map.mp h
      cases heq
      exact hsends t ht'
  · have hnone : before.filterMap ConnEvent.turn? = [] :=
      List.filterMap_eq_nil_iff.mpr fun e he => (beforeLoop_sent (hbefore e he)).2.2.2
    have hsome : (turns.map ConnEvent.turn).filterMap ConnEvent.turn? = turns := by
      rw [List.filterMap_map]
      exact List.filterMap_some
    rw [List.filterMap_append, hnone, hsome, List.nil_append]
    exact hturns

end

end PgBrakes.Ports.Proxy
