import PgBrakes.Ports.ProxyConnection
import PgBrakes.Ports.ProxyGating

/-!
# What comes before the backend

The negotiation and the proof of the agent, as lists of events.  The negotiation ends in
one of three ways that let the connection go on, and two of them only where TLS is not
required.  The proof ends well with five events, the offer, the two frames of the agent
and the two answers to them, and the two texts in the frames are an exchange that the
server accepts.

## Main results

* `startupAndTls_traces`, `authenticateAgent_traces` — what each of the two leaves in the
  log, however it ends.
-/

namespace PgBrakes.Ports.Proxy

open PgBrakes.Ports.ExplainGate
open PgBrakes.Ports.Scram
open PgBrakes.Ports.Wire
open PgBrakes.Verified
open PgBrakes.Verified.Effect

variable {σ F : Type}

/-! ## Single calls -/

/-- The agent was sent a message. -/
def wrote (msg : BackendMessage) : ConnEvent σ F := .session (.toAgent msg.encode)

/-- A program of the session that makes one call, as one of the connection. -/
theorem inSession_emits {α : Type} {E : Event F → Prop} {m : Session σ F α}
    (h : Emits (fun _ => True) E m) :
    Emits (fun _ => True) (fun e => ∃ e', e = .session e' ∧ E e') (inSession m) := by
  intro s _
  rcases h ⟨s.world.session, []⟩ trivial with ⟨err, hrun⟩ | ⟨a, e, w, hrun, he, -⟩
  · refine .inl ⟨.session err, ?_⟩
    rw [inSession, Eff.mapError_apply, within_of hrun, List.map_nil, List.append_nil]
    rfl
  · refine .inr ⟨a, .session e, { s.world with session := w }, ?_, ⟨e, rfl, he⟩, trivial⟩
    rw [inSession, Eff.mapError_apply, within_of hrun]
    rfl

/-- A frame of the agent is read, or nothing is. -/
theorem receive_bind {β : Type} {eof : String} {k : RawFrame → Conn σ F β}
    {P : Except ConnError β → List (ConnEvent σ F) → Prop} (hstop : ∀ e, P (.error e) [])
    (hk : ∀ frame, Traces (fun _ => True) (fun r es => P r (.received frame :: es)) (k frame)) :
    Traces (fun _ => True) P (receive eof >>= k) := by
  intro s hs
  rcases hread : readTaggedFrame s.world.stream with ⟨_ | _ | frame, rest⟩
  · have hrun : ∃ e, (receive eof : Conn σ F RawFrame) s = (.error e, s) := by
      simp only [receive, hread]
      exact ⟨_, rfl⟩
    obtain ⟨e, hrun⟩ := hrun
    rw [Eff.bind_of_error hrun]
    exact ⟨[], by simp, hstop e, hs⟩
  · have hrun : (receive eof : Conn σ F RawFrame) s = (.error (.handshake eof), s) := by
      simp only [receive, hread]
    rw [Eff.bind_of_error hrun]
    exact ⟨[], by simp, hstop _, hs⟩
  · have hrun : (receive eof : Conn σ F RawFrame) s =
        (.ok frame, ⟨{ s.world with stream := rest }, s.log ++ [.received frame]⟩) := by
      simp only [receive, hread]
    rw [Eff.bind_of_ok hrun]
    obtain ⟨es, hlog, hP, hI⟩ := hk frame _ trivial
    refine ⟨.received frame :: es, ?_, hP, hI⟩
    rw [hlog, List.append_assoc]
    rfl

/-- The first bytes are looked at and stay. -/
theorem peekExact_bind {β : Type} {k : Bytes → Conn σ F β}
    {P : Except ConnError β → List (ConnEvent σ F) → Prop} (hstop : ∀ e, P (.error e) [])
    (hk : ∀ head, Traces (fun _ => True) P (k head)) :
    Traces (fun _ => True) P (peekExact >>= k) := by
  intro s hs
  by_cases hlength : 8 ≤ s.world.stream.length
  · have hrun : (peekExact : Conn σ F Bytes) s = (.ok (s.world.stream.take 8), s) := if_pos hlength
    rw [Eff.bind_of_ok hrun]
    exact hk _ s hs
  · have hrun : ∃ e, (peekExact : Conn σ F Bytes) s = (.error e, s) := by
      by_cases hempty : s.world.stream = []
      · exact ⟨_, by rw [peekExact, if_neg hlength, if_pos hempty]⟩
      · exact ⟨_, by rw [peekExact, if_neg hlength, if_neg hempty]⟩
    obtain ⟨e, hrun⟩ := hrun
    rw [Eff.bind_of_error hrun]
    exact ⟨[], by simp, hstop e, hs⟩

theorem receiveStartup_traces :
    Traces (fun _ => True) (fun _ es => es = []) (receiveStartup : Conn σ F Bytes) := by
  intro s hs
  refine ⟨[], ?_, rfl, hs⟩
  rw [List.append_nil, receiveStartup]
  rcases readStartupBody s.world.stream with ⟨e | body, rest⟩
  · rfl
  · rfl

/-- A pure step that may fail. -/
theorem lift_bind {α β : Type} {r : Except ConnError α} {k : α → Conn σ F β}
    {P : Except ConnError β → List (ConnEvent σ F) → Prop} (hstop : ∀ e, P (.error e) [])
    (hk : ∀ a, r = .ok a → Traces (fun _ => True) P (k a)) :
    Traces (fun _ => True) P (Eff.lift r >>= k) := by
  cases r with
  | error e => exact fun s hs => ⟨[], by simp [Eff.bind_apply], hstop e, hs⟩
  | ok a => exact hk a rfl

theorem requireTag_bind {β : Type} {frame : RawFrame} {what : String} {k : Unit → Conn σ F β}
    {P : Except ConnError β → List (ConnEvent σ F) → Prop} (hstop : ∀ e, P (.error e) [])
    (hk : frame.tag = tagPassword → Traces (fun _ => True) P (k ())) :
    Traces (fun _ => True) P (requireTag frame what >>= k) := by
  by_cases htag : frame.tag = tagPassword
  · rw [requireTag, if_pos htag]
    exact hk htag
  · rw [requireTag, if_neg htag]
    exact fun s hs => ⟨[], by simp [Eff.bind_apply], hstop _, hs⟩

variable [Network σ]

theorem send_emits (msg : BackendMessage) :
    Emits (fun _ => True) (fun e => e = wrote msg) (send msg : Conn σ F Unit) := by
  intro s hs
  have hdeliver : Emits (fun _ => True) (· = .toAgent msg.encode)
      (deliver msg.encode : Session σ F Unit) :=
    Proxy.deliver_emits (J := fun _ => True) msg.encode
  rcases inSession_emits hdeliver s hs with h | ⟨a, e, w, hrun, ⟨e', rfl, rfl⟩, hw⟩
  · exact .inl h
  · exact .inr ⟨a, _, w, hrun, rfl, hw⟩

theorem negotiate_emits (answer : UInt8) :
    Emits (fun _ => True) (fun e => e = .negotiated answer) (negotiate answer : Conn σ F Unit) := by
  intro s _
  unfold negotiate
  cases Network.negotiate s.world.session.outside answer with
  | none => exact .inl ⟨_, rfl⟩
  | some outside => exact .inr ⟨_, _, _, rfl, rfl, trivial⟩

theorem upgrade_emits :
    Emits (fun _ => True) (fun e => e = .upgraded) (upgrade : Conn σ F Unit) := by
  intro s _
  unfold upgrade
  cases Network.accept s.world.session.outside s.world.stream with
  | none => exact .inl ⟨_, rfl⟩
  | some accepted => exact .inr ⟨_, _, _, rfl, rfl, trivial⟩

omit [Network σ] in
theorem draw_finds {α : Type} (source : σ → α × σ) :
    Finds (fun _ => True) (fun _ => True) (draw source : Conn σ F α) :=
  fun _ _ => ⟨_, _, rfl, trivial, trivial⟩

/-- An error written to the agent, or not even that. -/
theorem refuse_traces {α : Type} {code message : String} {e : ConnError}
    {P : Except ConnError α → List (ConnEvent σ F) → Prop} (hnone : ∀ e, P (.error e) [])
    (hwrote : P (.error e) [wrote (fatalResponse code message)]) :
    Traces (fun _ => True) P (refuse code message e : Conn σ F α) :=
  .emit_bind (send_emits _) hnone fun _ _ he => .fail (he ▸ hwrote)

/-! ## The negotiation -/

/-- What may be sent in the clear where TLS is required. -/
def ConnEvent.InClear (e : ConnEvent σ F) : Prop :=
  (∃ answer, e = .negotiated answer) ∨ e = wrote (fatalResponse "08P01" directMessage)

/-- How the negotiation ends and what it has done. -/
inductive Negotiation (requireTls : Bool) : Except ConnError Bool → List (ConnEvent σ F) → Prop
  | encrypted : Negotiation requireTls (.ok true) [.negotiated 0x53, .upgraded]
  | declined (h : requireTls = false) : Negotiation requireTls (.ok false) [.negotiated 0x4E]
  | direct (h : requireTls = false) : Negotiation requireTls (.ok false) []
  | failed {e : ConnError} {es : List (ConnEvent σ F)} (h : ∀ ev ∈ es, ev.InClear) :
      Negotiation requireTls (.error e) es

omit [Network σ] in
theorem inClear_negotiated {answer : UInt8} :
    ∀ e ∈ [(.negotiated answer : ConnEvent σ F)], e.InClear :=
  List.forall_mem_singleton.mpr (.inl ⟨answer, rfl⟩)

omit [Network σ] in
theorem inClear_nil : ∀ e ∈ ([] : List (ConnEvent σ F)), e.InClear := fun e he => by cases he

theorem startupAndTls_traces (requireTls acceptor : Bool) :
    Traces (fun _ => True) (Negotiation requireTls)
      (startupAndTls requireTls acceptor : Conn σ F Bool) := by
  have hstop (e : ConnError) : Negotiation requireTls (.error e) ([] : List (ConnEvent σ F)) :=
    .failed inClear_nil
  refine peekExact_bind hstop fun head => .ite (fun _ => ?_) fun _ => .ite (fun _ => ?_) fun h => ?_
  · -- The bytes of an `SSLRequest`.
    refine .find_bind (Q := fun _ => True) (fun _ _ => ⟨_, _, rfl, trivial, trivial⟩) fun _ _ => ?_
    refine .ite (fun _ => ?_) fun _ => ?_
    · refine .emit_bind (negotiate_emits _) hstop fun _ e he => ?_
      subst he
      refine .emit_bind upgrade_emits (fun _ => .failed inClear_negotiated) fun _ e he => ?_
      subst he
      exact .pure .encrypted
    · refine .emit_bind (negotiate_emits _) hstop fun _ e he => ?_
      subst he
      exact .ite (fun _ => .fail (.failed inClear_negotiated)) fun h =>
        .pure (.declined (by simpa using h))
  · exact refuse_traces hstop (.failed (List.forall_mem_singleton.mpr (.inr rfl)))
  · exact .pure (.direct (by simpa using h))

/-! ## The proof of the agent -/

/-- A frame with the agent's choice of the mechanism and its first text. -/
def CarriesFirst (frame : RawFrame) (text : Text) : Prop :=
  frame.tag = tagPassword ∧ ∃ data,
    (readSaslInitialResponse frame.body).1 = .ok ⟨sha256Mechanism, some data⟩ ∧
      (fromUtf8 data).map String.toList = some text

/-- A frame with the agent's final text. -/
def CarriesFinal (frame : RawFrame) (text : Text) : Prop :=
  frame.tag = tagPassword ∧ (fromUtf8 frame.body).map String.toList = some text

/-- An event that only the agent has a part in. -/
def ConnEvent.WithAgent (e : ConnEvent σ F) : Prop :=
  (∃ frame, e = .received frame) ∨ ∃ msg, e = wrote msg

omit [Network σ] in
theorem withAgent_wrote (msg : BackendMessage) : (wrote msg : ConnEvent σ F).WithAgent :=
  .inr ⟨msg, rfl⟩

omit [Network σ] in
theorem withAgent_received (frame : RawFrame) :
    (.received frame : ConnEvent σ F).WithAgent :=
  .inl ⟨frame, rfl⟩

omit [Network σ] in
theorem ofCodec_ok {α : Type} {r : Except ProtocolError α} {a : α} (h : ofCodec r = .ok a) :
    r = .ok a := by
  cases r with
  | error e => cases h
  | ok b =>
      cases h
      rfl

omit [Network σ] in
theorem saslText_ok {what : String} {data : Bytes} {text : Text}
    (h : saslText what data = .ok text) : (fromUtf8 data).map String.toList = some text := by
  unfold saslText at h
  split at h
  · rename_i s hs
    cases h
    rw [hs]
    rfl
  · cases h

variable [Base64]

/-- The server that has put its challenge to a first text. -/
def Challenged (crypto : Crypto) (password : String) (server : ScramServer)
    (es : List (ConnEvent σ F)) : Prop :=
  ∃ (frame : RawFrame) (clientFirst serverFirst nonce : Text) (salt : Bytes),
    es = [wrote (.authenticationSasl [sha256Mechanism]), .received frame,
      wrote (.authenticationSaslContinue (bytesOf serverFirst))] ∧
    CarriesFirst frame clientFirst ∧
    handleClientFirst (.withServerNonce (.fromPassword crypto password.toList salt 4096) nonce)
      clientFirst = (.ok serverFirst, server)

theorem challengeAgent_traces (crypto : Crypto) (password : String) :
    Traces (fun _ => True)
      (fun r es => (∀ e ∈ es, e.WithAgent) ∧ ∀ server, r = .ok server →
        Challenged crypto password server es)
      (challengeAgent crypto password : Conn σ F ScramServer) := by
  refine .emit_bind (send_emits _) (fun _ => ⟨nofun, nofun⟩) fun _ e he => ?_
  subst he
  refine receive_bind (fun _ => ⟨by simp [withAgent_wrote], nofun⟩) fun frame => ?_
  have hseen : ∀ e ∈ [wrote (.authenticationSasl [sha256Mechanism]), .received frame],
      (e : ConnEvent σ F).WithAgent := by
    simp [withAgent_wrote, withAgent_received]
  refine requireTag_bind (fun _ => ⟨hseen, nofun⟩) fun htag => ?_
  refine lift_bind (fun _ => ⟨hseen, nofun⟩) fun initial hinitial => ?_
  refine .ite (fun _ => ?_) fun hmechanism => ?_
  · refine refuse_traces (fun _ => ⟨hseen, nofun⟩) ⟨?_, nofun⟩
    simp [withAgent_wrote, withAgent_received]
  rw [not_not] at hmechanism
  cases hresponse : initial.initialResponse with
  | none => exact .fail ⟨hseen, nofun⟩
  | some data =>
      refine lift_bind (fun _ => ⟨hseen, nofun⟩) fun clientFirst htext => ?_
      refine .find_bind (draw_finds _) fun salt _ => .find_bind (draw_finds _) fun nonce _ => ?_
      have hcarries : CarriesFirst frame clientFirst := by
        refine ⟨htag, data, ?_, saslText_ok htext⟩
        rw [ofCodec_ok hinitial, ← hmechanism, ← hresponse]
      dsimp only
      rcases hfirst : handleClientFirst (.withServerNonce
        (.fromPassword crypto password.toList salt 4096) nonce) clientFirst with
        ⟨_ | serverFirst, server⟩
      · exact .fail ⟨hseen, nofun⟩
      · refine .emit_bind (send_emits _) (fun _ => ⟨hseen, nofun⟩) fun _ e he => ?_
        subst he
        refine .pure ⟨by simp [withAgent_wrote, withAgent_received], fun server' hserver => ?_⟩
        cases hserver
        exact ⟨frame, clientFirst, serverFirst, nonce, salt, rfl, hcarries, hfirst⟩

/-- The agent has proved that it knows the password. -/
def Proven (crypto : Crypto) (password : String) (es : List (ConnEvent σ F)) : Prop :=
  ∃ (first final : RawFrame) (clientFirst clientFinal serverFirst serverFinal nonce : Text)
    (salt : Bytes),
    es = [wrote (.authenticationSasl [sha256Mechanism]), .received first,
      wrote (.authenticationSaslContinue (bytesOf serverFirst)), .received final,
      wrote (.authenticationSaslFinal (bytesOf serverFinal))] ∧
    CarriesFirst first clientFirst ∧ CarriesFinal final clientFinal ∧
    exchange crypto (.fromPassword crypto password.toList salt 4096) nonce clientFirst
      clientFinal = .ok serverFinal

theorem verifyAgent_traces {crypto : Crypto} {password : String} {server : ScramServer}
    {before : List (ConnEvent σ F)} (hbefore : ∀ e ∈ before, e.WithAgent)
    (hserver : Challenged crypto password server before) :
    Traces (fun _ => True)
      (fun r es => (∀ e ∈ before ++ es, e.WithAgent) ∧
        (r = .ok () → Proven crypto password (before ++ es)))
      (verifyAgent crypto server : Conn σ F Unit) := by
  have hlater (es : List (ConnEvent σ F)) (hes : ∀ e ∈ es, e.WithAgent) :
      ∀ e ∈ before ++ es, e.WithAgent :=
    List.forall_mem_append.mpr ⟨hbefore, hes⟩
  refine receive_bind (fun _ => ⟨hlater [] nofun, nofun⟩) fun frame => ?_
  have hseen := hlater [.received frame] (by simp [withAgent_received])
  refine requireTag_bind (fun _ => ⟨hseen, nofun⟩) fun htag => ?_
  refine lift_bind (fun _ => ⟨hseen, nofun⟩) fun clientFinal htext => ?_
  cases hfinal : handleClientFinal crypto server clientFinal with
  | error e =>
      refine refuse_traces (fun _ => ⟨hseen, nofun⟩) ⟨hlater _ ?_, nofun⟩
      simp [withAgent_wrote, withAgent_received]
  | ok serverFinal =>
      refine (Traces.emit (send_emits _) (fun _ => ⟨hseen, nofun⟩) fun _ e he => ?_)
      subst he
      refine ⟨hlater _ (by simp [withAgent_wrote, withAgent_received]), fun _ => ?_⟩
      obtain ⟨first, clientFirst, serverFirst, nonce, salt, rfl, hfirst, hchallenge⟩ := hserver
      refine ⟨first, frame, clientFirst, clientFinal, serverFirst, serverFinal, nonce, salt, rfl,
        hfirst, ⟨htag, saslText_ok htext⟩, ?_⟩
      rw [exchange, hchallenge]
      exact hfinal

theorem authenticateAgent_traces (crypto : Crypto) (password : String) :
    Traces (fun _ => True)
      (fun r es => (∀ e ∈ es, e.WithAgent) ∧ (r = .ok () → Proven crypto password es))
      (authenticateAgent crypto password : Conn σ F Unit) := by
  refine .bind (challengeAgent_traces crypto password) (fun e es h => ⟨h.1, nofun⟩)
    fun server es h => ?_
  exact verifyAgent_traces h.1 (h.2 server rfl)

end PgBrakes.Ports.Proxy
