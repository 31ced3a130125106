import PgBrakes.Ports.PgSession
import PgBrakes.Ports.ProxyHandshake
import PgBrakes.Ports.ProxyPreflight

/-!
# The backend's session before the agent's

What `connect_backend` leaves in the log.  The login is a dialog: the proxy sends its
startup message, answers every request for the password, and stops at the first
`ReadyForQuery`.  Then each pin is one unit of the extended protocol, and its answers are
read to the end before anything else is sent.

A backend that waits after a `ReadyForQuery` and after asking for the password leaves no
answer behind for the loop over the agent's frames.

## Main results

* `connectBackend_traces` — the events of an opening, as a whole where it ends well.
* `connectBackend_settles` — nothing waits where it ends well.
-/

namespace PgBrakes.Ports.Proxy

open PgBrakes.Ports.Scram
open PgBrakes.Ports.Wire
open PgBrakes.Verified
open PgBrakes.Verified.Effect

variable {σ F : Type}

/-! ## The dialogs -/

/-- Neither the end of a unit, nor an error, nor a question. -/
def Passes : BackendMessage → Prop
  | .authenticationCleartextPassword | .authenticationMd5Password _ | .authenticationSasl _
  | .errorResponse _ | .readyForQuery _ | .parameterStatus _ _ => False
  | _ => True

/-- The events of a login: from the version told before it to the one told after it. -/
inductive Login (password : String) : String → List (Event F) → String → Prop
  | ready {reply : Reply} {status : TransactionStatus} {version : String}
      (h : decodeBackend reply.frame = .ok (.readyForQuery status)) :
      Login password version [.drained reply] version
  | asked {reply : Reply} {n : Nat} {version version' : String} {es : List (Event F)}
      (h : decodeBackend reply.frame = .ok .authenticationCleartextPassword)
      (hrest : Login password version es version') :
      Login password version (.drained reply :: .own n (.passwordMessage password) :: es) version'
  | told {reply : Reply} {name value version version' : String} {es : List (Event F)}
      (h : decodeBackend reply.frame = .ok (.parameterStatus name value))
      (hrest : Login password (if name = "server_version" then value else version) es version') :
      Login password version (.drained reply :: es) version'
  | passed {reply : Reply} {msg : BackendMessage} {version version' : String}
      {es : List (Event F)} (h : decodeBackend reply.frame = .ok msg) (hmsg : Passes msg)
      (hrest : Login password version es version') :
      Login password version (.drained reply :: es) version'

/-- Answers up to a `ReadyForQuery`, none of them an error. -/
inductive Answered : List (Event F) → Prop
  | ready {reply : Reply} {status : TransactionStatus}
      (h : decodeBackend reply.frame = .ok (.readyForQuery status)) : Answered [.drained reply]
  | more {reply : Reply} {msg : BackendMessage} {es : List (Event F)}
      (h : decodeBackend reply.frame = .ok msg) (herror : ∀ fields, msg ≠ .errorResponse fields)
      (hready : ∀ status, msg ≠ .readyForQuery status) (hrest : Answered es) :
      Answered (.drained reply :: es)

/-- A statement was sent, and its answers read without an error. -/
inductive Done (sql : String) : List (Event F) → Prop
  | intro {a b c d : Nat} {es : List (Event F)} (hes : Answered es) :
      Done sql (.own a (.parse "" sql []) :: .own b (.bind "" "" [0, 0, 0, 0, 0, 0]) ::
        .own c (.execute "" 0) :: .own d .sync :: es)

/-- Statements were done one after the other. -/
inductive AllDone : List String → List (Event F) → Prop
  | nil : AllDone [] []
  | cons {sql : String} {rest : List String} {es fs : List (Event F)} (hes : Done sql es)
      (hfs : AllDone rest fs) : AllDone (sql :: rest) (es ++ fs)

/-- A session of the backend was opened, and it has told this version. -/
def Opened (cfg : ProxyConfig F) (version : String) (es : List (ConnEvent σ F)) : Prop :=
  ∃ login pinned, es = .connected :: .originated cfg.backend.startup ::
      (login.map .session ++ pinned.map .session) ∧
    Login cfg.backend.password "" login version ∧ AllDone (pins cfg) pinned

/-- A message the proxy may send of its own while it opens the session. -/
def OpeningMessage (cfg : ProxyConfig F) (msg : FrontendMessage) : Prop :=
  msg = .passwordMessage cfg.backend.password ∨ ∃ sql ∈ pins cfg, msg ∈ extendedUnit sql

/-- What may happen while the session is opened. -/
inductive Opening (cfg : ProxyConfig F) : ConnEvent σ F → Prop
  | connected : Opening cfg .connected
  | originated : Opening cfg (.originated cfg.backend.startup)
  | read (reply : Reply) : Opening cfg (.session (.drained reply))
  | sent {n : Nat} {msg : FrontendMessage} (h : OpeningMessage cfg msg) :
      Opening cfg (.session (.own n msg))

/-! ## Statements of the proxy's own -/

/-- A message that is read, or the end where there is none. -/
theorem decode_bind {β : Type} {frame : RawFrame} {k : BackendMessage → Session σ F β}
    {P : Except SessionError β → List (Event F) → Prop} (hstop : ∀ e, P (.error e) [])
    (hk : ∀ msg, decodeBackend frame = .ok msg → Traces (fun _ => True) P (k msg)) :
    Traces (fun _ => True) P (Eff.mapError .protocol (Eff.lift (decodeBackend frame)) >>= k) := by
  cases hdecode : decodeBackend frame with
  | error e => exact fun s hs => ⟨[], by simp [Eff.bind_apply, Except.mapError], hstop _, hs⟩
  | ok msg => exact hk msg hdecode

theorem drainToReady_traces (replies : List Reply) :
    Traces (fun _ => True)
      (fun r es => (∀ e ∈ es, ∃ reply, e = .drained reply) ∧ (r = .ok () → Answered es))
      (drainToReady replies : Session σ F Unit) := by
  induction replies with
  | nil => exact .fail ⟨nofun, nofun⟩
  | cons reply rest ih =>
      refine .emit_bind (takeReply_emits (J := fun _ => True) rest _) (fun _ => ⟨nofun, nofun⟩)
        fun _ e he => ?_
      subst he
      have hread : ∀ e ∈ [(.drained reply : Event F)], ∃ reply, e = .drained reply :=
        List.forall_mem_singleton.mpr ⟨reply, rfl⟩
      refine decode_bind (fun _ => ⟨hread, nofun⟩) fun msg hdecode => ?_
      have hmore (herror : ∀ fields, msg ≠ .errorResponse fields)
          (hready : ∀ status, msg ≠ .readyForQuery status) :
          Traces (fun _ => True)
            (fun r es => (∀ e ∈ .drained reply :: es, ∃ reply, e = .drained reply) ∧
              (r = .ok () → Answered (.drained reply :: es)))
            (drainToReady rest : Session σ F Unit) :=
        ih.mono fun r es hes =>
          ⟨List.forall_mem_cons.mpr ⟨⟨reply, rfl⟩, hes.1⟩,
            fun hr => .more hdecode herror hready (hes.2 hr)⟩
      cases msg with
      | errorResponse fields => exact .fail ⟨hread, nofun⟩
      | readyForQuery status => exact .pure ⟨hread, fun _ => .ready hdecode⟩
      | _ => exact hmore nofun nofun

variable [Network σ]

/-- What may be left of a statement. -/
def PartOf (sql : String) (e : Event F) : Prop := SentOf sql e ∨ ∃ reply, e = .drained reply

theorem inject_traces (sql : String) :
    Traces (fun _ => True) (fun r es => (∀ e ∈ es, PartOf sql e) ∧ (r = .ok () → Done sql es))
      (inject sql : Session σ F Unit) := by
  refine .bind (sendExtendedUnit_traces sql)
    (fun e es h => ⟨fun ev hev => .inl (h.1 ev hev), nofun⟩) fun _ es h => ?_
  obtain ⟨a, b, c, d, rfl⟩ := h.2.2 rfl
  refine .find_bind (Q := fun _ => True) (fun _ _ => ⟨_, _, rfl, trivial, trivial⟩)
    fun inbox _ => ?_
  refine (drainToReady_traces inbox).mono fun r fs hfs => ⟨?_, fun hr => .intro (hfs.2 hr)⟩
  refine List.forall_mem_append.mpr ⟨fun e he => .inl (h.1 e he), fun e he => .inr (hfs.1 e he)⟩

theorem injectAll_traces (sqls : List String) :
    Traces (fun _ => True)
      (fun r es => (∀ e ∈ es, ∃ sql ∈ sqls, PartOf sql e) ∧ (r = .ok () → AllDone sqls es))
      (injectAll sqls : Session σ F Unit) := by
  induction sqls with
  | nil => exact .pure ⟨nofun, fun _ => .nil⟩
  | cons sql rest ih =>
      refine .bind (inject_traces sql)
        (fun e es h => ⟨fun ev hev => ⟨sql, by simp, h.1 ev hev⟩, nofun⟩) fun _ es h => ?_
      refine ih.mono fun r fs hfs => ⟨?_, fun hr => .cons (h.2 rfl) (hfs.2 hr)⟩
      refine List.forall_mem_append.mpr ⟨fun e he => ⟨sql, by simp, h.1 e he⟩, fun e he => ?_⟩
      obtain ⟨sql', hsql, hpart⟩ := hfs.1 e he
      exact ⟨sql', List.mem_cons_of_mem sql hsql, hpart⟩

/-! ## The login -/

omit [Network σ] in
/-- A program of the session, as one of the connection. -/
theorem inSession_traces {α : Type} {P : Except SessionError α → List (Event F) → Prop}
    {R : Except ConnError α → List (ConnEvent σ F) → Prop} {m : Session σ F α}
    (hm : Traces (fun _ => True) P m)
    (h : ∀ r es, P r es → R (r.mapError .session) (es.map .session)) :
    Traces (fun _ => True) R (inSession m : Conn σ F α) := by
  refine (hm.within fun _ _ => rfl).mapError fun r es hes => ?_
  obtain ⟨fs, rfl, hP⟩ := hes
  exact h r fs hP

omit [Network σ] in
theorem inSession_readInbox (s : Logged (Link σ) (ConnEvent σ F)) :
    (inSession readInbox : Conn σ F (List Reply)) s = (.ok s.world.session.inbox, s) := by
  have hrun : (inSession readInbox : Conn σ F (List Reply)) s =
      (.ok s.world.session.inbox, ⟨s.world, s.log ++ []⟩) := rfl
  rw [hrun, List.append_nil]

omit [Network σ] in
theorem nextReply_nil {s : Logged (Link σ) (ConnEvent σ F)} (h : s.world.session.inbox = []) :
    (nextReply : Conn σ F RawFrame) s =
      (.error (.session (.backend "backend closed during startup")), s) := by
  rw [nextReply, Eff.bind_of_ok (inSession_readInbox s), h]
  rfl

omit [Network σ] in
theorem nextReply_cons {s : Logged (Link σ) (ConnEvent σ F)} {reply : Reply} {rest : List Reply}
    (h : s.world.session.inbox = reply :: rest) :
    (nextReply : Conn σ F RawFrame) s =
      (.ok reply.frame, ⟨{ s.world with session := { s.world.session with inbox := rest } },
        s.log ++ [.session (.drained reply)]⟩) := by
  rw [nextReply, Eff.bind_of_ok (inSession_readInbox s), h]
  rfl

omit [Network σ] in
/-- A frame of the backend is read, or nothing is. -/
theorem nextReply_bind {β : Type} {k : RawFrame → Conn σ F β}
    {P : Except ConnError β → List (ConnEvent σ F) → Prop} (hstop : ∀ e, P (.error e) [])
    (hk : ∀ reply : Reply, Traces (fun _ => True)
      (fun r es => P r (.session (.drained reply) :: es)) (k reply.frame)) :
    Traces (fun _ => True) P (nextReply >>= k) := by
  intro s hs
  cases hinbox : s.world.session.inbox with
  | nil =>
      rw [Eff.bind_of_error (nextReply_nil hinbox)]
      exact ⟨[], by simp, hstop _, hs⟩
  | cons reply rest =>
      rw [Eff.bind_of_ok (nextReply_cons hinbox)]
      obtain ⟨es, hlog, hP, hI⟩ := hk reply _ trivial
      refine ⟨.session (.drained reply) :: es, ?_, hP, hI⟩
      rw [hlog, List.append_assoc]
      rfl

/-- The events of a login that has gone on with `es`, or that has ended in it. -/
def LoggingIn (cfg : ProxyConfig F) (version : String) (r : Except ConnError String)
    (es : List (ConnEvent σ F)) : Prop :=
  (∀ e ∈ es, Opening cfg e) ∧ ∀ version', r = .ok version' →
    ∃ login, es = login.map .session ∧ Login cfg.backend.password version login version'

theorem waitForReady_traces (cfg : ProxyConfig F) (n : Nat) (version : String) :
    Traces (fun _ => True) (LoggingIn cfg version)
      (waitForReady cfg.backend n version : Conn σ F String) := by
  induction n generalizing version with
  | zero => exact .fail ⟨nofun, nofun⟩
  | succ n ih =>
      refine nextReply_bind (fun _ => ⟨nofun, nofun⟩) fun reply => ?_
      have hread : ∀ e ∈ [(.session (.drained reply) : ConnEvent σ F)], Opening cfg e :=
        List.forall_mem_singleton.mpr (.read reply)
      refine lift_bind (fun _ => ⟨hread, nofun⟩) fun msg hmsg => ?_
      have hdecode := ofCodec_ok hmsg
      have hfail (e : ConnError) : Traces (fun _ => True)
          (fun r es => LoggingIn cfg version r (.session (.drained reply) :: es))
          (Eff.fail e : Conn σ F String) := .fail ⟨hread, nofun⟩
      have hpassed (h : Passes msg) : Traces (fun _ => True)
          (fun r es => LoggingIn cfg version r (.session (.drained reply) :: es))
          (waitForReady cfg.backend n version : Conn σ F String) := by
        refine (ih version).mono fun r es hes =>
          ⟨List.forall_mem_cons.mpr ⟨.read reply, hes.1⟩, fun version' hr => ?_⟩
        obtain ⟨login, rfl, hlogin⟩ := hes.2 version' hr
        exact ⟨.drained reply :: login, rfl, .passed hdecode h hlogin⟩
      cases msg with
      | authenticationCleartextPassword =>
          refine .emit_bind (inSession_emits (sendOwn_emits (J := fun _ => True) _))
            (fun _ => ⟨hread, nofun⟩) ?_
          rintro - _ ⟨_, rfl, m, rfl⟩
          refine (ih version).mono fun r es hes => ⟨?_, fun version' hr => ?_⟩
          · refine List.forall_mem_cons.mpr ⟨.read reply, List.forall_mem_cons.mpr ⟨?_, hes.1⟩⟩
            exact .sent (.inl rfl)
          · obtain ⟨login, rfl, hlogin⟩ := hes.2 version' hr
            exact ⟨_, rfl, .asked hdecode hlogin⟩
      | parameterStatus name value =>
          refine (ih _).mono fun r es hes =>
            ⟨List.forall_mem_cons.mpr ⟨.read reply, hes.1⟩, fun version' hr => ?_⟩
          obtain ⟨login, rfl, hlogin⟩ := hes.2 version' hr
          exact ⟨.drained reply :: login, rfl, .told hdecode hlogin⟩
      | readyForQuery status =>
          refine .pure ⟨hread, fun version' hr => ?_⟩
          cases hr
          exact ⟨[.drained reply], rfl, .ready hdecode⟩
      | authenticationMd5Password salt => exact hfail _
      | authenticationSasl mechanisms => exact hfail _
      | errorResponse fields => exact hfail _
      | _ => exact hpassed trivial

/-! ## The whole opening -/

theorem connect_emits (target : BackendTarget) :
    Emits (fun _ => True) (fun e => e = .connected) (connect target : Conn σ F Unit) := by
  intro s _
  unfold connect
  cases Network.connect s.world.session.outside target with
  | none => exact .inl ⟨_, rfl⟩
  | some outside => exact .inr ⟨_, _, _, rfl, rfl, trivial⟩

theorem originate_emits (startup : StartupMessage) :
    Emits (fun _ => True) (fun e => e = .originated startup)
      (originate startup : Conn σ F Unit) := by
  intro s _
  unfold originate
  cases Network.originate s.world.session.outside startup with
  | none => exact .inl ⟨_, rfl⟩
  | some answered => exact .inr ⟨_, _, _, rfl, rfl, trivial⟩

omit [Network σ] in
theorem opening_of_part {cfg : ProxyConfig F} {sql : String} (hsql : sql ∈ pins cfg) {e : Event F}
    (h : PartOf sql e) : Opening (σ := σ) cfg (.session e) := by
  rcases h with ⟨n, msg, hmsg, rfl⟩ | ⟨reply, rfl⟩
  · exact .sent (.inr ⟨sql, hsql, hmsg⟩)
  · exact .read reply

theorem connectBackend_traces (cfg : ProxyConfig F) (patience : Nat) :
    Traces (fun _ => True)
      (fun r es => (∀ e ∈ es, Opening cfg e) ∧ ∀ version, r = .ok version → Opened cfg version es)
      (connectBackend cfg patience : Conn σ F String) := by
  refine .emit_bind (connect_emits _) (fun _ => ⟨nofun, nofun⟩) fun _ e he => ?_
  subst he
  have hconnected : ∀ e ∈ [(.connected : ConnEvent σ F)], Opening cfg e :=
    List.forall_mem_singleton.mpr .connected
  refine .emit_bind (originate_emits _) (fun _ => ⟨hconnected, nofun⟩) fun _ e he => ?_
  subst he
  have hopening {es : List (ConnEvent σ F)} (h : ∀ e ∈ es, Opening cfg e) :
      ∀ e ∈ .connected :: .originated cfg.backend.startup :: es, Opening cfg e :=
    List.forall_mem_cons.mpr ⟨.connected, List.forall_mem_cons.mpr ⟨.originated, h⟩⟩
  refine .bind (waitForReady_traces cfg patience "") (fun e es h => ⟨hopening h.1, nofun⟩)
    fun version es h => ?_
  obtain ⟨login, rfl, hlogin⟩ := h.2 version rfl
  have hpinned : Traces (fun _ => True)
      (fun r es => (∀ e ∈ es, Opening cfg e) ∧ (r = .ok () →
        ∃ pinned, es = pinned.map .session ∧ AllDone (pins cfg) pinned))
      (inSession (injectAll (pins cfg)) : Conn σ F Unit) := by
    refine inSession_traces (injectAll_traces (pins cfg)) fun r fs hfs => ⟨?_, fun hr => ?_⟩
    · intro e he
      obtain ⟨e', he', rfl⟩ := List.mem_map.mp he
      obtain ⟨sql, hsql, hpart⟩ := hfs.1 e' he'
      exact opening_of_part hsql hpart
    · refine ⟨fs, rfl, hfs.2 ?_⟩
      cases r with
      | ok u => rfl
      | error e => cases hr
  refine .bind hpinned (fun e fs hfs => ⟨?_, nofun⟩) fun _ fs hfs => .pure ⟨?_, ?_⟩
  · exact hopening (List.forall_mem_append.mpr ⟨h.1, hfs.1⟩)
  · rw [List.append_nil]
    exact hopening (List.forall_mem_append.mpr ⟨h.1, hfs.1⟩)
  · intro version' hversion
    cases hversion
    obtain ⟨pinned, rfl, hdone⟩ := hfs.2 rfl
    exact ⟨login, pinned, by simp, hlogin, hdone⟩

/-! ## Nothing is left behind -/

/-- The backend waits behind this frame for what the proxy sends next. -/
def Stops (frame : RawFrame) : Prop :=
  frame.tag = tagReadyForQuery ∨ decodeBackend frame = .ok .authenticationCleartextPassword

/-- No frame follows one behind which the backend waits. -/
def Settles (frames : List RawFrame) : Prop :=
  ∀ pre frame post, frames = pre ++ frame :: post → Stops frame → post = []

/-- The backend waits where it says so while it lets the proxy in, and follows the protocol
from then on. -/
structure OpensInStep (σ : Type) [Network σ] : Prop where
  startup : ∀ (outside outside' : σ) startup answers,
    Network.originate outside startup = some (outside', answers) → Settles answers
  password : ∀ (outside outside' : σ) frame answers, frame.tag = tagPassword →
    Outside.toBackend outside frame = some (outside', answers) → Settles answers
  unit : ∀ (outside outside' : σ) frame answers, frame.tag ≠ tagPassword →
    Outside.toBackend outside frame = some (outside', answers) →
      (frame.tag = tagSync → EndsReady answers) ∧ (frame.tag ≠ tagSync → NoReady answers)

theorem settles_cons {frame : RawFrame} {rest : List RawFrame} (h : Settles (frame :: rest)) :
    (Stops frame → rest = []) ∧ Settles rest := by
  refine ⟨h [] frame rest rfl, fun pre frame' post heq => h (frame :: pre) frame' post ?_⟩
  rw [heq, List.cons_append]

/-- A frame that decodes has the tag of its message. -/
theorem readBackend_tag (tag : UInt8) :
    Eff.Yields (fun msg => msg.tag = tag) (readBackend tag) := by
  refine .ite (fun h => .bind fun _ => ?_) fun _ => ?_
  · subst h
    refine .ite (fun _ => .pure rfl) fun _ => .ite (fun _ => .pure rfl) fun _ => ?_
    refine .ite (fun _ => .bind fun _ => .pure rfl) fun _ => ?_
    refine .ite (fun _ => .bind fun _ => .pure rfl) fun _ => ?_
    refine .ite (fun _ => .bind fun _ => .pure rfl) fun _ => ?_
    exact .ite (fun _ => .bind fun _ => .pure rfl) fun _ => .fail _
  refine .ite (fun h => .bind fun _ => .bind fun _ => .pure h.symm) fun _ => ?_
  refine .ite (fun h => .bind fun _ => .bind fun _ => .pure h.symm) fun _ => ?_
  refine .ite (fun h => .bind fun _ => .bind fun _ => .pure h.symm) fun _ => ?_
  refine .ite (fun h => .bind fun _ => .pure h.symm) fun _ => ?_
  refine .ite (fun h => .bind fun _ => .pure h.symm) fun _ => ?_
  refine .ite (fun h => .bind fun _ => .pure h.symm) fun _ => ?_
  refine .ite (fun h => .bind fun _ => .pure h.symm) fun _ => ?_
  refine .ite (fun h => .bind fun _ => .pure h.symm) fun _ => ?_
  refine .ite (fun h => .pure h.symm) fun _ => ?_
  refine .ite (fun h => .pure h.symm) fun _ => ?_
  refine .ite (fun h => .pure h.symm) fun _ => ?_
  refine .ite (fun h => .pure h.symm) fun _ => ?_
  refine .ite (fun h => .pure h.symm) fun _ => ?_
  refine .ite (fun h => .pure h.symm) fun _ => ?_
  refine .ite (fun h => .bind fun _ => .bind fun _ => .pure h.symm) fun _ => ?_
  refine .ite (fun h => .bind fun _ => .bind fun _ => .pure h.symm) fun _ => ?_
  refine .ite (fun h => .bind fun _ => .pure h.symm) fun _ => ?_
  exact .ite (fun h => .pure h.symm) fun _ => .fail _

theorem decodeBackend_tag {frame : RawFrame} {msg : BackendMessage}
    (h : decodeBackend frame = .ok msg) : frame.tag = msg.tag :=
  (readBackend_tag frame.tag frame.body msg h).symm

/-- The answers that wait satisfy `P`. -/
def Unread (P : List RawFrame → Prop) (w : World σ) : Prop := P w.unread

/-- What a message of the proxy's own leaves waiting. -/
theorem sendOwn_unread {P Q : List RawFrame → Prop} {msg : FrontendMessage}
    (h : ∀ (outside outside' : σ) answers, Outside.toBackend outside msg.encode =
      some (outside', answers) → ∀ old, P old → Q (old ++ answers)) :
    Eff.Triple (fun s => Unread P s.world) (sendOwn msg : Session σ F Unit)
      (fun _ s => Unread Q s.world) (fun _ => True) := by
  intro s hs
  unfold sendOwn sendBackend
  cases hanswer : Outside.toBackend s.world.outside msg.encode with
  | none => trivial
  | some answer =>
      have hmap : (answer.2.map fun f => (⟨f, s.world.sent⟩ : Reply)).map Reply.frame =
          answer.2 := by simp [Function.comp_def]
      show Q (World.unread _)
      rw [World.unread, List.map_append, hmap]
      exact h s.world.outside answer.1 answer.2 hanswer s.world.unread hs

omit [Network σ] in
/-- A unit is read to its end, and nothing waits behind it. -/
theorem drainToReady_unread {replies : List Reply} (hends : EndsReady (replies.map Reply.frame)) :
    Eff.Triple (fun s => Unread (fun _ => True) s.world) (drainToReady replies : Session σ F Unit)
      (fun _ s => Unread (· = []) s.world) (fun _ => True) := by
  induction replies with
  | nil => exact absurd hends not_endsReady_nil
  | cons reply rest ih =>
      obtain ⟨hlast, hmore⟩ := endsReady_cons hends
      have htake : Eff.Triple (fun s => Unread (fun _ => True) s.world)
          (takeReply rest (.drained reply) : Session σ F Unit)
          (fun _ s => Unread (· = rest.map Reply.frame) s.world) (fun _ => True) :=
        fun _ _ => rfl
      refine .bind htake fun _ => ?_
      cases hdecode : decodeBackend reply.frame with
      | error e => exact fun _ _ => trivial
      | ok msg =>
          have htag := decodeBackend_tag hdecode
          have hdrain (hother : msg.tag ≠ tagReadyForQuery) : Eff.Triple
              (fun s => Unread (· = rest.map Reply.frame) s.world)
              (drainToReady rest : Session σ F Unit)
              (fun _ s => Unread (· = []) s.world) (fun _ => True) :=
            (ih (hmore (htag ▸ hother))).conseq (fun _ _ => trivial) fun _ _ hs => hs
          cases msg with
          | errorResponse fields => exact .fail fun _ _ => trivial
          | readyForQuery status =>
              refine .pure fun s hs => ?_
              show s.world.unread = []
              rw [hs, hlast htag]
          | _ => exact hdrain (by simp only [BackendMessage.tag]; decide)

theorem sendExtendedUnit_unread (hstep : OpensInStep σ) (sql : String) :
    Eff.Triple (fun s => Unread (· = []) s.world) (sendExtendedUnit sql : Session σ F Unit)
      (fun _ s => Unread EndsReady s.world) (fun _ => True) := by
  have hother {msg : FrontendMessage} (hsync : msg.tag ≠ tagSync)
      (hpassword : msg.tag ≠ tagPassword) :
      Eff.Triple (fun s => Unread NoReady s.world) (sendOwn msg : Session σ F Unit)
        (fun _ s => Unread NoReady s.world) (fun _ => True) :=
    sendOwn_unread fun outside outside' answers hanswers old hold =>
      noReady_append hold ((hstep.unit outside outside' _ answers hpassword hanswers).2 hsync)
  have hnone : ∀ s : Logged (World σ) (Event F), Unread (· = []) s.world →
      Unread NoReady s.world := by
    intro s hs
    show NoReady s.world.unread
    rw [hs]
    exact List.forall_mem_nil _
  refine .conseq ?_ hnone fun _ _ hs => hs
  refine .bind (hother (show tagParse ≠ tagSync by decide) (show tagParse ≠ tagPassword by decide))
    fun _ => ?_
  refine .bind (hother (by decide) (by decide)) fun _ => ?_
  refine .bind (hother (by decide) (by decide)) fun _ => ?_
  exact sendOwn_unread fun outside outside' answers hanswers old hold =>
    endsReady_append hold ((hstep.unit outside outside' _ answers (by decide) hanswers).1 rfl)

theorem inject_unread (hstep : OpensInStep σ) (sql : String) :
    Eff.Triple (fun s => Unread (· = []) s.world) (inject sql : Session σ F Unit)
      (fun _ s => Unread (· = []) s.world) (fun _ => True) := by
  refine .bind (sendExtendedUnit_unread hstep sql) fun _ => ?_
  intro s hs
  have hrun : (readInbox >>= fun inbox => drainToReady inbox : Session σ F Unit) s =
      drainToReady s.world.inbox s := rfl
  rw [hrun]
  exact drainToReady_unread hs s trivial

theorem injectAll_unread (hstep : OpensInStep σ) (sqls : List String) :
    Eff.Triple (fun s => Unread (· = []) s.world) (injectAll sqls : Session σ F Unit)
      (fun _ s => Unread (· = []) s.world) (fun _ => True) := by
  induction sqls with
  | nil => exact .pure fun _ hs => hs
  | cons sql rest ih => exact .bind (inject_unread hstep sql) fun _ => ih

/-- The answers that wait for a connection. -/
def Awaits (P : List RawFrame → Prop) (s : Logged (Link σ) (ConnEvent σ F)) : Prop :=
  Unread P s.world.session

omit [Network σ] in
theorem inSession_awaits {α : Type} {P : List RawFrame → Prop} {Q : α → List RawFrame → Prop}
    {m : Session σ F α}
    (h : Eff.Triple (fun s => Unread P s.world) m (fun a s => Unread (Q a) s.world)
      (fun _ => True)) :
    Eff.Triple (Awaits P) (inSession m : Conn σ F α) (fun a => Awaits (Q a)) (fun _ => True) :=
  .mapError (Eff.Triple.within (P := Unread P) (Q := fun a => Unread (Q a)) (E := fun _ => True) h
    fun _ _ => rfl)

omit [Network σ] in
/-- A frame behind which the backend waits is the last. -/
theorem nextReply_awaits :
    Eff.Triple (Awaits Settles) (nextReply : Conn σ F RawFrame)
      (fun frame s => Awaits (fun frames => (Stops frame → frames = []) ∧ Settles frames) s)
      (fun _ => True) := by
  intro s hs
  cases hinbox : s.world.session.inbox with
  | nil =>
      rw [nextReply_nil hinbox]
      trivial
  | cons reply rest =>
      rw [nextReply_cons hinbox]
      have hframes : Settles (reply.frame :: rest.map Reply.frame) := by
        have hunread : s.world.session.unread = reply.frame :: rest.map Reply.frame := by
          rw [World.unread, hinbox, List.map_cons]
        rw [← hunread]
        exact hs
      exact settles_cons hframes

theorem waitForReady_awaits (hstep : OpensInStep σ) (target : BackendTarget) (n : Nat)
    (version : String) :
    Eff.Triple (Awaits Settles) (waitForReady target n version : Conn σ F String)
      (fun _ => Awaits (· = [])) (fun _ => True) := by
  induction n generalizing version with
  | zero => exact .fail fun _ _ => trivial
  | succ n ih =>
      refine .bind nextReply_awaits fun frame => .lift_bind (fun msg hmsg => ?_) fun _ _ => trivial
      have hdecode := ofCodec_ok hmsg
      have hagain (version : String) : Eff.Triple
          (Awaits fun frames => (Stops frame → frames = []) ∧ Settles frames)
          (waitForReady target n version : Conn σ F String) (fun _ => Awaits (· = []))
          (fun _ => True) :=
        (ih version).conseq (fun _ hs => hs.2) fun _ _ hs => hs
      cases msg with
      | authenticationCleartextPassword =>
          refine .bind (inSession_awaits (Q := fun _ => Settles) (sendOwn_unread ?_)) fun _ =>
            ih version
          intro outside outside' answers hanswers old hold
          rw [hold.1 (.inr hdecode), List.nil_append]
          exact hstep.password outside outside' _ answers rfl hanswers
      | readyForQuery status =>
          exact .pure fun _ hs => hs.1 (.inl (decodeBackend_tag hdecode))
      | authenticationMd5Password salt => exact .fail fun _ _ => trivial
      | authenticationSasl mechanisms => exact .fail fun _ _ => trivial
      | errorResponse fields => exact .fail fun _ _ => trivial
      | _ => exact hagain _

/-- Behind an opening that ended well no answer waits. -/
theorem connectBackend_settles (hstep : OpensInStep σ) (cfg : ProxyConfig F) (patience : Nat) :
    Eff.Triple (Awaits (· = [])) (connectBackend cfg patience : Conn σ F String)
      (fun _ => Awaits (· = [])) (fun _ => True) := by
  have hconnect : Eff.Triple (Awaits (· = [])) (connect cfg.backend : Conn σ F Unit)
      (fun _ => Awaits (· = [])) (fun _ => True) := by
    intro s hs
    unfold connect
    cases Network.connect s.world.session.outside cfg.backend with
    | none => trivial
    | some outside => exact hs
  have horiginate : Eff.Triple (Awaits (· = []))
      (originate cfg.backend.startup : Conn σ F Unit) (fun _ => Awaits Settles)
      (fun _ => True) := by
    intro s hs
    unfold originate
    cases hanswer : Network.originate s.world.session.outside cfg.backend.startup with
    | none => trivial
    | some answer =>
        have hinbox : s.world.session.inbox = [] := List.map_eq_nil_iff.mp hs
        have hmap : (answer.2.map fun f => (⟨f, s.world.session.sent⟩ : Reply)).map Reply.frame =
            answer.2 := by simp [Function.comp_def]
        show Settles (World.unread _)
        rw [World.unread, hinbox, List.nil_append, hmap]
        exact hstep.startup s.world.session.outside answer.1 _ answer.2 hanswer
  refine .bind hconnect fun _ => .bind horiginate fun _ => ?_
  refine .bind (waitForReady_awaits hstep cfg.backend patience "") fun version => ?_
  exact .bind (inSession_awaits (Q := fun _ => (· = [])) (injectAll_unread hstep (pins cfg)))
    fun _ => .pure fun _ hs => hs

/-! ## The agent's side -/

/-- What an agent sends: its startup message, its proof, and then frames. -/
structure Script where
  startup : StartupMessage
  client : HonestClient
  frames : List RawFrame

/-- The frame with the first text of the client. -/
def Script.first (script : Script) : RawFrame :=
  (FrontendMessage.saslInitialResponse
    ⟨sha256Mechanism, some (bytesOf script.client.clientFirst)⟩).encode

/-- The frame with the final text of the client. -/
def Script.final [Base64] (script : Script) (crypto : Crypto) (password : String) (salt : Bytes)
    (nonce : Text) : RawFrame :=
  (FrontendMessage.saslResponse
    (bytesOf (script.client.clientFinal crypto password.toList salt 4096 nonce))).encode

/-- The bytes of a script. -/
def Script.bytes [Base64] (script : Script) (crypto : Crypto) (password : String) (salt : Bytes)
    (nonce : Text) : Bytes :=
  frameUntagged script.startup.encodeBody ++ (frameTagged script.first ++
    (frameTagged (script.final crypto password salt nonce) ++ script.frames.flatMap frameTagged))

/-! ## A small network -/

/-- What the small backend says to a startup message. -/
def smallWelcome : List RawFrame :=
  [BackendMessage.authenticationOk.encode,
    (BackendMessage.parameterStatus "server_version" "16.2").encode, readyForQuery .idle]

/-- A backend that trusts the proxy and answers a `Sync` only, and TLS that is a toy
cipher. -/
@[reducible] def Network.small : Network Unit where
  tick := id
  toBackend := fun _ frame => some ((), if frame.tag = tagSync then [readyForQuery .idle] else [])
  toAgent := fun _ _ => some ()
  append := fun _ _ => .ok ()
  clock := fun _ => (0, ())
  negotiate := fun _ _ => some ()
  accept := fun _ raw => some (raw.map (· ^^^ 0x5A), ())
  connect := fun _ _ => some ()
  originate := fun _ _ => some ((), smallWelcome)
  salt := fun _ => ([], ())
  nonce := fun _ => ("AQID".toList, ())

/-- A deployment that requires TLS. -/
def ProxyConfig.small : ProxyConfig Nat where
  toConfig := Config.small
  requireTls := true
  backend := ⟨"localhost", 54321, "postgres", "pgb_agent", "backend_pw"⟩
  agentPassword := "agent_pw"
  statementTimeoutMs := 30000
  searchPath := "pg_catalog, \"public\""

/-- The agent of the small deployment, and what it sends within TLS. -/
def Script.small : Script where
  startup := ⟨protocolVersion3, [("user", "agent"), ("database", "postgres")]⟩
  client := ⟨"n".toList, [], "agent".toList, "abc".toList, [], [], by decide +kernel, nofun⟩
  frames := [parseFrame "" "SELECT 1", syncFrame]

/-- The bytes of that agent, as they come in. -/
def smallStream : Bytes :=
  letI := Base64.standard
  frameUntagged sslRequestBody ++
    (Script.small.bytes lengths ProxyConfig.small.agentPassword [] "AQID".toList).map (· ^^^ 0x5A)

theorem settles_smallWelcome : Settles smallWelcome := by
  -- The first two frames are neither the end of a unit nor a request for the password.
  have hok : ¬ Stops BackendMessage.authenticationOk.encode := by
    rintro (htag | hdecode)
    · exact absurd htag (by decide)
    · have hread : decodeBackend BackendMessage.authenticationOk.encode =
          .ok .authenticationOk := rfl
      rw [hread] at hdecode
      cases hdecode
  have htold (name value : String) :
      ¬ Stops (BackendMessage.parameterStatus name value).encode := by
    rintro (htag | hdecode)
    · exact absurd htag (show tagParameterStatus ≠ tagReadyForQuery by decide)
    · have htag := decodeBackend_tag hdecode
      exact absurd htag (show tagParameterStatus ≠ tagAuthentication by decide)
  intro pre frame post heq hstops
  rcases pre with _ | ⟨_, _ | ⟨_, _ | ⟨_, _ | ⟨_, pre⟩⟩⟩⟩
  all_goals simp [smallWelcome] at heq
  · rw [← heq.1] at hstops
    exact absurd hstops hok
  · rw [← heq.2.1] at hstops
    exact absurd hstops (htold _ _)
  · exact heq.2.2.2

theorem opensInStep_small : @OpensInStep Unit Network.small := by
  let _ := Network.small
  refine ⟨?_, ?_, ?_⟩
  · intro outside outside' startup answers h
    cases h
    exact settles_smallWelcome
  · intro outside outside' frame answers htag h
    cases h
    rw [if_neg (by rw [htag]; decide)]
    intro pre frame' post heq
    simp at heq
  · intro outside outside' frame answers htag h
    cases h
    refine ⟨fun hsync => ?_, fun hsync => ?_⟩
    · rw [if_pos hsync]
      exact ⟨[], readyForQuery .idle, rfl, List.forall_mem_nil _, rfl⟩
    · rw [if_neg hsync]
      exact List.forall_mem_nil _

end PgBrakes.Ports.Proxy
