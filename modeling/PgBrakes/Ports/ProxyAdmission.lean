import PgBrakes.Ports.ProxyServe

/-!
# An honest agent is let in

The other direction of the stages.  The agent knows the password and sends what the
protocol asks for, the socket holds, and the backend lets the proxy in and takes its pins.
Then the connection gets through all of its stages, and the loop takes a turn for each
frame the agent has sent behind its proof, in their order, up to the one that ends it.
What the loop ends with is what the connection ends with.

A stage is a triple that can not stop with an error, over the bytes of the agent that are
still to be read and the answers of the backend that wait.  The loop may stop with one, so
behind the stages its outcome is named.

## Main results

* `framesOf_flatMap` — the frames on a stream of frames.
* `serve_admits` — the honest agent in front of a cooperating backend.
* `serveEncrypted_ignores` — nothing the agent names in its startup message matters.
-/

namespace PgBrakes.Ports.Proxy

open PgBrakes.Ports.ExplainGate
open PgBrakes.Ports.ReadAst (Parser)
open PgBrakes.Ports.Scram
open PgBrakes.Ports.Wire
open PgBrakes.Verified
open PgBrakes.Verified.Effect

variable {σ F : Type}

/-! ## Frames on a stream -/

theorem framesWithin_flatMap {frames : List RawFrame} (h : ∀ f ∈ frames, Fits f.body) :
    ∀ n, frames.length ≤ n → framesWithin n (frames.flatMap frameTagged) = (frames, .ok ()) := by
  induction frames with
  | nil =>
      intro n _
      cases n with
      | zero => rfl
      | succ n => rfl
  | cons frame rest ih =>
      intro n hn
      obtain ⟨n, rfl⟩ : ∃ m, n = m + 1 := ⟨n - 1, by rw [List.length_cons] at hn; omega⟩
      have hread : readTaggedFrame (frameTagged frame ++ rest.flatMap frameTagged) =
          (.ok (some frame), rest.flatMap frameTagged) :=
        readTaggedFrame_frame (h frame (by simp)) _
      rw [List.flatMap_cons, framesWithin, hread]
      have hrest := ih (fun f hf => h f (by simp [hf])) n (by rw [List.length_cons] at hn; omega)
      dsimp only
      rw [hrest]

/-- Frames are read back from the stream of their bytes, and the stream ends between two of
them. -/
theorem framesOf_flatMap {frames : List RawFrame} (h : ∀ f ∈ frames, Fits f.body) :
    framesOf (frames.flatMap frameTagged) = (frames, .ok ()) :=
  framesWithin_flatMap h _ (length_le_flatMap frameTagged (fun f => by simp [frameTagged]) frames)

/-! ## A backend that lets the proxy in -/

/-- Answers that let the proxy in. -/
inductive Welcomes : List RawFrame → Prop
  | ready {frame : RawFrame} {status : TransactionStatus}
      (h : decodeBackend frame = .ok (.readyForQuery status)) : Welcomes [frame]
  | told {frame : RawFrame} {name value : String} {rest : List RawFrame}
      (h : decodeBackend frame = .ok (.parameterStatus name value)) (hrest : Welcomes rest) :
      Welcomes (frame :: rest)
  | passed {frame : RawFrame} {msg : BackendMessage} {rest : List RawFrame}
      (h : decodeBackend frame = .ok msg) (hmsg : Passes msg) (hrest : Welcomes rest) :
      Welcomes (frame :: rest)

/-- The frame is no error and not the end of a unit. -/
def Harmless (frame : RawFrame) : Prop :=
  ∃ msg, decodeBackend frame = .ok msg ∧ (∀ fields, msg ≠ .errorResponse fields) ∧
    ∀ status, msg ≠ .readyForQuery status

/-- Answers that end a unit well. -/
inductive Finishes : List RawFrame → Prop
  | ready {frame : RawFrame} {status : TransactionStatus}
      (h : decodeBackend frame = .ok (.readyForQuery status)) : Finishes [frame]
  | more {frame : RawFrame} {rest : List RawFrame} (h : Harmless frame) (hrest : Finishes rest) :
      Finishes (frame :: rest)

/-- The socket holds, the salt and the nonce are these, and the backend lets the proxy in
and takes its statements. -/
structure Cooperates (σ : Type) [Network σ] (patience : Nat) (salt : Bytes) (nonce : Text) :
    Prop where
  negotiate : ∀ (outside : σ) answer, (Network.negotiate outside answer).isSome
  toAgent : ∀ (outside : σ) frame, (Outside.toAgent outside frame).isSome
  salt : ∀ outside : σ, (Network.salt outside).1 = salt
  nonce : ∀ outside : σ, (Network.nonce outside).1 = nonce
  connect : ∀ (outside : σ) target, (Network.connect outside target).isSome
  startup : ∀ (outside : σ) startup, ∃ outside' answers,
    Network.originate outside startup = some (outside', answers) ∧ Welcomes answers ∧
      answers.length ≤ patience
  unit : ∀ (outside : σ) sql, ∀ msg ∈ extendedUnit sql, ∃ outside' answers,
    Outside.toBackend outside msg.encode = some (outside', answers) ∧
      (msg = .sync → Finishes answers) ∧ (msg ≠ .sync → ∀ f ∈ answers, Harmless f)

theorem finishes_cons {frame : RawFrame} {rest : List RawFrame} (h : Finishes (frame :: rest)) :
    (∃ status, decodeBackend frame = .ok (.readyForQuery status) ∧ rest = []) ∨
      Harmless frame ∧ Finishes rest := by
  cases h with
  | ready h => exact .inl ⟨_, h, rfl⟩
  | more h hrest => exact .inr ⟨h, hrest⟩

theorem finishes_append {frames more : List RawFrame} (h : ∀ f ∈ frames, Harmless f)
    (hmore : Finishes more) : Finishes (frames ++ more) := by
  induction frames with
  | nil => exact hmore
  | cons frame rest ih =>
      exact .more (h frame (by simp)) (ih fun f hf => h f (by simp [hf]))

/-! ## Stages that do not fail -/

/-- The agent has these bytes still to be read, the answers that wait satisfy `P`, and the
loop has not begun. -/
def Stands (bytes : Bytes) (P : List RawFrame → Prop) (s : Logged (Link σ) (ConnEvent σ F)) :
    Prop :=
  s.world.stream = bytes ∧ P s.world.session.unread ∧ s.log.filterMap ConnEvent.turn? = []

/-- The program can not fail. -/
abbrev Never {ω : Type} : ω → Prop := fun _ => False

theorem filterMap_session (es : List (Event F)) :
    (es.map (ConnEvent.session (σ := σ))).filterMap ConnEvent.turn? = [] := by
  rw [List.filterMap_map]
  exact List.filterMap_eq_nil_iff.mpr fun _ _ => rfl

theorem stands_log {bytes : Bytes} {P : List RawFrame → Prop} {w : Link σ}
    {log : List (ConnEvent σ F)} {e : ConnEvent σ F} (hstream : w.stream = bytes)
    (hunread : P w.session.unread) (hlog : log.filterMap ConnEvent.turn? = [])
    (he : e.turn? = none) : Stands bytes P ⟨w, log ++ [e]⟩ := by
  refine ⟨hstream, hunread, ?_⟩
  rw [List.filterMap_append, hlog, List.nil_append]
  simp [he]

/-- A program of the session that can not fail. -/
theorem inSession_stands {α : Type} {bytes : Bytes} {P : List RawFrame → Prop}
    {Q : α → List RawFrame → Prop} {m : Session σ F α}
    (h : Eff.Triple (fun s => Unread P s.world) m (fun a s => Unread (Q a) s.world) Never) :
    Eff.Triple (Stands bytes P) (inSession m : Conn σ F α) (fun a => Stands bytes (Q a)) Never := by
  rintro s ⟨hstream, hunread, hlog⟩
  have hrun := h ⟨s.world.session, []⟩ hunread
  rcases hm : m ⟨s.world.session, []⟩ with ⟨r, s'⟩
  rw [hm] at hrun
  rw [inSession, Eff.mapError_apply, within_of hm]
  cases r with
  | error e => exact hrun
  | ok a =>
      refine ⟨hstream, hrun, ?_⟩
      show (s.log ++ s'.log.map ConnEvent.session).filterMap ConnEvent.turn? = []
      rw [List.filterMap_append, hlog, filterMap_session, List.nil_append]

theorem receive_stands {frame : RawFrame} (hfits : Fits frame.body) (eof : String)
    (rest : Bytes) {P : List RawFrame → Prop} :
    Eff.Triple (Stands (frameTagged frame ++ rest) P) (receive eof : Conn σ F RawFrame)
      (fun read s => read = frame ∧ Stands rest P s) Never := by
  rintro s ⟨hstream, hunread, hlog⟩
  have hread : readTaggedFrame s.world.stream = (.ok (some frame), rest) := by
    rw [hstream]
    exact readTaggedFrame_frame hfits rest
  have hrun : (receive eof : Conn σ F RawFrame) s =
      (.ok frame, ⟨{ s.world with stream := rest }, s.log ++ [.received frame]⟩) := by
    simp only [receive, hread]
  rw [hrun]
  exact ⟨rfl, stands_log rfl hunread hlog rfl⟩

section
variable [Network σ]

omit [Network σ] in
theorem draw_stands {α : Type} {source : σ → α × σ} {a : α} (h : ∀ outside, (source outside).1 = a)
    {bytes : Bytes} {P : List RawFrame → Prop} :
    Eff.Triple (Stands bytes P) (draw source : Conn σ F α)
      (fun drawn s => drawn = a ∧ Stands bytes P s) Never :=
  fun _ hs => ⟨h _, hs⟩

variable {patience : Nat} {salt : Bytes} {nonce : Text}

theorem send_stands (hcooperates : Cooperates σ patience salt nonce) (msg : BackendMessage)
    {bytes : Bytes} {P : List RawFrame → Prop} :
    Eff.Triple (Stands bytes P) (send msg : Conn σ F Unit) (fun _ => Stands bytes P) Never := by
  refine inSession_stands (Q := fun _ => P) fun s hs => ?_
  unfold deliver
  obtain ⟨outside, houtside⟩ :=
    Option.isSome_iff_exists.mp (hcooperates.toAgent s.world.outside msg.encode)
  rw [houtside]
  exact hs

theorem sendAll_stands (hcooperates : Cooperates σ patience salt nonce)
    (msgs : List BackendMessage) {bytes : Bytes} {P : List RawFrame → Prop} :
    Eff.Triple (Stands bytes P) (sendAll msgs : Conn σ F Unit) (fun _ => Stands bytes P) Never := by
  induction msgs with
  | nil => exact .pure fun _ hs => hs
  | cons msg rest ih => exact .bind (send_stands hcooperates msg) fun _ => ih

/-! ## The opening -/

theorem sendOwn_total {P Q : List RawFrame → Prop} {msg : FrontendMessage}
    (h : ∀ outside : σ, ∃ outside' answers, Outside.toBackend outside msg.encode =
      some (outside', answers) ∧ ∀ old, P old → Q (old ++ answers)) :
    Eff.Triple (fun s => Unread P s.world) (sendOwn msg : Session σ F Unit)
      (fun _ s => Unread Q s.world) Never := by
  intro s hs
  unfold sendOwn sendBackend
  obtain ⟨outside', answers, hanswers, hQ⟩ := h s.world.outside
  rw [hanswers]
  have hmap : (answers.map fun f => (⟨f, s.world.sent⟩ : Reply)).map Reply.frame = answers := by
    simp [Function.comp_def]
  show Q (World.unread _)
  rw [World.unread, List.map_append, hmap]
  exact hQ s.world.unread hs

omit [Network σ] in
theorem drainToReady_total {replies : List Reply} (h : Finishes (replies.map Reply.frame)) :
    Eff.Triple (fun s => Unread (fun _ => True) s.world) (drainToReady replies : Session σ F Unit)
      (fun _ s => Unread (· = []) s.world) Never := by
  induction replies with
  | nil => cases h
  | cons reply rest ih =>
      have htake : Eff.Triple (fun s => Unread (fun _ => True) s.world)
          (takeReply rest (.drained reply) : Session σ F Unit)
          (fun _ s => Unread (· = rest.map Reply.frame) s.world) Never := fun _ _ => rfl
      refine .bind htake fun _ => ?_
      rcases finishes_cons h with ⟨status, hdecode, hnil⟩ | ⟨⟨msg, hdecode, herror, hready⟩, hrest⟩
      · rw [hdecode]
        refine .pure fun s hs => ?_
        show s.world.unread = []
        rw [hs, hnil]
      · have hdrain := (ih hrest).conseq
          (P := fun s => Unread (· = rest.map Reply.frame) s.world) (fun _ _ => trivial)
          fun _ _ hs => hs
        rw [hdecode]
        cases msg with
        | errorResponse fields => exact absurd rfl (herror fields)
        | readyForQuery status => exact absurd rfl (hready status)
        | _ => exact hdrain

theorem inject_total (hcooperates : Cooperates σ patience salt nonce) (sql : String) :
    Eff.Triple (fun s => Unread (· = []) s.world) (inject sql : Session σ F Unit)
      (fun _ s => Unread (· = []) s.world) Never := by
  have hquiet {msg : FrontendMessage} (hmem : msg ∈ extendedUnit sql) (hsync : msg ≠ .sync) :
      Eff.Triple (fun s => Unread (fun frames => ∀ f ∈ frames, Harmless f) s.world)
        (sendOwn msg : Session σ F Unit)
        (fun _ s => Unread (fun frames => ∀ f ∈ frames, Harmless f) s.world) Never :=
    sendOwn_total fun outside => by
      obtain ⟨outside', answers, hanswers, -, hquiet⟩ := hcooperates.unit outside sql msg hmem
      exact ⟨outside', answers, hanswers, fun old hold =>
        List.forall_mem_append.mpr ⟨hold, hquiet hsync⟩⟩
  have hsync : Eff.Triple (fun s => Unread (fun frames => ∀ f ∈ frames, Harmless f) s.world)
      (sendOwn .sync : Session σ F Unit) (fun _ s => Unread Finishes s.world) Never :=
    sendOwn_total fun outside => by
      obtain ⟨outside', answers, hanswers, hfinishes, -⟩ :=
        hcooperates.unit outside sql .sync (by simp [extendedUnit])
      exact ⟨outside', answers, hanswers, fun old hold => finishes_append hold (hfinishes rfl)⟩
  have hunit : Eff.Triple (fun s => Unread (· = []) s.world)
      (sendExtendedUnit sql : Session σ F Unit) (fun _ s => Unread Finishes s.world) Never := by
    refine .conseq (.bind (hquiet (by simp [extendedUnit]) (by simp)) fun _ =>
      .bind (hquiet (by simp [extendedUnit]) (by simp)) fun _ =>
        .bind (hquiet (by simp [extendedUnit]) (by simp)) fun _ => hsync) (fun s hs => ?_)
      fun _ _ hs => hs
    show ∀ f ∈ s.world.unread, Harmless f
    rw [hs]
    exact List.forall_mem_nil _
  refine .bind hunit fun _ => ?_
  intro s hs
  have hrun : (readInbox >>= fun inbox => drainToReady inbox : Session σ F Unit) s =
      drainToReady s.world.inbox s := rfl
  rw [hrun]
  exact drainToReady_total hs s trivial

theorem injectAll_total (hcooperates : Cooperates σ patience salt nonce) (sqls : List String) :
    Eff.Triple (fun s => Unread (· = []) s.world) (injectAll sqls : Session σ F Unit)
      (fun _ s => Unread (· = []) s.world) Never := by
  induction sqls with
  | nil => exact .pure fun _ hs => hs
  | cons sql rest ih => exact .bind (inject_total hcooperates sql) fun _ => ih

omit [Network σ] in
theorem nextReply_stands {bytes : Bytes} (frame : RawFrame) (rest : List RawFrame) :
    Eff.Triple (Stands bytes (· = frame :: rest)) (nextReply : Conn σ F RawFrame)
      (fun read s => read = frame ∧ Stands bytes (· = rest) s) Never := by
  rintro s ⟨hstream, hunread, hlog⟩
  obtain ⟨reply, replies, hinbox, hframe, hrest⟩ := List.map_eq_cons_iff.mp hunread
  rw [nextReply_cons hinbox]
  exact ⟨hframe, stands_log hstream hrest hlog rfl⟩

theorem waitForReady_stands {bytes : Bytes} (target : BackendTarget) {frames : List RawFrame}
    (h : Welcomes frames) : ∀ n, frames.length ≤ n → ∀ version : String,
      Eff.Triple (Stands bytes (· = frames)) (waitForReady target n version : Conn σ F String)
        (fun _ => Stands bytes (· = [])) Never := by
  -- A number of frames that is enough is not zero.
  have hsucc {frame : RawFrame} {rest : List RawFrame} {n : Nat}
      (hn : (frame :: rest).length ≤ n) : ∃ m, n = m + 1 ∧ rest.length ≤ m :=
    ⟨n - 1, by rw [List.length_cons] at hn; omega, by rw [List.length_cons] at hn; omega⟩
  induction h with
  | @ready frame status hdecode =>
      intro n hn version
      obtain ⟨n, rfl, -⟩ := hsucc hn
      refine .bind (nextReply_stands frame []) fun read => .and_pre ?_
      rintro rfl
      rw [hdecode]
      exact .pure fun _ hs => hs
  | @told frame name value rest hdecode hrest ih =>
      intro n hn version
      obtain ⟨n, rfl, hrest'⟩ := hsucc hn
      refine .bind (nextReply_stands frame rest) fun read => .and_pre ?_
      rintro rfl
      rw [hdecode]
      exact ih n hrest' _
  | @passed frame msg rest hdecode hmsg hrest ih =>
      intro n hn version
      obtain ⟨n, rfl, hrest'⟩ := hsucc hn
      refine .bind (nextReply_stands frame rest) fun read => .and_pre ?_
      rintro rfl
      have hagain := ih n hrest' version
      rw [hdecode]
      cases msg with
      | authenticationCleartextPassword => exact absurd hmsg id
      | authenticationMd5Password salt => exact absurd hmsg id
      | authenticationSasl mechanisms => exact absurd hmsg id
      | errorResponse fields => exact absurd hmsg id
      | readyForQuery status => exact absurd hmsg id
      | parameterStatus name value => exact absurd hmsg id
      | _ => exact hagain

theorem connectBackend_stands (hcooperates : Cooperates σ patience salt nonce)
    (cfg : ProxyConfig F) {bytes : Bytes} :
    Eff.Triple (Stands bytes (· = [])) (connectBackend cfg patience : Conn σ F String)
      (fun _ => Stands bytes (· = [])) Never := by
  have hconnect : Eff.Triple (Stands bytes (· = [])) (connect cfg.backend : Conn σ F Unit)
      (fun _ => Stands bytes (· = [])) Never := by
    rintro s ⟨hstream, hunread, hlog⟩
    obtain ⟨outside, houtside⟩ :=
      Option.isSome_iff_exists.mp (hcooperates.connect s.world.session.outside cfg.backend)
    unfold connect
    rw [houtside]
    exact stands_log hstream hunread hlog rfl
  have horiginate : Eff.Triple (Stands bytes (· = []))
      (originate cfg.backend.startup : Conn σ F Unit)
      (fun _ s => ∃ frames, (Welcomes frames ∧ frames.length ≤ patience) ∧
        Stands bytes (· = frames) s) Never := by
    rintro s ⟨hstream, hunread, hlog⟩
    obtain ⟨outside', answers, hanswers, hwelcomes, hlength⟩ :=
      hcooperates.startup s.world.session.outside cfg.backend.startup
    have hinbox : s.world.session.inbox = [] := List.map_eq_nil_iff.mp hunread
    have hmap : (answers.map fun f => (⟨f, s.world.session.sent⟩ : Reply)).map Reply.frame =
        answers := by simp [Function.comp_def]
    unfold originate
    rw [hanswers]
    refine ⟨answers, ⟨hwelcomes, hlength⟩, stands_log hstream ?_ hlog rfl⟩
    show World.unread _ = answers
    rw [World.unread, hinbox, List.nil_append, hmap]
  refine .bind hconnect fun _ => .bind horiginate fun _ => ?_
  refine .exists_pre fun frames => .and_pre fun hframes => ?_
  refine .bind (waitForReady_stands cfg.backend hframes.1 patience hframes.2 "") fun version => ?_
  exact .bind (inSession_stands (Q := fun _ => (· = []))
    (injectAll_total hcooperates (pins cfg))) fun _ => .pure fun _ hs => hs

/-! ## The agent's side -/

variable [Base64]

/-- The script can be written, asks for the protocol that is spoken, and adds nothing to the
final text. -/
structure Script.Valid (script : Script) (crypto : Crypto) (password : String) (salt : Bytes)
    (nonce : Text) : Prop where
  encodable : script.startup.Encodable
  version : script.startup.protocolVersion = protocolVersion3
  startupFits : Fits script.startup.encodeBody
  firstFits : Fits script.first.body
  finalFits : Fits (script.final crypto password salt nonce).body
  framesFit : ∀ f ∈ script.frames, Fits f.body
  plain : script.client.finalExtensions = []

omit [Network σ] [Base64] in
theorem saslText_bytesOf (what : String) (text : Text) :
    saslText what (bytesOf text) = .ok text := by
  rw [saslText, bytesOf, fromUtf8_utf8]
  simp

/-- The server behind the first text of a client. -/
def Script.challenged (script : Script) (v : ScramVerifier) (nonce : Text) : ScramServer :=
  ⟨v, nonce, some script.client.bare, some (challenge v (script.client.clientNonce ++ nonce)),
    some (script.client.clientNonce ++ nonce)⟩

theorem challengeAgent_stands (hcooperates : Cooperates σ patience salt nonce) (crypto : Crypto)
    (password : String) (script : Script) (hfits : Fits script.first.body) (rest : Bytes) :
    Eff.Triple (Stands (frameTagged script.first ++ rest) (· = []))
      (challengeAgent crypto password : Conn σ F ScramServer)
      (fun server s => server = script.challenged
        (.fromPassword crypto password.toList salt 4096) nonce ∧ Stands rest (· = []) s)
      Never := by
  have hname : NoNul sha256Mechanism := by decide +kernel
  have hread : (readSaslInitialResponse script.first.body).1 =
      .ok ⟨sha256Mechanism, some (bytesOf script.client.clientFirst)⟩ :=
    congrArg Prod.fst (@gives_saslInitialResponse
      ⟨sha256Mechanism, some (bytesOf script.client.clientFirst)⟩ hname hfits).ends
  refine .bind (send_stands hcooperates _) fun _ => ?_
  refine .bind (receive_stands hfits _ rest) fun frame => .and_pre ?_
  rintro rfl
  refine .bind (Q := fun _ => Stands rest (· = [])) (fun _ hs => hs) fun _ => ?_
  rw [hread]
  refine .bind (Q := fun initial s =>
    initial = ⟨sha256Mechanism, some (bytesOf script.client.clientFirst)⟩ ∧
      Stands rest (· = []) s) (fun _ hs => ⟨rfl, hs⟩) fun initial => .and_pre ?_
  rintro rfl
  refine .ite (fun h => absurd rfl h) fun _ => ?_
  dsimp only
  rw [saslText_bytesOf]
  refine .bind (Q := fun text s => text = script.client.clientFirst ∧ Stands rest (· = []) s)
    (fun _ hs => ⟨rfl, hs⟩) fun text => .and_pre ?_
  rintro rfl
  refine .bind (draw_stands hcooperates.salt) fun drawn => .and_pre ?_
  rintro rfl
  refine .bind (draw_stands hcooperates.nonce) fun drawn' => .and_pre ?_
  rintro rfl
  rw [handleClientFirst_ok script.client.gs2 script.client.field_bare]
  exact .bind (send_stands hcooperates _) fun _ => .pure fun _ hs => ⟨rfl, hs⟩

theorem verifyAgent_stands (hcooperates : Cooperates σ patience salt nonce)
    (hlawful : Base64.Lawful) (hnonce : ',' ∉ nonce) (crypto : Crypto) (password : String)
    (script : Script) (hplain : script.client.finalExtensions = [])
    (hfits : Fits (script.final crypto password salt nonce).body) (rest : Bytes) :
    Eff.Triple (Stands (frameTagged (script.final crypto password salt nonce) ++ rest) (· = []))
      (verifyAgent crypto (script.challenged
        (.fromPassword crypto password.toList salt 4096) nonce) : Conn σ F Unit)
      (fun _ => Stands rest (· = [])) Never := by
  have haccepted : ∃ answer, handleClientFinal crypto
      (script.challenged (.fromPassword crypto password.toList salt 4096) nonce)
      (script.client.clientFinal crypto password.toList salt 4096 nonce) = .ok answer := by
    have hpresents := script.client.presents hlawful hnonce crypto password.toList salt 4096
    have hfor := script.client.proofFor crypto password.toList salt 4096 nonce
    obtain ⟨text, bytes, htext, hbytes, hproof⟩ := hpresents.proof
    refine handleClientFinal_ok rfl hpresents.binding hpresents.repeated htext hbytes hproof ?_
    have hsigned : script.client.signed nonce =
        withoutProof (Scram.Base64.encode (bytesOf script.client.header))
          (script.client.clientNonce ++ nonce) := by
      simp [HonestClient.signed, hplain, appended]
    rw [← hsigned]
    exact hfor
  obtain ⟨answer, haccepted⟩ := haccepted
  refine .bind (receive_stands hfits _ rest) fun frame => .and_pre ?_
  rintro rfl
  refine .bind (Q := fun _ => Stands rest (· = [])) (fun _ hs => hs) fun _ => ?_
  have htext : saslText "non-utf8 client-final" (script.final crypto password salt nonce).body =
      .ok (script.client.clientFinal crypto password.toList salt 4096 nonce) :=
    saslText_bytesOf _ _
  rw [htext]
  refine .bind (Q := fun text s =>
    text = script.client.clientFinal crypto password.toList salt 4096 nonce ∧
      Stands rest (· = []) s) (fun _ hs => ⟨rfl, hs⟩) fun text => .and_pre ?_
  rintro rfl
  rw [haccepted]
  exact send_stands hcooperates _

/-! ## The connection -/

variable [Runtime F] [Parser]

/-- The turns of the loop. -/
def turnsOf (log : List (ConnEvent σ F)) : List (Turn σ F) := log.filterMap ConnEvent.turn?

/-- The connection got through all of its stages, and the loop was run over the frames: it
begins with nothing to be read, takes a turn for each frame in their order up to the one
that ends it, and its outcome is that of the connection.  Where no turn ends it, every frame
had its turn. -/
structure Admits (cfg : Config F) (run : Except ConnError Unit × Logged (Link σ) (ConnEvent σ F))
    (frames : List RawFrame) : Prop where
  loop : ∃ outside : σ,
    run.1 = (runQueryLoop cfg (.ok ()) frames (Loop.start cfg outside [])).1.mapError .session ∧
    turnsOf run.2.log = (runQueryLoop cfg (.ok ()) frames (Loop.start cfg outside [])).2.1
  order : (turnsOf run.2.log).map Turn.frame <+: frames
  last : ∀ before t after, turnsOf run.2.log = before ++ t :: after → t.after.ended = true →
    after = []
  whole : (∀ t ∈ turnsOf run.2.log, t.after.ended = false) →
    (turnsOf run.2.log).map Turn.frame = frames ∧ run.1 = .ok ()

omit [Network σ] [Base64] in
theorem run_frames [Outside σ] (cfg : Config F) (frames : List RawFrame) (s : Loop σ) :
    (queryLoop cfg frames s).1.map Turn.frame = frames := by
  unfold queryLoop
  induction frames generalizing s with
  | nil => rfl
  | cons frame rest ih =>
      rw [History.run, List.map_cons, turn_frame, ih]

/-- From where the program starts, its outcome and what it leaves satisfy `R`. -/
def Comes {ω ε α : Type} (P : ω → Prop) (m : Eff ω ε α) (R : Except ε α × ω → Prop) : Prop :=
  ∀ s, P s → R (m s)

omit [Network σ] [Base64] [Runtime F] [Parser] in
/-- A stage that can not fail, and what comes behind it. -/
theorem Comes.bind {ω ε α β : Type} {P : ω → Prop} {Q : α → ω → Prop}
    {R : Except ε β × ω → Prop} {m : Eff ω ε α} {k : α → Eff ω ε β}
    (hm : Eff.Triple P m Q Never) (hk : ∀ a, Comes (Q a) (k a) R) : Comes P (m >>= k) R := by
  intro s hs
  have hrun := hm s hs
  rw [Eff.bind_apply]
  rcases h : m s with ⟨r, s'⟩
  rw [h] at hrun
  cases r with
  | error e => exact absurd hrun id
  | ok a => exact hk a s' hrun

omit [Network σ] [Base64] [Runtime F] [Parser] in
/-- A fact in the precondition that is not about the world. -/
theorem Comes.and_pre {ω ε α : Type} {p : Prop} {P : ω → Prop} {R : Except ε α × ω → Prop}
    {m : Eff ω ε α} (h : p → Comes P m R) : Comes (fun s => p ∧ P s) m R :=
  fun s hs => h hs.1 s hs.2

omit [Network σ] [Base64] [Runtime F] [Parser] in
theorem Comes.ite {ω ε α : Type} {c : Prop} [Decidable c] {P : ω → Prop}
    {R : Except ε α × ω → Prop} {m n : Eff ω ε α} (hm : c → Comes P m R)
    (hn : ¬ c → Comes P n R) : Comes P (if c then m else n) R := by
  by_cases h : c
  · rw [if_pos h]
    exact hm h
  · rw [if_neg h]
    exact hn h

omit [Base64] in
theorem serveQueries_stands (cfg : Config F) {frames : List RawFrame}
    (hframes : ∀ f ∈ frames, Fits f.body) :
    Comes (Stands (frames.flatMap frameTagged) (· = [])) (serveQueries cfg : Conn σ F Unit)
      fun run => Admits cfg run frames := by
  rintro s ⟨hstream, hunread, hlog⟩
  have hread : framesOf s.world.stream = (frames, .ok ()) := by
    rw [hstream, framesOf_flatMap hframes]
  have hinbox : s.world.session.inbox = [] := List.map_eq_nil_iff.mp hunread
  have hrun : (serveQueries cfg : Conn σ F Unit) s =
      ((runQueryLoop cfg (.ok ()) frames (Loop.start cfg s.world.session.outside [])).1.mapError
          .session,
        ⟨{ s.world with session :=
            (runQueryLoop cfg (.ok ()) frames
              (Loop.start cfg s.world.session.outside [])).2.2.world },
          s.log ++ (runQueryLoop cfg (.ok ()) frames
            (Loop.start cfg s.world.session.outside [])).2.1.map .turn⟩) := by
    unfold serveQueries
    rw [hread, hinbox]
    rfl
  obtain ⟨served, rest, hserved, hloop⟩ := runQueryLoop_eq cfg (.ok ()) frames
    (Loop.start cfg s.world.session.outside [])
  obtain ⟨hlast, hwhole⟩ := runQueryLoop_ends cfg (.ok ()) frames
    (s := Loop.start cfg s.world.session.outside []) rfl
  rw [hrun]
  have hturns (turns : List (Turn σ F)) : turnsOf (s.log ++ turns.map .turn) = turns := by
    rw [turnsOf, List.filterMap_append, hlog, List.nil_append, List.filterMap_map]
    exact List.filterMap_some
  refine ⟨⟨s.world.session.outside, rfl, hturns _⟩, ?_, ?_, ?_⟩
  · rw [hturns, hloop, run_frames]
    exact ⟨rest, hserved.symm⟩
  · rw [hturns]
    exact hlast
  · rw [hturns]
    intro hrunning
    obtain ⟨hall, hresult⟩ := hwhole hrunning
    exact ⟨hall, by rw [hresult]; rfl⟩

theorem serveEncrypted_stands (hcooperates : Cooperates σ patience salt nonce)
    (hlawful : Base64.Lawful) (hnonce : ',' ∉ nonce) (crypto : Crypto) (cfg : ProxyConfig F)
    (script : Script) (hvalid : script.Valid crypto cfg.agentPassword salt nonce) :
    Comes (Stands (script.bytes crypto cfg.agentPassword salt nonce) (· = []))
      (serveEncrypted crypto cfg patience : Conn σ F Unit)
      fun run => Admits cfg.toConfig run script.frames := by
  have hstartup : Eff.Triple (Stands (script.bytes crypto cfg.agentPassword salt nonce) (· = []))
      (receiveStartup : Conn σ F Bytes) (fun body s => body = script.startup.encodeBody ∧
        Stands (frameTagged script.first ++
          (frameTagged (script.final crypto cfg.agentPassword salt nonce) ++
            script.frames.flatMap frameTagged)) (· = []) s) Never := by
    rintro s ⟨hstream, hunread, hlog⟩
    have hread := readStartupBody_frame hvalid.startupFits (frameTagged script.first ++
      (frameTagged (script.final crypto cfg.agentPassword salt nonce) ++
        script.frames.flatMap frameTagged))
    unfold receiveStartup
    rw [hstream, Script.bytes, hread]
    exact ⟨rfl, rfl, hunread, hlog⟩
  refine .bind hstartup fun body => .and_pre ?_
  rintro rfl
  rw [readStartup_encodeBody hvalid.encodable]
  refine .bind (Q := fun startup s => startup = script.startup ∧ Stands _ (· = []) s)
    (fun _ hs => ⟨rfl, hs⟩) fun startup => .and_pre ?_
  rintro rfl
  refine .ite (fun h => absurd hvalid.version h) fun _ => ?_
  have hproof : Eff.Triple (Stands (frameTagged script.first ++
      (frameTagged (script.final crypto cfg.agentPassword salt nonce) ++
        script.frames.flatMap frameTagged)) (· = []))
      (authenticateAgent crypto cfg.agentPassword : Conn σ F Unit)
      (fun _ => Stands (script.frames.flatMap frameTagged) (· = [])) Never := by
    refine .bind (challengeAgent_stands hcooperates crypto cfg.agentPassword script
      hvalid.firstFits _) fun server => .and_pre ?_
    rintro rfl
    exact verifyAgent_stands hcooperates hlawful hnonce crypto cfg.agentPassword script
      hvalid.plain hvalid.finalFits _
  refine .bind hproof fun _ => ?_
  refine .bind (connectBackend_stands hcooperates cfg) fun version => ?_
  refine .bind (sendAll_stands hcooperates (welcome version)) fun _ => ?_
  exact serveQueries_stands cfg.toConfig hvalid.framesFit

omit [Network σ] [Base64] [Runtime F] [Parser] in
/-- The first bytes of a startup message are no `SSLRequest`. -/
theorem isSslRequest_startup {m : StartupMessage} (hversion : m.protocolVersion ≠ sslRequestCode)
    (rest : Bytes) : isSslRequest ((frameUntagged m.encodeBody ++ rest).take 8) = false := by
  have hhead : ((frameUntagged m.encodeBody ++ rest).take 8).drop 4 = putI32 m.protocolVersion :=
    rfl
  have hint : getI32 (putI32 m.protocolVersion) = (.ok m.protocolVersion, []) := by
    have h := getI32_put m.protocolVersion []
    rwa [List.append_nil] at h
  have hread : (readSslRequest (putI32 m.protocolVersion)).1 =
      .error (.malformed "SSLRequest: bad magic code") := by
    rw [readSslRequest, Eff.bind_of_ok hint, if_pos hversion]
    rfl
  rw [isSslRequest, hhead, hread]
  rfl

omit [Network σ] [Base64] [Runtime F] [Parser] in
theorem length_startup (m : StartupMessage) (rest : Bytes) :
    8 ≤ (frameUntagged m.encodeBody ++ rest).length := by
  have hfour (v : Int32) : (putI32 v).length = 4 := rfl
  simp only [frameUntagged, StartupMessage.encodeBody, List.length_append, hfour]
  omega

omit [Base64] [Runtime F] [Parser] in
/-- A connection that begins with a startup message. -/
theorem startupAndTls_direct (requireTls acceptor : Bool) {m : StartupMessage} {rest : Bytes}
    (hversion : m.protocolVersion ≠ sslRequestCode) {s : Logged (Link σ) (ConnEvent σ F)}
    (hs : s.world.stream = frameUntagged m.encodeBody ++ rest) :
    (startupAndTls requireTls acceptor : Conn σ F Bool) s =
      (if requireTls then
        refuse "08P01" directMessage
          (.handshake "require_tls: rejected direct plaintext StartupMessage")
      else pure false : Conn σ F Bool) s := by
  have hlength : 8 ≤ s.world.stream.length := by
    rw [hs]
    exact length_startup m rest
  have hpeek : (peekExact : Conn σ F Bytes) s = (.ok (s.world.stream.take 8), s) := if_pos hlength
  rw [startupAndTls, Eff.bind_of_ok hpeek, hs, if_neg (by rw [isSslRequest_startup hversion]; simp)]

omit [Base64] [Runtime F] [Parser] in
/-- A connection that begins with an `SSLRequest`, where there is an acceptor. -/
theorem startupAndTls_request (requireTls : Bool) {raw : Bytes}
    {s : Logged (Link σ) (ConnEvent σ F)}
    (hs : s.world.stream = frameUntagged sslRequestBody ++ raw) :
    (startupAndTls requireTls true : Conn σ F Bool) s =
      (do
        negotiate 0x53
        upgrade
        pure true : Conn σ F Bool) ⟨{ s.world with stream := raw }, s.log⟩ := by
  have hlength : 8 ≤ s.world.stream.length := by
    rw [hs, List.length_append]
    have height : (frameUntagged sslRequestBody).length = 8 := rfl
    omega
  have hpeek : (peekExact : Conn σ F Bytes) s = (.ok (s.world.stream.take 8), s) := if_pos hlength
  have hhead : isSslRequest ((frameUntagged sslRequestBody ++ raw).take 8) = true := by
    have htake : (frameUntagged sslRequestBody ++ raw).take 8 = frameUntagged sslRequestBody := rfl
    rw [htake]
    decide
  have hdrop : (dropPeeked : Conn σ F Unit) s =
      (.ok (), ⟨{ s.world with stream := raw }, s.log⟩) := by
    have hrest : s.world.stream.drop 8 = raw := by
      rw [hs]
      rfl
    rw [dropPeeked, hrest]
  rw [startupAndTls, Eff.bind_of_ok hpeek, hs, if_pos hhead, Eff.bind_of_ok hdrop]
  rfl

omit [Base64] [Runtime F] [Parser] in
theorem startupAndTls_upgraded (requireTls : Bool) {raw stream : Bytes} {w : World σ}
    {outside₁ outside₂ : σ} (log : List (ConnEvent σ F))
    (hanswer : Network.negotiate w.outside 0x53 = some outside₁)
    (haccept : Network.accept outside₁ raw = some (stream, outside₂)) :
    (startupAndTls requireTls true : Conn σ F Bool)
        ⟨⟨frameUntagged sslRequestBody ++ raw, w⟩, log⟩ =
      (.ok true, ⟨⟨stream, { w with outside := outside₂ }⟩,
        log ++ [.negotiated 0x53] ++ [.upgraded]⟩) := by
  have hnegotiate : (negotiate 0x53 : Conn σ F Unit) ⟨⟨raw, w⟩, log⟩ =
      (.ok (), ⟨⟨raw, { w with outside := outside₁ }⟩, log ++ [.negotiated 0x53]⟩) := by
    simp only [negotiate, hanswer]
    rfl
  have hupgrade : (upgrade : Conn σ F Unit)
      ⟨⟨raw, { w with outside := outside₁ }⟩, log ++ [.negotiated 0x53]⟩ =
      (.ok (), ⟨⟨stream, { w with outside := outside₂ }⟩,
        log ++ [.negotiated 0x53] ++ [.upgraded]⟩) := by
    simp only [upgrade, haccept]
    rfl
  rw [startupAndTls_request requireTls rfl, Eff.bind_of_ok hnegotiate, Eff.bind_of_ok hupgrade]
  rfl

/-- An honest agent in front of a cooperating backend gets in, over TLS and, where it is not
required, without. -/
theorem serve_admits (hcooperates : Cooperates σ patience salt nonce) (hlawful : Base64.Lawful)
    (hnonce : ',' ∉ nonce) (crypto : Crypto) (cfg : ProxyConfig F) (script : Script)
    (hvalid : script.Valid crypto cfg.agentPassword salt nonce) (outside : σ) :
    (∀ raw, (∀ outside : σ, ∃ outside', Network.accept outside raw =
        some (script.bytes crypto cfg.agentPassword salt nonce, outside')) →
      Admits cfg.toConfig (serveConnection crypto cfg true patience
        (Link.start cfg.toConfig (frameUntagged sslRequestBody ++ raw) outside)) script.frames) ∧
    (cfg.requireTls = false → ∀ acceptor,
      Admits cfg.toConfig (serveConnection crypto cfg acceptor patience
        (Link.start cfg.toConfig (script.bytes crypto cfg.agentPassword salt nonce) outside))
        script.frames) := by
  have hserve := serveEncrypted_stands hcooperates hlawful hnonce crypto cfg script hvalid
  refine ⟨fun raw haccept => ?_, fun hplain acceptor => ?_⟩
  · have hnegotiate : Eff.Triple (Stands (frameUntagged sslRequestBody ++ raw) (· = []))
        (startupAndTls cfg.requireTls true : Conn σ F Bool)
        (fun encrypted s => encrypted = true ∧
          Stands (script.bytes crypto cfg.agentPassword salt nonce) (· = []) s) Never := by
      rintro s ⟨hstream, hunread, hlog⟩
      obtain ⟨outside₁, houtside₁⟩ :=
        Option.isSome_iff_exists.mp (hcooperates.negotiate s.world.session.outside 0x53)
      obtain ⟨outside₂, houtside₂⟩ := haccept outside₁
      have hrun := startupAndTls_upgraded cfg.requireTls s.log houtside₁ houtside₂
      rw [← hstream] at hrun
      rw [hrun]
      refine ⟨rfl, stands_log rfl hunread ?_ rfl⟩
      rw [List.filterMap_append, hlog, List.nil_append]
      rfl
    have hrun : Comes (Stands (frameUntagged sslRequestBody ++ raw) (· = []))
        (serveConnection crypto cfg true patience : Conn σ F Unit)
        fun run => Admits cfg.toConfig run script.frames := by
      refine .bind hnegotiate fun encrypted => .and_pre ?_
      rintro rfl
      exact .ite (fun h => absurd rfl h.2) fun _ => hserve
    exact hrun _ ⟨rfl, rfl, rfl⟩
  · have hdirect : Eff.Triple
        (Stands (script.bytes crypto cfg.agentPassword salt nonce) (· = []))
        (startupAndTls cfg.requireTls acceptor : Conn σ F Bool)
        (fun _ => Stands (script.bytes crypto cfg.agentPassword salt nonce) (· = [])) Never := by
      intro s hs
      have hversion : script.startup.protocolVersion ≠ sslRequestCode := by
        rw [hvalid.version]
        decide
      rw [startupAndTls_direct cfg.requireTls acceptor hversion hs.1, hplain]
      exact hs
    have hrun : Comes (Stands (script.bytes crypto cfg.agentPassword salt nonce) (· = []))
        (serveConnection crypto cfg acceptor patience : Conn σ F Unit)
        fun run => Admits cfg.toConfig run script.frames := by
      refine .bind hdirect fun encrypted => .ite (fun h => ?_) fun _ => hserve
      rw [hplain] at h
      cases h.1
    exact hrun _ ⟨rfl, rfl, rfl⟩

omit [Network σ] [Base64] [Runtime F] [Parser] in
/-- The small backend lets the proxy in. -/
theorem cooperates_small : @Cooperates Unit Network.small 3 [] "AQID".toList := by
  let _ := Network.small
  have hdecode : decodeBackend (readyForQuery .idle) = .ok (.readyForQuery .idle) := rfl
  have hok : decodeBackend BackendMessage.authenticationOk.encode = .ok .authenticationOk := rfl
  refine ⟨fun _ _ => rfl, fun _ _ => rfl, fun _ => rfl, fun _ => rfl, fun _ _ => rfl, ?_, ?_⟩
  · intro outside startup
    refine ⟨(), smallWelcome, rfl, ?_, Nat.le_refl 3⟩
    have htold : decodeBackend (BackendMessage.parameterStatus "server_version" "16.2").encode =
        .ok (.parameterStatus "server_version" "16.2") :=
      congrArg Prod.fst (@readBackend_encodeBody (.parameterStatus "server_version" "16.2")
        (show NoNul "server_version" ∧ NoNul "16.2" by decide +kernel) (by decide +kernel))
    exact .passed hok trivial (.told htold (.ready hdecode))
  · intro outside sql msg hmsg
    have hanswer (frame : RawFrame) : Outside.toBackend outside frame =
        some ((), if frame.tag = tagSync then [readyForQuery .idle] else []) := rfl
    rw [hanswer]
    by_cases hsync : msg = .sync
    · subst hsync
      exact ⟨(), _, rfl, fun _ => .ready hdecode, fun h => absurd rfl h⟩
    · have htag : msg.encode.tag ≠ tagSync := by
        simp [extendedUnit] at hmsg
        rcases hmsg with rfl | rfl | rfl | rfl
        · exact show tagParse ≠ tagSync by decide
        · exact show tagBind ≠ tagSync by decide
        · exact show tagExecute ≠ tagSync by decide
        · exact absurd rfl hsync
      rw [if_neg htag]
      exact ⟨(), [], rfl, fun h => absurd h hsync, fun _ => List.forall_mem_nil _⟩

omit [Network σ] [Base64] [Runtime F] [Parser] in
theorem valid_small :
    letI := Base64.standard
    Script.small.Valid lengths ProxyConfig.small.agentPassword [] "AQID".toList := by
  let _ := Base64.standard
  refine ⟨?_, rfl, ?_, ?_, ?_, ?_, rfl⟩
  · unfold StartupMessage.Encodable
    decide +kernel
  · decide +kernel
  · decide +kernel
  · decide +kernel
  · decide +kernel

omit [Network σ] [Base64] [Runtime F] [Parser] in
/-- The toy cipher is its own inverse. -/
theorem cipher_small (bytes : Bytes) : (bytes.map (· ^^^ 0x5A)).map (· ^^^ 0x5A) = bytes := by
  have htwice (byte : UInt8) : byte ^^^ 0x5A ^^^ 0x5A = byte := by
    rw [UInt8.xor_assoc, UInt8.xor_self, UInt8.xor_zero]
  simp [Function.comp_def, htwice]

omit [Network σ] [Base64] [Runtime F] [Parser] in
theorem serve_admits_small :
    letI := Network.small
    letI := Runtime.hundredths
    letI := Parser.small
    letI := Base64.standard
    Admits ProxyConfig.small.toConfig (serveConnection lengths ProxyConfig.small true 3
      (Link.start ProxyConfig.small.toConfig smallStream ())) Script.small.frames := by
  have hadmits := @serve_admits Unit Nat Network.small 3 [] "AQID".toList Base64.standard
    Runtime.hundredths Parser.small cooperates_small lawful_standard (by decide) lengths
    ProxyConfig.small Script.small valid_small ()
  exact hadmits.1 _ fun outside => ⟨(), congrArg (fun bytes => some (bytes, ())) (cipher_small _)⟩

/-! ## What the startup message decides -/

/-- Behind the negotiation a startup message counts for its version only: whatever user,
database or settings it names, the connection does the same. -/
theorem serveEncrypted_ignores (crypto : Crypto) (cfg : ProxyConfig F) (patience : Nat)
    {m m' : StartupMessage} (hm : m.Encodable) (hm' : m'.Encodable) (hfits : Fits m.encodeBody)
    (hfits' : Fits m'.encodeBody) (hversion : m.protocolVersion = m'.protocolVersion)
    (rest : Bytes) (w : World σ) (log : List (ConnEvent σ F)) :
    (serveEncrypted crypto cfg patience : Conn σ F Unit)
        ⟨⟨frameUntagged m.encodeBody ++ rest, w⟩, log⟩ =
      serveEncrypted crypto cfg patience ⟨⟨frameUntagged m'.encodeBody ++ rest, w⟩, log⟩ := by
  have hreceive {m : StartupMessage} (hm : m.Encodable) (hfits : Fits m.encodeBody) :
      (serveEncrypted crypto cfg patience : Conn σ F Unit)
          ⟨⟨frameUntagged m.encodeBody ++ rest, w⟩, log⟩ =
        (if m.protocolVersion ≠ protocolVersion3 then
          refuse "0A000" "unsupported protocol version" (.handshake "unsupported protocol version")
        else do
          authenticateAgent crypto cfg.agentPassword
          let version ← connectBackend cfg patience
          finishAgentStartup version
          serveQueries cfg.toConfig : Conn σ F Unit) ⟨⟨rest, w⟩, log⟩ := by
    have hbody : (receiveStartup : Conn σ F Bytes) ⟨⟨frameUntagged m.encodeBody ++ rest, w⟩, log⟩ =
        (.ok m.encodeBody, ⟨⟨rest, w⟩, log⟩) := by
      have hread := readStartupBody_frame hfits rest
      simp only [receiveStartup, hread]
    rw [serveEncrypted, Eff.bind_of_ok hbody, readStartup_encodeBody hm]
    rfl
  rw [hreceive hm hfits, hreceive hm' hfits', hversion]

/-- The two streams differ in nothing but what their startup messages name. -/
def SameButStartup (stream stream' : Bytes) : Prop :=
  ∃ (m m' : StartupMessage) (rest : Bytes), m.Encodable ∧ m'.Encodable ∧ Fits m.encodeBody ∧
    Fits m'.encodeBody ∧ m.protocolVersion = m'.protocolVersion ∧
    m.protocolVersion ≠ sslRequestCode ∧ stream = frameUntagged m.encodeBody ++ rest ∧
    stream' = frameUntagged m'.encodeBody ++ rest

omit [Base64] [Runtime F] [Parser] in
theorem send_of_some {msg : BackendMessage} {s : Logged (Link σ) (ConnEvent σ F)} {outside : σ}
    (h : Outside.toAgent s.world.session.outside msg.encode = some outside) :
    (send msg : Conn σ F Unit) s =
      (.ok (), ⟨s.world.setOutside outside, s.log ++ [wrote msg]⟩) := by
  simp only [send, inSession, Eff.mapError_apply, within, deliver, h]
  rfl

omit [Base64] [Runtime F] [Parser] in
theorem send_of_none {msg : BackendMessage} {s : Logged (Link σ) (ConnEvent σ F)}
    (h : Outside.toAgent s.world.session.outside msg.encode = none) :
    (send msg : Conn σ F Unit) s = (.error ioError, s) := by
  simp only [send, inSession, Eff.mapError_apply, within, deliver, h, List.map_nil, List.append_nil]
  rfl

omit [Base64] [Runtime F] [Parser] in
/-- A refusal has nothing to do with what the agent has still to be read. -/
theorem refuse_stream {α β : Type} {code message : String} {e : ConnError} {k : α → Conn σ F β}
    (stream stream' : Bytes) (w : World σ) (log : List (ConnEvent σ F)) :
    ((refuse code message e >>= k : Conn σ F β) ⟨⟨stream, w⟩, log⟩).2.log =
      ((refuse code message e >>= k : Conn σ F β) ⟨⟨stream', w⟩, log⟩).2.log := by
  have hfail (s : Logged (Link σ) (ConnEvent σ F)) :
      ((refuse code message e >>= k : Conn σ F β) s).2 =
        (send (fatalResponse code message) s).2 := by
    unfold refuse sendFatal
    rw [Eff.bind_apply, Eff.bind_apply]
    rcases send (fatalResponse code message) s with ⟨r, s'⟩
    cases r with
    | error e => rfl
    | ok a => rfl
  rw [hfail, hfail]
  cases h : Outside.toAgent w.outside (fatalResponse code message).encode with
  | none => rw [send_of_none h, send_of_none h]
  | some outside => rw [send_of_some h, send_of_some h]

/-- In the clear the names are not looked at. -/
theorem direct_ignores (crypto : Crypto) (cfg : ProxyConfig F) (acceptor : Bool)
    (patience : Nat) (outside : σ) {stream stream' : Bytes} (h : SameButStartup stream stream') :
    (serveConnection crypto cfg acceptor patience
        (Link.start cfg.toConfig stream outside)).2.log =
      (serveConnection crypto cfg acceptor patience
        (Link.start cfg.toConfig stream' outside)).2.log := by
  obtain ⟨m, m', rest, hm, hm', hfits, hfits', hversion, hcode, rfl, rfl⟩ := h
  have hcode' : m'.protocolVersion ≠ sslRequestCode := hversion ▸ hcode
  by_cases hrequire : cfg.requireTls = true
  · have hdirect {m : StartupMessage} (hcode : m.protocolVersion ≠ sslRequestCode) :
        (serveConnection crypto cfg acceptor patience : Conn σ F Unit)
            (Link.start cfg.toConfig (frameUntagged m.encodeBody ++ rest) outside) =
          (refuse "08P01" directMessage
              (.handshake "require_tls: rejected direct plaintext StartupMessage") >>=
            fun encrypted : Bool => if cfg.requireTls ∧ ¬ encrypted then
              refuse "08P01" unencryptedMessage
                (.handshake "require_tls: refused unencrypted session")
            else serveEncrypted crypto cfg patience)
            (Link.start cfg.toConfig (frameUntagged m.encodeBody ++ rest) outside) := by
      rw [serveConnection, Eff.bind_apply, startupAndTls_direct cfg.requireTls acceptor hcode rfl,
        if_pos hrequire, ← Eff.bind_apply]
    rw [hdirect hcode, hdirect hcode']
    exact refuse_stream _ _ _ _
  · have hdirect {m : StartupMessage} (hcode : m.protocolVersion ≠ sslRequestCode) :
        (serveConnection crypto cfg acceptor patience : Conn σ F Unit)
            (Link.start cfg.toConfig (frameUntagged m.encodeBody ++ rest) outside) =
          serveEncrypted crypto cfg patience
            (Link.start cfg.toConfig (frameUntagged m.encodeBody ++ rest) outside) := by
      rw [serveConnection, Eff.bind_apply, startupAndTls_direct cfg.requireTls acceptor hcode rfl,
        if_neg hrequire, Eff.pure_apply]
      exact congrFun (if_neg fun h => hrequire h.1) _
    rw [hdirect hcode, hdirect hcode', Link.start, Link.start,
      serveEncrypted_ignores crypto cfg patience hm hm' hfits hfits' hversion]

/-- Within TLS the names are not looked at. -/
theorem upgraded_ignores (crypto : Crypto) (cfg : ProxyConfig F) (patience : Nat) (outside : σ)
    {raw raw' : Bytes}
    (haccept : ∀ outside : σ, ∃ stream stream' outside',
      Network.accept outside raw = some (stream, outside') ∧
      Network.accept outside raw' = some (stream', outside') ∧ SameButStartup stream stream') :
    (serveConnection crypto cfg true patience
        (Link.start cfg.toConfig (frameUntagged sslRequestBody ++ raw) outside)).2.log =
      (serveConnection crypto cfg true patience
        (Link.start cfg.toConfig (frameUntagged sslRequestBody ++ raw') outside)).2.log := by
  cases hanswer : Network.negotiate outside 0x53 with
  | none =>
      have hnone (raw : Bytes) : (serveConnection crypto cfg true patience
          (Link.start cfg.toConfig (frameUntagged sslRequestBody ++ raw) outside)).2.log =
          [] := by
        have hnegotiate : (negotiate 0x53 : Conn σ F Unit)
            ⟨⟨raw, (Loop.start cfg.toConfig outside []).world⟩, []⟩ =
            (.error ioError, ⟨⟨raw, (Loop.start cfg.toConfig outside []).world⟩, []⟩) := by
          have hworld : (Loop.start cfg.toConfig outside []).world.outside = outside := rfl
          simp only [negotiate, hworld, hanswer]
        have hrun : (startupAndTls cfg.requireTls true : Conn σ F Bool)
            (Link.start cfg.toConfig (frameUntagged sslRequestBody ++ raw) outside) =
            (.error ioError, ⟨⟨raw, (Loop.start cfg.toConfig outside []).world⟩, []⟩) := by
          rw [startupAndTls_request cfg.requireTls rfl]
          exact Eff.bind_of_error hnegotiate
        rw [serveConnection, Eff.bind_of_error hrun]
      rw [hnone, hnone]
  | some outside₁ =>
      obtain ⟨stream, stream', outside₂, haccept, haccept', m, m', rest, hm, hm', hfits, hfits',
        hversion, -, rfl, rfl⟩ := haccept outside₁
      have hrun {raw stream : Bytes}
          (haccept : Network.accept outside₁ raw = some (stream, outside₂)) :
          (serveConnection crypto cfg true patience : Conn σ F Unit)
              (Link.start cfg.toConfig (frameUntagged sslRequestBody ++ raw) outside) =
            serveEncrypted crypto cfg patience
              ⟨⟨stream, { (Loop.start cfg.toConfig outside []).world with outside := outside₂ }⟩,
                [] ++ [.negotiated 0x53] ++ [.upgraded]⟩ := by
        rw [serveConnection, Link.start,
          Eff.bind_of_ok (startupAndTls_upgraded cfg.requireTls [] hanswer haccept),
          if_neg (by simp)]
      rw [hrun haccept, hrun haccept',
        serveEncrypted_ignores crypto cfg patience hm hm' hfits hfits' hversion]

/-- Two agents whose streams differ in the names of their startup messages only are served
alike, in the clear and within TLS. -/
theorem serve_ignores_startup (crypto : Crypto) (cfg : ProxyConfig F) (patience : Nat)
    (outside : σ) :
    (∀ acceptor stream stream', SameButStartup stream stream' →
      (serveConnection crypto cfg acceptor patience
          (Link.start cfg.toConfig stream outside)).2.log =
        (serveConnection crypto cfg acceptor patience
          (Link.start cfg.toConfig stream' outside)).2.log) ∧
    (∀ raw raw', (∀ outside : σ, ∃ stream stream' outside',
        Network.accept outside raw = some (stream, outside') ∧
        Network.accept outside raw' = some (stream', outside') ∧ SameButStartup stream stream') →
      (serveConnection crypto cfg true patience
          (Link.start cfg.toConfig (frameUntagged sslRequestBody ++ raw) outside)).2.log =
        (serveConnection crypto cfg true patience
          (Link.start cfg.toConfig (frameUntagged sslRequestBody ++ raw') outside)).2.log) := by
  constructor
  · intro acceptor stream stream' h
    exact direct_ignores crypto cfg acceptor patience outside h
  · intro raw raw' haccept
    exact upgraded_ignores crypto cfg patience outside haccept

/-- What an agent of the small deployment sends behind the negotiation. -/
def smallBytes (script : Script) : Bytes :=
  letI := Base64.standard
  script.bytes lengths "agent_pw" [] "AQID".toList

/-- The same within TLS. -/
def smallWire (script : Script) : Bytes := (smallBytes script).map (· ^^^ 0x5A)

/-- The agent of the small deployment under another name. -/
def Script.renamed : Script :=
  { Script.small with startup := ⟨protocolVersion3, [("user", "postgres")]⟩ }

/-- The small deployment without TLS. -/
def ProxyConfig.inClear : ProxyConfig Nat := { ProxyConfig.small with requireTls := false }

omit [Network σ] [Base64] [Runtime F] [Parser] in
theorem sameButStartup_small :
    SameButStartup (smallBytes Script.small) (smallBytes Script.renamed) := by
  refine ⟨Script.small.startup, Script.renamed.startup, _, ?_, ?_, ?_, ?_, rfl, by decide, rfl,
    rfl⟩
  · unfold StartupMessage.Encodable
    decide +kernel
  · unfold StartupMessage.Encodable
    decide +kernel
  · decide +kernel
  · decide +kernel

omit [Network σ] [Base64] [Runtime F] [Parser] in
/-- The agent under its own name and under another one, in the clear where that is allowed,
and within TLS. -/
theorem serve_ignores_startup_small :
    letI := Network.small
    letI := Runtime.hundredths
    letI := Parser.small
    letI := Base64.standard
    (serveConnection lengths ProxyConfig.inClear false 3
        (Link.start ProxyConfig.inClear.toConfig (smallBytes Script.small) ())).2.log =
      (serveConnection lengths ProxyConfig.inClear false 3
        (Link.start ProxyConfig.inClear.toConfig (smallBytes Script.renamed) ())).2.log ∧
    (serveConnection lengths ProxyConfig.small true 3 (Link.start ProxyConfig.small.toConfig
        (frameUntagged sslRequestBody ++ smallWire Script.small) ())).2.log =
      (serveConnection lengths ProxyConfig.small true 3 (Link.start ProxyConfig.small.toConfig
        (frameUntagged sslRequestBody ++ smallWire Script.renamed) ())).2.log := by
  have hclear := (@serve_ignores_startup Unit Nat Network.small Base64.standard Runtime.hundredths
    Parser.small lengths ProxyConfig.inClear 3 ()).1 false _ _ sameButStartup_small
  have htls := (@serve_ignores_startup Unit Nat Network.small Base64.standard Runtime.hundredths
    Parser.small lengths ProxyConfig.small 3 ()).2 (smallWire Script.small)
      (smallWire Script.renamed) fun _ => ⟨smallBytes Script.small, smallBytes Script.renamed, (),
        congrArg (fun bytes => some (bytes, ())) (cipher_small _),
        congrArg (fun bytes => some (bytes, ())) (cipher_small _), sameButStartup_small⟩
  exact ⟨hclear, htls⟩

end

end PgBrakes.Ports.Proxy
