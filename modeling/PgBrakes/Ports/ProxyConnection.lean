import PgBrakes.Ports.ProxySession
import PgBrakes.Ports.Scram
import PgBrakes.Ports.WireRoundTrip
import PgBrakes.Verified.Nested

/-!
# A connection from its first byte

A port of `serve_connection` in `crates/proxy/src/session.rs`, up to the loop over the
frames of the agent.  The proxy looks at the first eight bytes, answers an `SSLRequest`
and takes the stream over into TLS, reads the startup message, has the agent prove that
it knows the password, and only then opens a session of its own on the backend.  It pins
two settings there, tells the agent that it is in, and enters the loop.

What the proxy reads from the agent is a list of bytes, the whole of what the agent sends
until it closes.  The bytes before TLS and the bytes within it are two streams: what the
TLS engine makes of the first is up to `Network`.  The backend answers the startup message,
as it answers every frame, with any frames.

Two loops of the source may go on for ever: the peek for the first eight bytes, where the
agent closes in between, and the wait for the backend, where it keeps asking for the
password.  A connection that is still in such a loop is `unfinished`.
-/

namespace PgBrakes.Ports.Proxy

open PgBrakes.Ports.ExplainGate
open PgBrakes.Ports.ReadAst (Parser)
open PgBrakes.Ports.Scram
open PgBrakes.Ports.Wire
open PgBrakes.Verified
open PgBrakes.Verified.Effect

/-! ## What a connection is given -/

structure BackendTarget where
  host : String
  port : Nat
  database : String
  role : String
  password : String

structure ProxyConfig (F : Type) extends Config F where
  requireTls : Bool
  backend : BackendTarget
  agentPassword : String
  statementTimeoutMs : Nat
  searchPath : String

/-- The socket of the agent before the session, the way to the backend, and the source of
salts and nonces. -/
class Network (σ : Type) extends Outside σ where
  negotiate : σ → UInt8 → Option σ
  accept : σ → Bytes → Option (Bytes × σ)
  connect : σ → BackendTarget → Option σ
  originate : σ → StartupMessage → Option (σ × List RawFrame)
  salt : σ → Bytes × σ
  nonce : σ → Text × σ

/-- What the agent has still to be read, and the world of its session. -/
structure Link (σ : Type) where
  stream : Bytes
  session : World σ

/-- What a connection does.  Everything before `upgraded` happens in the clear. -/
inductive ConnEvent (σ F : Type) where
  | negotiated (answer : UInt8)
  | upgraded
  | received (frame : RawFrame)
  | connected
  | originated (startup : StartupMessage)
  | session (e : Event F)
  | turn (t : Turn σ F)

inductive ConnError where
  | session (e : SessionError)
  | auth (e : ScramError)
  | handshake (what : String)
  | unfinished

/-- A program of the connection. -/
abbrev Conn (σ F α : Type) := Eff (Logged (Link σ) (ConnEvent σ F)) ConnError α

/-! ## Single calls -/

/-- A failure of the socket. -/
def ioError : ConnError := .session (.protocol .io)

/-- Outcomes of the codec. -/
def ofCodec {α : Type} (r : Except ProtocolError α) : Except ConnError α :=
  r.mapError fun e => .session (.protocol e)

section
variable {σ F : Type}

/-- A program of the session. -/
def inSession {α : Type} (m : Session σ F α) : Conn σ F α :=
  Eff.mapError .session
    (within Link.session (fun w v => { w with session := v }) ConnEvent.session m)

/-- The first eight bytes, which stay where they are. -/
def peekExact : Conn σ F Bytes := fun s =>
  if 8 ≤ s.world.stream.length then (.ok (s.world.stream.take 8), s)
  else if s.world.stream = [] then (.error (.handshake "connection closed during startup"), s)
  else (.error .unfinished, s)

/-- The eight bytes that were looked at. -/
def dropPeeked : Conn σ F Unit := fun s =>
  (.ok (), ⟨{ s.world with stream := s.world.stream.drop 8 }, s.log⟩)

/-- The body of the startup message. -/
def receiveStartup : Conn σ F Bytes := fun s =>
  match readStartupBody s.world.stream with
  | (.error e, _) => (.error (.session (.protocol e)), s)
  | (.ok body, rest) => (.ok body, ⟨{ s.world with stream := rest }, s.log⟩)

/-- The next frame of the agent; the stream must not end before it. -/
def receive (eof : String) : Conn σ F RawFrame := fun s =>
  match readTaggedFrame s.world.stream with
  | (.error e, _) => (.error (.session (.protocol e)), s)
  | (.ok none, _) => (.error (.handshake eof), s)
  | (.ok (some frame), rest) =>
      (.ok frame, ⟨{ s.world with stream := rest }, s.log ++ [.received frame]⟩)

variable [Network σ]

/-- A part of the world that is outside. -/
def Link.setOutside (w : Link σ) (outside : σ) : Link σ :=
  { w with session := { w.session with outside := outside } }

def negotiate (answer : UInt8) : Conn σ F Unit := fun s =>
  match Network.negotiate s.world.session.outside answer with
  | none => (.error ioError, s)
  | some outside => (.ok (), ⟨s.world.setOutside outside, s.log ++ [.negotiated answer]⟩)

/-- The TLS handshake.  From then on the stream is what was sent within it. -/
def upgrade : Conn σ F Unit := fun s =>
  match Network.accept s.world.session.outside s.world.stream with
  | none => (.error ioError, s)
  | some (stream, outside) =>
      (.ok (), ⟨{ s.world.setOutside outside with stream := stream }, s.log ++ [.upgraded]⟩)

def connect (target : BackendTarget) : Conn σ F Unit := fun s =>
  match Network.connect s.world.session.outside target with
  | none => (.error ioError, s)
  | some outside => (.ok (), ⟨s.world.setOutside outside, s.log ++ [.connected]⟩)

/-- Send the startup message; its answers are the first to be read. -/
def originate (startup : StartupMessage) : Conn σ F Unit := fun s =>
  match Network.originate s.world.session.outside startup with
  | none => (.error ioError, s)
  | some (outside, frames) =>
      (.ok (),
        ⟨{ s.world with session :=
            { s.world.session with
              outside := outside
              inbox := s.world.session.inbox ++ frames.map (⟨·, s.world.session.sent⟩) } },
          s.log ++ [.originated startup]⟩)

/-- Something at random. -/
def draw {α : Type} (source : σ → α × σ) : Conn σ F α := fun s =>
  (.ok (source s.world.session.outside).1,
    ⟨s.world.setOutside (source s.world.session.outside).2, s.log⟩)

def send (msg : BackendMessage) : Conn σ F Unit := inSession (deliver msg.encode)

/-- An error that ends the connection. -/
def fatalResponse (code message : String) : BackendMessage :=
  .errorResponse [(0x53, "FATAL"), (0x56, "FATAL"), (0x43, code), (0x4D, message)]

def sendFatal (code message : String) : Conn σ F Unit := send (fatalResponse code message)

/-- Write an error and end the connection. -/
def refuse {α : Type} (code message : String) (e : ConnError) : Conn σ F α := do
  sendFatal code message
  Eff.fail e

/-! ## TLS -/

def isSslRequest (head : Bytes) : Bool :=
  (readSslRequest (head.drop 4)).1.isOk && (getI32 head).1.toOption == some 8

def directMessage : String :=
  "TLS is required on the agent endpoint; connect with sslmode=require (a direct cleartext " ++
    "StartupMessage is refused)"

def unencryptedMessage : String :=
  "TLS is required on the agent endpoint; this connection is not encrypted — refusing (no " ++
    "cleartext downgrade)"

/-- Whether the stream is encrypted from here on. -/
def startupAndTls (requireTls acceptor : Bool) : Conn σ F Bool := do
  let head ← peekExact
  if isSslRequest head then do
    dropPeeked
    if acceptor then do
      negotiate 0x53
      upgrade
      pure true
    else do
      negotiate 0x4E
      if requireTls then
        Eff.fail (.handshake "require_tls: no TLS acceptor configured; refusing plaintext")
      else pure false
  else if requireTls then
    refuse "08P01" directMessage
      (.handshake "require_tls: rejected direct plaintext StartupMessage")
  else pure false

/-! ## The agent's proof -/

def sha256Mechanism : String := "SCRAM-SHA-256"

/-- The text of a SASL body. -/
def saslText (what : String) (data : Bytes) : Except ConnError Text :=
  match fromUtf8 data with
  | some text => .ok text.toList
  | none => .error (.handshake what)

def requireTag (frame : RawFrame) (what : String) : Conn σ F Unit :=
  if frame.tag = tagPassword then pure () else Eff.fail (.handshake what)

variable [Base64]

/-- The first message of the agent, and the server that has answered it. -/
def challengeAgent (crypto : Crypto) (password : String) : Conn σ F ScramServer := do
  send (.authenticationSasl [sha256Mechanism])
  let frame ← receive "eof before SASLInitialResponse"
  requireTag frame "expected SASLInitialResponse 'p'"
  let initial ← Eff.lift (ofCodec (readSaslInitialResponse frame.body).1)
  if initial.mechanism ≠ sha256Mechanism then
    refuse "28000" "unsupported SASL mechanism" (.auth .unsupportedMechanism)
  else
    match initial.initialResponse with
    | none => Eff.fail (.handshake "empty SASL initial response")
    | some data => do
        let clientFirst ← Eff.lift (saslText "non-utf8 client-first" data)
        let salt ← draw Network.salt
        let nonce ← draw Network.nonce
        let verifier := ScramVerifier.fromPassword crypto password.toList salt 4096
        match handleClientFirst (.withServerNonce verifier nonce) clientFirst with
        | (.error e, _) => Eff.fail (.auth e)
        | (.ok serverFirst, server) => do
            send (.authenticationSaslContinue (bytesOf serverFirst))
            pure server

/-- The second message of the agent, which carries its proof. -/
def verifyAgent (crypto : Crypto) (server : ScramServer) : Conn σ F Unit := do
  let frame ← receive "eof before SASLResponse"
  requireTag frame "expected SASLResponse 'p'"
  let clientFinal ← Eff.lift (saslText "non-utf8 client-final" frame.body)
  match handleClientFinal crypto server clientFinal with
  | .error e => refuse "28P01" "password authentication failed" (.auth e)
  | .ok serverFinal => send (.authenticationSaslFinal (bytesOf serverFinal))

def authenticateAgent (crypto : Crypto) (password : String) : Conn σ F Unit := do
  let server ← challengeAgent crypto password
  verifyAgent crypto server

end

/-! ## The backend's session -/

section
variable {σ F : Type} [Network σ]

def BackendTarget.startup (target : BackendTarget) : StartupMessage :=
  ⟨protocolVersion3, [("user", target.role), ("database", target.database),
    ("application_name", "pgb_proxy")]⟩

def decodeBackend (frame : RawFrame) : Except ProtocolError BackendMessage :=
  (readBackend frame.tag frame.body).1

/-- The next frame of the backend, while its session is not open yet. -/
def nextReply : Conn σ F RawFrame := do
  let inbox ← inSession readInbox
  match inbox with
  | [] => Eff.fail (.session (.backend "backend closed during startup"))
  | reply :: rest => do
      inSession (takeReply rest (.drained reply))
      pure reply.frame

/-- Wait for the first `ReadyForQuery`, for a number of frames, with the version the
backend has told so far. -/
def waitForReady (target : BackendTarget) : Nat → String → Conn σ F String
  | 0, _ => Eff.fail .unfinished
  | n + 1, version => do
      let frame ← nextReply
      let msg ← Eff.lift (ofCodec (decodeBackend frame))
      match msg with
      | .authenticationCleartextPassword => do
          inSession (sendOwn (.passwordMessage target.password))
          waitForReady target n version
      | .authenticationMd5Password _ | .authenticationSasl _ =>
          Eff.fail (.session (.backend
            ("backend requires md5/scram auth; the local-stack boundary uses trust on loopback " ++
              "(MVP). Configure trust or extend backend auth.")))
      | .errorResponse fields =>
          Eff.fail (.session (.backend ("backend rejected startup: " ++ diag fields)))
      | .parameterStatus name value =>
          waitForReady target n (if name = "server_version" then value else version)
      | .readyForQuery _ => pure version
      | _ => waitForReady target n version

/-- Read the answers to a statement of the proxy's own up to `ReadyForQuery`. -/
def drainToReady : List Reply → Session σ F Unit
  | [] => Eff.fail (.backend "backend closed mid-command")
  | reply :: rest => do
      takeReply rest (.drained reply)
      let msg ← Eff.mapError .protocol (Eff.lift (decodeBackend reply.frame))
      match msg with
      | .errorResponse fields => Eff.fail (.backend ("backend error: " ++ diag fields))
      | .readyForQuery _ => pure ()
      | _ => drainToReady rest

/-- Run a statement of the proxy's own. -/
def inject (sql : String) : Session σ F Unit := do
  sendExtendedUnit sql
  let inbox ← readInbox
  drainToReady inbox

/-- The statements that pin the settings of the session. -/
def pins (cfg : ProxyConfig F) : List String :=
  (if cfg.searchPath = "" then [] else ["SET search_path = " ++ cfg.searchPath]) ++
    (if cfg.statementTimeoutMs = 0 then []
      else ["SET statement_timeout = " ++ toString cfg.statementTimeoutMs])

def injectAll : List String → Session σ F Unit
  | [] => pure ()
  | sql :: rest => do
      inject sql
      injectAll rest

/-- Open the backend's session; the version it has told. -/
def connectBackend (cfg : ProxyConfig F) (patience : Nat) : Conn σ F String := do
  connect cfg.backend
  originate cfg.backend.startup
  let version ← waitForReady cfg.backend patience ""
  inSession (injectAll (pins cfg))
  pure version

/-- What tells the agent that it is in. -/
def welcome (version : String) : List BackendMessage :=
  [.authenticationOk,
    .parameterStatus "server_version"
      ((if version = "" then "unknown" else version) ++ " (pg_brakes proxy)"),
    .parameterStatus "client_encoding" "UTF8",
    .parameterStatus "DateStyle" "ISO, MDY",
    .parameterStatus "standard_conforming_strings" "on",
    .backendKeyData 0 0,
    .readyForQuery .idle]

def sendAll : List BackendMessage → Conn σ F Unit
  | [] => pure ()
  | msg :: rest => do
      send msg
      sendAll rest

def finishAgentStartup (version : String) : Conn σ F Unit := sendAll (welcome version)

/-! ## The connection -/

/-- The frames that can be read off a stream, up to a number of them, and what reading on
says behind the last one. -/
def framesWithin : Nat → Bytes → List RawFrame × Except ProtocolError Unit
  | 0, _ => ([], .ok ())
  | n + 1, bytes =>
      match readTaggedFrame bytes with
      | (.ok (some frame), rest) =>
          (frame :: (framesWithin n rest).1, (framesWithin n rest).2)
      | (.ok none, _) => ([], .ok ())
      | (.error e, _) => ([], .error e)

/-- The frames on a stream, and how it ends; each frame takes a byte at least. -/
def framesOf (bytes : Bytes) : List RawFrame × Except ProtocolError Unit :=
  framesWithin bytes.length bytes

variable [Runtime F] [Parser]

/-- The loop over the frames of the agent, on the backend's session as it is.  The frames
behind the end of the loop are never looked at. -/
def serveQueries (cfg : Config F) : Conn σ F Unit := fun s =>
  let run := runQueryLoop cfg ((framesOf s.world.stream).2.mapError .protocol)
    (framesOf s.world.stream).1 (Loop.start cfg s.world.session.outside s.world.session.inbox)
  (run.1.mapError .session,
    ⟨{ s.world with session := run.2.2.world }, s.log ++ run.2.1.map .turn⟩)

/-- Everything behind the negotiation. -/
def serveEncrypted [Base64] (crypto : Crypto) (cfg : ProxyConfig F) (patience : Nat) :
    Conn σ F Unit := do
  let body ← receiveStartup
  let startup ← Eff.lift (ofCodec (readStartup body).1)
  if startup.protocolVersion ≠ protocolVersion3 then
    refuse "0A000" "unsupported protocol version" (.handshake "unsupported protocol version")
  else do
    authenticateAgent crypto cfg.agentPassword
    let version ← connectBackend cfg patience
    finishAgentStartup version
    serveQueries cfg.toConfig

def serveConnection [Base64] (crypto : Crypto) (cfg : ProxyConfig F) (acceptor : Bool)
    (patience : Nat) : Conn σ F Unit := do
  let encrypted ← startupAndTls cfg.requireTls acceptor
  if cfg.requireTls ∧ ¬ encrypted then
    refuse "08P01" unencryptedMessage (.handshake "require_tls: refused unencrypted session")
  else serveEncrypted crypto cfg patience

/-- A connection that has just been accepted. -/
def Link.start (cfg : Config F) (stream : Bytes) (outside : σ) : Logged (Link σ) (ConnEvent σ F) :=
  ⟨⟨stream, (Loop.start cfg outside []).world⟩, []⟩

end

end PgBrakes.Ports.Proxy
