import PgBrakes.Ports.WireFrontend
import PgBrakes.Ports.WireBackend

/-!
# Frames and the messages in them

A port of `crates/pgwire/src/codec.rs`, of the untagged messages in `frontend.rs`, of
the SASL bodies in `scram.rs` and of all messages in `backend.rs`.  An encoded message
is its tag, a length that counts itself, and its body; a startup message has no tag.
A reader of the stream takes the tag, checks the length and takes the body, and the
body is decoded by its tag.  A frame of the tag `p` is one of three messages, and the
phase of the authentication says which.
-/

namespace PgBrakes.Ports.Wire

open PgBrakes.Verified.Effect

/-! ## Frames on the stream -/

/-- The limit of a frame, `MAX_FRAME_LEN`. -/
def maxFrameLen : Nat := 0x40000000

/-- The length field of a body: it counts its own four bytes. -/
def lengthField (body : Bytes) : Int32 := .ofNat (4 + body.length)

/-- `tag | i32 len | body`. -/
def frameTagged (frame : RawFrame) : Bytes :=
  frame.tag :: (putI32 (lengthField frame.body) ++ frame.body)

/-- `i32 len | body`. -/
def frameUntagged (body : Bytes) : Bytes := putI32 (lengthField body) ++ body

/-- The next four bytes of the stream; a stream that ends before is an I/O error. -/
def streamI32 : Reader Int32
  | a :: b :: c :: d :: rest =>
      (.ok (.ofBitVec (a.toBitVec ++ b.toBitVec ++ c.toBitVec ++ d.toBitVec)), rest)
  | bytes => (.error .io, bytes)

/-- Exactly `n` bytes of the stream. -/
def readExact (n : Nat) : Reader Bytes := fun bytes =>
  if bytes.length < n then (.error .io, bytes) else (.ok (bytes.take n), bytes.drop n)

/-- A declared length is at least 4 and at most the limit; the body is the rest of
it. -/
def checkedBodyLen (len : Int32) : Except ProtocolError Nat :=
  if 4 ≤ len.toInt ∧ len.toInt ≤ maxFrameLen then .ok (len.toInt - 4).toNat
  else .error (.invalidLength len)

def readStartupBody : Reader Bytes := do
  let len ← streamI32
  let n ← Eff.lift (checkedBodyLen len)
  readExact n

/-- The length and the body behind a tag. -/
def readFrameOf (tag : UInt8) : Reader (Option RawFrame) := do
  let body ← readStartupBody
  pure (some { tag := tag, body := body })

/-- Read one tagged frame; nothing when the stream ends before it. -/
def readTaggedFrame : Reader (Option RawFrame)
  | [] => (.ok none, [])
  | tag :: rest => readFrameOf tag rest

/-! ## Startup -/

def protocolVersion3 : Int32 := 196608
def sslRequestCode : Int32 := 80877103

structure StartupMessage where
  protocolVersion : Int32
  parameters : List (String × String)
deriving DecidableEq

/-- A list that ends with an empty entry. -/
def putParameters (parameters : List (String × String)) : Bytes :=
  parameters.flatMap (fun p => putCstr p.1 ++ putCstr p.2) ++ [0]

def StartupMessage.encodeBody (m : StartupMessage) : Bytes :=
  putI32 m.protocolVersion ++ putParameters m.parameters

/-- The loop of `decode_body`.  A parameter takes two bytes at least, so the length of
the body bounds their number. -/
def readParametersWithin : Nat → Reader (List (String × String))
  | 0 => Eff.fail (.malformed "StartupMessage: missing list terminator")
  | n + 1 => fun bytes =>
      if bytes.isEmpty then
        (.error (.malformed "StartupMessage: missing list terminator"), bytes)
      else (do
        let key ← getCstr
        if key = "" then pure []
        else do
          let value ← getCstr
          let parameters ← readParametersWithin n
          pure ((key, value) :: parameters)) bytes

def readStartup : Reader StartupMessage := do
  let protocolVersion ← getI32
  let parameters ← fun bytes => readParametersWithin (bytes.length + 1) bytes
  pure ⟨protocolVersion, parameters⟩

def sslRequestBody : Bytes := putI32 sslRequestCode

def readSslRequest : Reader Unit := do
  let code ← getI32
  if code ≠ sslRequestCode then Eff.fail (.malformed "SSLRequest: bad magic code") else pure ()

/-! ## SASL bodies of the client -/

/-- `SaslInitialResponse::decode_body`. -/
def readSaslInitialResponse : Reader SaslInitialResponse := do
  let mechanism ← getCstr
  let initialResponse ← readColumn
  pure ⟨mechanism, initialResponse⟩

/-- What the proxy expects a frame of the tag `p` to be. -/
inductive AuthPhase where
  | saslInitial
  | saslContinue
  | password
deriving DecidableEq

/-- The phase in which a message is sent. -/
def FrontendMessage.phase : FrontendMessage → AuthPhase
  | .saslInitialResponse _ => .saslInitial
  | .saslResponse _ => .saslContinue
  | _ => .password

/-- The body of a frame, with the phase for the ambiguous tag. -/
def readFrontendIn (phase : AuthPhase) (tag : UInt8) : Reader FrontendMessage :=
  if tag = tagPassword then
    match phase with
    | .saslInitial => do
        let response ← readSaslInitialResponse
        pure (.saslInitialResponse response)
    | .saslContinue => do
        let data ← getRest
        pure (.saslResponse data)
    | .password => readFrontend tag
  else readFrontend tag

/-! ## Messages of the server -/

def tagAuthentication : UInt8 := 0x52
def tagParameterStatus : UInt8 := 0x53
def tagBackendKeyData : UInt8 := 0x4B
def tagNoticeResponse : UInt8 := 0x4E
def tagRowDescription : UInt8 := 0x54
def tagPortalSuspended : UInt8 := 0x73
def tagEmptyQueryResponse : UInt8 := 0x49

deriving instance DecidableEq for TransactionStatus

def TransactionStatus.fromTag (b : UInt8) : Except ProtocolError TransactionStatus :=
  if b = 0x49 then .ok .idle
  else if b = 0x54 then .ok .inTransaction
  else if b = 0x45 then .ok .failed
  else .error (.malformed "ReadyForQuery: bad status")

structure FieldDescription where
  name : String
  tableOid : Int32
  columnAttr : Int16
  typeOid : Int32
  typeSize : Int16
  typeModifier : Int32
  format : Int16
deriving DecidableEq

/-- The four bytes of an MD5 salt. -/
structure Md5Salt where
  bytes : Bytes
  length : bytes.length = 4
deriving DecidableEq

inductive BackendMessage where
  | authenticationOk
  | authenticationCleartextPassword
  | authenticationMd5Password (salt : Md5Salt)
  | authenticationSasl (mechanisms : List String)
  | authenticationSaslContinue (data : Bytes)
  | authenticationSaslFinal (data : Bytes)
  | parameterStatus (name value : String)
  | backendKeyData (processId secretKey : Int32)
  | readyForQuery (status : TransactionStatus)
  | errorResponse (fields : List (UInt8 × String))
  | noticeResponse (fields : List (UInt8 × String))
  | rowDescription (fields : List FieldDescription)
  | dataRow (columns : List (Option Bytes))
  | commandComplete (tag : String)
  | portalSuspended
  | parseComplete
  | bindComplete
  | closeComplete
  | noData
  | emptyQueryResponse
  | copyInResponse (format : UInt8) (columnFormats : List Int16)
  | copyOutResponse (format : UInt8) (columnFormats : List Int16)
  | copyData (data : Bytes)
  | copyDone
deriving DecidableEq

def BackendMessage.tag : BackendMessage → UInt8
  | .authenticationOk | .authenticationCleartextPassword | .authenticationMd5Password _
  | .authenticationSasl _ | .authenticationSaslContinue _ | .authenticationSaslFinal _ =>
      tagAuthentication
  | .parameterStatus _ _ => tagParameterStatus
  | .backendKeyData _ _ => tagBackendKeyData
  | .readyForQuery _ => tagReadyForQuery
  | .errorResponse _ => tagErrorResponse
  | .noticeResponse _ => tagNoticeResponse
  | .rowDescription _ => tagRowDescription
  | .dataRow _ => tagDataRow
  | .commandComplete _ => tagCommandComplete
  | .portalSuspended => tagPortalSuspended
  | .parseComplete => tagParseComplete
  | .bindComplete => tagBindComplete
  | .closeComplete => tagCloseComplete
  | .noData => tagNoData
  | .emptyQueryResponse => tagEmptyQueryResponse
  | .copyInResponse _ _ => tagCopyInResponse
  | .copyOutResponse _ _ => tagCopyOutResponse
  | .copyData _ => tagBackendCopyData
  | .copyDone => tagBackendCopyDone

/-! ### Their bytes -/

def putDiagnostics (fields : List (UInt8 × String)) : Bytes :=
  fields.flatMap (fun f => f.1 :: putCstr f.2) ++ [0]

def putMechanisms (mechanisms : List String) : Bytes := mechanisms.flatMap putCstr ++ [0]

/-- A column: its length and its bytes, or `-1` for NULL. -/
def putColumn : Option Bytes → Bytes
  | none => putI32 (-1)
  | some bytes => putI32 (.ofNat bytes.length) ++ bytes

def FieldDescription.encode (f : FieldDescription) : Bytes :=
  putCstr f.name ++ (putI32 f.tableOid ++ (putI16 f.columnAttr ++ (putI32 f.typeOid ++
    (putI16 f.typeSize ++ (putI32 f.typeModifier ++ putI16 f.format)))))

/-- A 16-bit count and the items. -/
def putCounted {α : Type} (put : α → Bytes) (items : List α) : Bytes :=
  putI16 (.ofNat items.length) ++ items.flatMap put

def BackendMessage.encodeBody : BackendMessage → Bytes
  | .authenticationOk => putI32 0
  | .authenticationCleartextPassword => putI32 3
  | .authenticationMd5Password salt => putI32 5 ++ salt.bytes
  | .authenticationSasl mechanisms => putI32 10 ++ putMechanisms mechanisms
  | .authenticationSaslContinue data => putI32 11 ++ data
  | .authenticationSaslFinal data => putI32 12 ++ data
  | .parameterStatus name value => putCstr name ++ putCstr value
  | .backendKeyData processId secretKey => putI32 processId ++ putI32 secretKey
  | .readyForQuery status => [status.tag]
  | .errorResponse fields | .noticeResponse fields => putDiagnostics fields
  | .rowDescription fields => putCounted FieldDescription.encode fields
  | .dataRow columns => putCounted putColumn columns
  | .commandComplete tag => putCstr tag
  | .copyInResponse format columnFormats | .copyOutResponse format columnFormats =>
      format :: putCounted putI16 columnFormats
  | .copyData data => data
  | .portalSuspended | .parseComplete | .bindComplete | .closeComplete | .noData
  | .emptyQueryResponse | .copyDone => []

/-! ### Their decoder -/

/-- The items behind a 16-bit count, which must not be negative. -/
def readCounted {α : Type} (what : String) (read : Reader α) : Reader (List α) := do
  let n ← getI16
  if n < 0 then Eff.fail (.malformed (what ++ ": negative count"))
  else getMany read n.toInt.toNat

def readField : Reader FieldDescription := do
  let name ← getCstr
  let tableOid ← getI32
  let columnAttr ← getI16
  let typeOid ← getI32
  let typeSize ← getI16
  let typeModifier ← getI32
  let format ← getI16
  pure ⟨name, tableOid, columnAttr, typeOid, typeSize, typeModifier, format⟩

/-- The loop of `AuthenticationSasl::decode_body`. -/
def readMechanismsWithin : Nat → Reader (List String)
  | 0 => Eff.fail (.malformed "AuthenticationSASL: missing list terminator")
  | n + 1 => fun bytes =>
      if bytes.isEmpty then
        (.error (.malformed "AuthenticationSASL: missing list terminator"), bytes)
      else (do
        let m ← getCstr
        if m = "" then pure []
        else do
          let mechanisms ← readMechanismsWithin n
          pure (m :: mechanisms)) bytes

def readSalt : Reader Md5Salt := fun bytes =>
  if h : bytes.length < 4 then (.error (.malformed "unexpected end of message"), bytes)
  else (.ok ⟨bytes.take 4, by simp; omega⟩, bytes.drop 4)

/-- `decode_authentication`. -/
def readAuthentication : Reader BackendMessage := do
  let kind ← getI32
  if kind = 0 then pure .authenticationOk
  else if kind = 3 then pure .authenticationCleartextPassword
  else if kind = 5 then do
    let salt ← readSalt
    pure (.authenticationMd5Password salt)
  else if kind = 10 then do
    let mechanisms ← fun bytes => readMechanismsWithin (bytes.length + 1) bytes
    pure (.authenticationSasl mechanisms)
  else if kind = 11 then do
    let data ← getRest
    pure (.authenticationSaslContinue data)
  else if kind = 12 then do
    let data ← getRest
    pure (.authenticationSaslFinal data)
  else Eff.fail (.malformed "Authentication: unsupported type")

def readParameterStatus : Reader BackendMessage := do
  let name ← getCstr
  let value ← getCstr
  pure (.parameterStatus name value)

def readBackendKeyData : Reader BackendMessage := do
  let processId ← getI32
  let secretKey ← getI32
  pure (.backendKeyData processId secretKey)

def readReadyForQuery : Reader BackendMessage := do
  let b ← getU8
  let status ← Eff.lift (TransactionStatus.fromTag b)
  pure (.readyForQuery status)

/-- The body of an error or a notice. -/
def readDiagnosticsAs (message : List (UInt8 × String) → BackendMessage) :
    Reader BackendMessage := do
  let fields ← readDiagnostics
  pure (message fields)

def readRowDescription : Reader BackendMessage := do
  let fields ← readCounted "RowDescription" readField
  pure (.rowDescription fields)

def readDataRowMessage : Reader BackendMessage := do
  let columns ← readDataRow
  pure (.dataRow columns)

def readCommandComplete : Reader BackendMessage := do
  let tag ← getCstr
  pure (.commandComplete tag)

/-- `decode_copy_response`. -/
def readCopyResponse (message : UInt8 → List Int16 → BackendMessage) :
    Reader BackendMessage := do
  let format ← getU8
  let columnFormats ← readCounted "Copy*Response" getI16
  pure (message format columnFormats)

def readBackendCopyData : Reader BackendMessage := do
  let data ← getRest
  pure (.copyData data)

/-- The reader of the body for a tag. -/
def readBackend (tag : UInt8) : Reader BackendMessage :=
  if tag = tagAuthentication then readAuthentication
  else if tag = tagParameterStatus then readParameterStatus
  else if tag = tagBackendKeyData then readBackendKeyData
  else if tag = tagReadyForQuery then readReadyForQuery
  else if tag = tagErrorResponse then readDiagnosticsAs .errorResponse
  else if tag = tagNoticeResponse then readDiagnosticsAs .noticeResponse
  else if tag = tagRowDescription then readRowDescription
  else if tag = tagDataRow then readDataRowMessage
  else if tag = tagCommandComplete then readCommandComplete
  else if tag = tagPortalSuspended then pure .portalSuspended
  else if tag = tagParseComplete then pure .parseComplete
  else if tag = tagBindComplete then pure .bindComplete
  else if tag = tagCloseComplete then pure .closeComplete
  else if tag = tagNoData then pure .noData
  else if tag = tagEmptyQueryResponse then pure .emptyQueryResponse
  else if tag = tagCopyInResponse then readCopyResponse .copyInResponse
  else if tag = tagCopyOutResponse then readCopyResponse .copyOutResponse
  else if tag = tagBackendCopyData then readBackendCopyData
  else if tag = tagBackendCopyDone then pure .copyDone
  else Eff.fail (.unknownTag tag)

end PgBrakes.Ports.Wire
