import PgBrakes.Ports.WireBuf

/-!
# Messages from the client

The tagged messages a client sends, their bytes and their decoder.  A password
frame can be one of three messages; the decoder reads it as a password.

## Main results

* `decode_tag` — a frame that decodes has the tag of its message.
* `decode_parse_noNul` — the text of a decoded statement holds no NUL.
* `decode_parse_encode`, `decode_bind_encode`, `decode_execute_encode` — the
  messages of one extended-protocol unit are read back from their bytes.
-/

namespace PgBrakes.Ports.Wire

open PgBrakes.Verified.Effect

/-- What a `Describe` or a `Close` is about. -/
inductive TargetKind where
  | statement
  | portal
deriving DecidableEq

def TargetKind.tag : TargetKind → UInt8
  | .statement => 0x53
  | .portal => 0x50

def TargetKind.fromTag (b : UInt8) : Except ProtocolError TargetKind :=
  if b = 0x53 then .ok .statement
  else if b = 0x50 then .ok .portal
  else .error (.malformed "bad Describe/Close target kind")

/-- The client's choice of a SASL mechanism, with its first message. -/
structure SaslInitialResponse where
  mechanism : String
  initialResponse : Option Bytes
deriving DecidableEq

/-- A message of the client. -/
inductive FrontendMessage where
  | query (sql : String)
  | parse (statement sql : String) (paramTypes : List Int32)
  | bind (portal statement : String) (rest : Bytes)
  | describe (kind : TargetKind) (name : String)
  | execute (portal : String) (maxRows : Int32)
  | sync
  | flush
  | close (kind : TargetKind) (name : String)
  | terminate
  | saslInitialResponse (response : SaslInitialResponse)
  | saslResponse (data : Bytes)
  | passwordMessage (password : String)
  | copyData (data : Bytes)
  | copyDone
  | copyFail (message : String)
deriving DecidableEq

/-! ## Tags -/

def tagQuery : UInt8 := 0x51
def tagParse : UInt8 := 0x50
def tagBind : UInt8 := 0x42
def tagDescribe : UInt8 := 0x44
def tagExecute : UInt8 := 0x45
def tagSync : UInt8 := 0x53
def tagFlush : UInt8 := 0x48
def tagClose : UInt8 := 0x43
def tagTerminate : UInt8 := 0x58
def tagPassword : UInt8 := 0x70
def tagCopyData : UInt8 := 0x64
def tagCopyDone : UInt8 := 0x63
def tagCopyFail : UInt8 := 0x66

def FrontendMessage.tag : FrontendMessage → UInt8
  | .query _ => tagQuery
  | .parse _ _ _ => tagParse
  | .bind _ _ _ => tagBind
  | .describe _ _ => tagDescribe
  | .execute _ _ => tagExecute
  | .sync => tagSync
  | .flush => tagFlush
  | .close _ _ => tagClose
  | .terminate => tagTerminate
  | .saslInitialResponse _ => tagPassword
  | .saslResponse _ => tagPassword
  | .passwordMessage _ => tagPassword
  | .copyData _ => tagCopyData
  | .copyDone => tagCopyDone
  | .copyFail _ => tagCopyFail

/-! ## Bytes -/

def SaslInitialResponse.encodeBody (r : SaslInitialResponse) : Bytes :=
  putCstr r.mechanism ++
    match r.initialResponse with
    | some data => putI32 (.ofNat data.length) ++ data
    | none => putI32 (-1)

def FrontendMessage.encodeBody : FrontendMessage → Bytes
  | .query sql => putCstr sql
  | .parse statement sql paramTypes =>
      putCstr statement ++ (putCstr sql ++
        (putI16 (.ofNat paramTypes.length) ++ paramTypes.flatMap putI32))
  | .bind portal statement rest => putCstr portal ++ (putCstr statement ++ rest)
  | .describe kind name => kind.tag :: putCstr name
  | .execute portal maxRows => putCstr portal ++ putI32 maxRows
  | .sync => []
  | .flush => []
  | .terminate => []
  | .close kind name => kind.tag :: putCstr name
  | .saslInitialResponse response => response.encodeBody
  | .saslResponse data => data
  | .passwordMessage password => putCstr password
  | .copyData data => data
  | .copyDone => []
  | .copyFail message => putCstr message

/-- The frame of a message. -/
def FrontendMessage.encode (msg : FrontendMessage) : RawFrame := ⟨msg.tag, msg.encodeBody⟩

/-! ## The decoder -/

def readQuery : Reader FrontendMessage := do
  let sql ← getCstr
  pure (.query sql)

def readParse : Reader FrontendMessage := do
  let statement ← getCstr
  let sql ← getCstr
  let n ← getI16
  if n < 0 then Eff.fail (.malformed "Parse: negative param count")
  else do
    let paramTypes ← getMany getI32 n.toInt.toNat
    pure (.parse statement sql paramTypes)

def readBind : Reader FrontendMessage := do
  let portal ← getCstr
  let statement ← getCstr
  let rest ← getRest
  pure (.bind portal statement rest)

/-- The kind and the name of a `Describe` or a `Close`. -/
def readTarget (message : TargetKind → String → FrontendMessage) : Reader FrontendMessage := do
  let b ← getU8
  let kind ← Eff.lift (TargetKind.fromTag b)
  let name ← getCstr
  pure (message kind name)

def readExecute : Reader FrontendMessage := do
  let portal ← getCstr
  let maxRows ← getI32
  pure (.execute portal maxRows)

def readPassword : Reader FrontendMessage := do
  let password ← getCstr
  pure (.passwordMessage password)

def readCopyData : Reader FrontendMessage := do
  let data ← getRest
  pure (.copyData data)

def readCopyFail : Reader FrontendMessage := do
  let message ← getCstr
  pure (.copyFail message)

/-- The reader of the body for a tag. -/
def readFrontend (tag : UInt8) : Reader FrontendMessage :=
  if tag = tagQuery then readQuery
  else if tag = tagParse then readParse
  else if tag = tagBind then readBind
  else if tag = tagDescribe then readTarget .describe
  else if tag = tagExecute then readExecute
  else if tag = tagSync then pure .sync
  else if tag = tagFlush then pure .flush
  else if tag = tagClose then readTarget .close
  else if tag = tagTerminate then pure .terminate
  else if tag = tagPassword then readPassword
  else if tag = tagCopyData then readCopyData
  else if tag = tagCopyDone then pure .copyDone
  else if tag = tagCopyFail then readCopyFail
  else Eff.fail (.unknownTag tag)

/-- The message of a frame; bytes after it are ignored. -/
def FrontendMessage.decode (frame : RawFrame) : Except ProtocolError FrontendMessage :=
  (readFrontend frame.tag frame.body).1

/-! ## What a frame decodes to -/

/-- The reader for a tag yields messages of that tag only. -/
theorem readFrontend_tag (tag : UInt8) :
    Eff.Yields (fun msg => msg.tag = tag) (readFrontend tag) := by
  refine .ite (fun h => .bind fun _ => .pure h.symm) fun _ => ?_
  refine .ite (fun h => .bind fun _ => .bind fun _ => .bind fun _ => .ite (fun _ => .fail _)
    fun _ => .bind fun _ => .pure h.symm) fun _ => ?_
  refine .ite (fun h => .bind fun _ => .bind fun _ => .bind fun _ => .pure h.symm) fun _ => ?_
  refine .ite (fun h => .bind fun _ => .bind fun _ => .bind fun _ => .pure h.symm) fun _ => ?_
  refine .ite (fun h => .bind fun _ => .bind fun _ => .pure h.symm) fun _ => ?_
  refine .ite (fun h => .pure h.symm) fun _ => ?_
  refine .ite (fun h => .pure h.symm) fun _ => ?_
  refine .ite (fun h => .bind fun _ => .bind fun _ => .bind fun _ => .pure h.symm) fun _ => ?_
  refine .ite (fun h => .pure h.symm) fun _ => ?_
  refine .ite (fun h => .bind fun _ => .pure h.symm) fun _ => ?_
  refine .ite (fun h => .bind fun _ => .pure h.symm) fun _ => ?_
  refine .ite (fun h => .pure h.symm) fun _ => ?_
  exact .ite (fun h => .bind fun _ => .pure h.symm) fun _ => .fail _

/-- A frame that decodes, as a run of the reader for its tag. -/
theorem decode_read {frame : RawFrame} {msg : FrontendMessage}
    (h : FrontendMessage.decode frame = .ok msg) :
    ∃ rest, readFrontend frame.tag frame.body = (.ok msg, rest) :=
  ⟨_, Prod.ext h rfl⟩

/-- A frame that decodes has the tag of its message. -/
theorem decode_tag {frame : RawFrame} {msg : FrontendMessage}
    (h : FrontendMessage.decode frame = .ok msg) : frame.tag = msg.tag :=
  (readFrontend_tag frame.tag frame.body msg h).symm

/-- Only a `Sync` has its tag. -/
theorem tag_eq_sync {msg : FrontendMessage} : msg.tag = tagSync ↔ msg = .sync := by
  cases msg <;> simp [FrontendMessage.tag] <;> decide

theorem decode_sync {frame : RawFrame} {msg : FrontendMessage}
    (h : FrontendMessage.decode frame = .ok msg) : frame.tag = tagSync ↔ msg = .sync := by
  rw [decode_tag h, tag_eq_sync]

/-- The strings of a decoded `Parse` hold no NUL. -/
theorem decode_parse_noNul {frame : RawFrame} {statement sql : String} {paramTypes : List Int32}
    (h : FrontendMessage.decode frame = .ok (.parse statement sql paramTypes)) :
    0 ∉ utf8 sql := by
  have htag : frame.tag = tagParse := decode_tag h
  obtain ⟨rest, hread⟩ := decode_read h
  rw [htag] at hread
  have hrun : readParse frame.body = (.ok (.parse statement sql paramTypes), rest) := hread
  obtain ⟨statement', rest₁, -, hrun⟩ := Eff.bind_ok_iff.mp hrun
  obtain ⟨sql', rest₂, hsql, hrun⟩ := Eff.bind_ok_iff.mp hrun
  obtain ⟨n, rest₃, -, hrun⟩ := Eff.bind_ok_iff.mp hrun
  have hnul := getCstr_ok hsql
  split at hrun
  · cases hrun
  · obtain ⟨types, rest₄, -, hrun⟩ := Eff.bind_ok_iff.mp hrun
    cases hrun
    exact hnul

/-! ## The unit the proxy sends itself -/

theorem decode_parse_encode {statement sql : String} (hstatement : 0 ∉ utf8 statement)
    (hsql : 0 ∉ utf8 sql) :
    FrontendMessage.decode (FrontendMessage.parse statement sql []).encode =
      .ok (.parse statement sql []) := by
  have hrun : readParse (FrontendMessage.parse statement sql []).encodeBody =
      (.ok (.parse statement sql []), []) := by
    rw [readParse, FrontendMessage.encodeBody, Eff.bind_of_ok (getCstr_append hstatement _),
      Eff.bind_of_ok (getCstr_append hsql _), Eff.bind_of_ok (getI16_put _ _)]
    rfl
  show (readParse (FrontendMessage.parse statement sql []).encodeBody).1 = _
  rw [hrun]

theorem decode_bind_encode {portal statement : String} (hportal : 0 ∉ utf8 portal)
    (hstatement : 0 ∉ utf8 statement) (rest : Bytes) :
    FrontendMessage.decode (FrontendMessage.bind portal statement rest).encode =
      .ok (.bind portal statement rest) := by
  have hrun : readBind (FrontendMessage.bind portal statement rest).encodeBody =
      (.ok (.bind portal statement rest), []) := by
    rw [readBind, FrontendMessage.encodeBody, Eff.bind_of_ok (getCstr_append hportal _),
      Eff.bind_of_ok (getCstr_append hstatement _)]
    rfl
  show (readBind (FrontendMessage.bind portal statement rest).encodeBody).1 = _
  rw [hrun]

theorem decode_execute_encode {portal : String} (hportal : 0 ∉ utf8 portal) (maxRows : Int32) :
    FrontendMessage.decode (FrontendMessage.execute portal maxRows).encode =
      .ok (.execute portal maxRows) := by
  have hint : getI32 (putI32 maxRows) = (.ok maxRows, []) := by
    have := getI32_put maxRows []
    rwa [List.append_nil] at this
  have hrun : readExecute (FrontendMessage.execute portal maxRows).encodeBody =
      (.ok (.execute portal maxRows), []) := by
    rw [readExecute, FrontendMessage.encodeBody, Eff.bind_of_ok (getCstr_append hportal _),
      Eff.bind_of_ok hint]
    rfl
  show (readExecute (FrontendMessage.execute portal maxRows).encodeBody).1 = _
  rw [hrun]

end PgBrakes.Ports.Wire
