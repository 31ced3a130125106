import Mathlib.Algebra.Group.Nat.Defs
import PgBrakes.Verified.Readback
import PgBrakes.Ports.WireCodec

/-!
# Reading messages back

The encoder and the decoder of every message are written apart.  Here the readers are
put against the writers: each small reader gives back what its writer wrote and stops
there, and the messages follow by putting the readers in sequence.  What can not be
written is excluded by `Encodable`: a string with a NUL, a list longer than its count,
an empty entry in a list that an empty entry ends.

## Main results

* `readTaggedFrame_frame`, `readStartupBody_frame` — a frame that fits the limit is
  read back from the stream, with whatever follows left over.
* `readFrontendIn_encodeBody`, `readBackend_encodeBody`, `readStartup_encodeBody` —
  the body of a message is read back to its end.
* `codec_round_trip` — the two together, for every message.
-/

namespace PgBrakes.Ports.Wire

open PgBrakes.Verified.Effect
open PgBrakes.Verified.Readback

/-! ## What can be written -/

/-- The string can be ended by a NUL. -/
def NoNul (s : String) : Prop := 0 ∉ utf8 s
deriving Decidable

/-- The largest 16-bit count. -/
def maxCount : Nat := 32767

/-- The frame of a body fits the limit of the reader. -/
def Fits (body : Bytes) : Prop := 4 + body.length ≤ maxFrameLen
deriving Decidable

def FrontendMessage.Encodable : FrontendMessage → Prop
  | .query sql => NoNul sql
  | .parse statement sql paramTypes =>
      NoNul statement ∧ NoNul sql ∧ paramTypes.length ≤ maxCount
  | .bind portal statement _ => NoNul portal ∧ NoNul statement
  | .describe _ name => NoNul name
  | .execute portal _ => NoNul portal
  | .close _ name => NoNul name
  | .saslInitialResponse response => NoNul response.mechanism
  | .passwordMessage password => NoNul password
  | .copyFail message => NoNul message
  | .sync | .flush | .terminate | .saslResponse _ | .copyData _ | .copyDone => True

def StartupMessage.Encodable (m : StartupMessage) : Prop :=
  ∀ p ∈ m.parameters, p.1 ≠ "" ∧ NoNul p.1 ∧ NoNul p.2

/-- A code of zero would end the fields. -/
def DiagnosticsEncodable (fields : List (UInt8 × String)) : Prop :=
  ∀ f ∈ fields, f.1 ≠ 0 ∧ NoNul f.2

def BackendMessage.Encodable : BackendMessage → Prop
  | .authenticationSasl mechanisms => ∀ m ∈ mechanisms, m ≠ "" ∧ NoNul m
  | .parameterStatus name value => NoNul name ∧ NoNul value
  | .errorResponse fields | .noticeResponse fields => DiagnosticsEncodable fields
  | .rowDescription fields => fields.length ≤ maxCount ∧ ∀ f ∈ fields, NoNul f.name
  | .dataRow columns => columns.length ≤ maxCount
  | .commandComplete tag => NoNul tag
  | .copyInResponse _ columnFormats | .copyOutResponse _ columnFormats =>
      columnFormats.length ≤ maxCount
  | .authenticationOk | .authenticationCleartextPassword | .authenticationMd5Password _
  | .authenticationSaslContinue _ | .authenticationSaslFinal _ | .backendKeyData _ _
  | .readyForQuery _ | .portalSuspended | .parseComplete | .bindComplete | .closeComplete
  | .noData | .emptyQueryResponse | .copyData _ | .copyDone => True

/-! ## Small readers -/

theorem gives_u8 (b : UInt8) : Gives getU8 [b] b := by
  intro rest
  rfl

theorem gives_i16 (v : Int16) : Gives getI16 (putI16 v) v := getI16_put v

theorem gives_i32 (v : Int32) : Gives getI32 (putI32 v) v := getI32_put v

theorem gives_cstr {s : String} (hs : NoNul s) : Gives getCstr (putCstr s) s :=
  getCstr_append hs

theorem gives_bytes (bytes : Bytes) : Gives (getBytes bytes.length) bytes bytes := by
  intro rest
  have hlen : ¬ (bytes ++ rest).length < bytes.length := by rw [List.length_append]; omega
  rw [getBytes, if_neg hlen, List.take_left, List.drop_left]

theorem gives_many {α : Type} {read : Reader α} {put : α → Bytes} {items : List α}
    (h : ∀ a ∈ items, Gives read (put a) a) :
    Gives (getMany read items.length) (items.flatMap put) items :=
  Gives.many rfl (fun _ => rfl) h

/-- A length within the count is not negative, and is read back as it is. -/
theorem toInt_ofNat16 {n : Nat} (h : n ≤ maxCount) : (Int16.ofNat n).toInt = n :=
  Int16.toInt_ofNat_of_lt (by simp only [maxCount] at h; omega)

theorem toInt_ofNat32 {n : Nat} (h : n < 2 ^ 31) : (Int32.ofNat n).toInt = n :=
  Int32.toInt_ofNat_of_lt h

theorem not_neg16 {n : Nat} (h : n ≤ maxCount) : ¬ Int16.ofNat n < 0 := by
  rw [Int16.lt_iff_toInt_lt, toInt_ofNat16 h, Int16.toInt_zero]
  omega

theorem not_neg32 {n : Nat} (h : n < 2 ^ 31) : ¬ Int32.ofNat n < 0 := by
  rw [Int32.lt_iff_toInt_lt, toInt_ofNat32 h, Int32.toInt_zero]
  omega

theorem gives_counted {α : Type} (what : String) {read : Reader α} {put : α → Bytes}
    {items : List α} (hcount : items.length ≤ maxCount)
    (h : ∀ a ∈ items, Gives read (put a) a) :
    Gives (readCounted what read) (putCounted put items) items := by
  refine (gives_i16 _).bind ?_
  rw [if_neg (not_neg16 hcount), toInt_ofNat16 hcount, Int.toNat_natCast]
  exact gives_many h

theorem gives_column {column : Option Bytes} (h : ∀ bytes, column = some bytes →
    bytes.length < 2 ^ 31) : Gives readColumn (putColumn column) column := by
  cases column with
  | none =>
      intro rest
      rw [readColumn, putColumn, Eff.bind_of_ok (getI32_put _ _), if_pos (by decide)]
      rfl
  | some bytes =>
      have hlen := h bytes rfl
      refine (gives_i32 _).bind ?_
      rw [if_neg (not_neg32 hlen), toInt_ofNat32 hlen, Int.toNat_natCast]
      exact (gives_bytes bytes).map some

/-! ## Lists that an empty entry ends -/

theorem utf8_empty : utf8 "" = [] := by decide +kernel

theorem gives_end : Gives getCstr [0] "" := by
  have hnul : NoNul "" := by simp [NoNul, utf8_empty]
  have h := gives_cstr hnul
  rwa [putCstr, utf8_empty, List.nil_append] at h

theorem putCstr_ne_nil (s : String) : putCstr s ≠ [] := by simp [putCstr]

/-- Every item takes a byte at least. -/
theorem length_le_flatMap {α : Type} (put : α → Bytes) (h : ∀ a, put a ≠ []) (items : List α) :
    items.length ≤ (items.flatMap put).length := by
  induction items with
  | nil => simp
  | cons a items ih =>
      have hone := List.length_pos_iff.mpr (h a)
      rw [List.flatMap_cons, List.length_append, List.length_cons]
      omega

theorem gives_parameters {parameters : List (String × String)}
    (h : ∀ p ∈ parameters, p.1 ≠ "" ∧ NoNul p.1 ∧ NoNul p.2) :
    Gives (fun bytes => readParametersWithin (bytes.length + 1) bytes)
      (putParameters parameters) parameters := by
  have hstop : ∀ n, Gives (readParametersWithin (n + 1)) [0] [] := by
    intro n
    refine Gives.guarded ?_ (by simp) _
    exact gives_end.bind (Gives.pure [])
  have hitem : ∀ n, ∀ p ∈ parameters, ∀ xs bs, Gives (readParametersWithin n) xs bs →
      Gives (readParametersWithin (n + 1)) (putCstr p.1 ++ putCstr p.2 ++ xs) (p :: bs) := by
    intro n p hp xs bs hrest
    obtain ⟨hkey, hnul, hvalue⟩ := h p hp
    refine Gives.guarded ?_ (by simp [putCstr]) _
    rw [List.append_assoc]
    refine (gives_cstr hnul).bind ?_
    rw [if_neg hkey]
    exact (gives_cstr hvalue).bind (hrest.map (p :: ·))
  have hroom := length_le_flatMap (fun p : String × String => putCstr p.1 ++ putCstr p.2)
    (fun p => by simp [putCstr]) parameters
  refine Gives.fueled (· + 1) (Gives.terminated hstop hitem) ?_
  intro n hn
  rw [putParameters, List.length_append] at hn
  omega

theorem gives_mechanisms {mechanisms : List String} (h : ∀ m ∈ mechanisms, m ≠ "" ∧ NoNul m) :
    Gives (fun bytes => readMechanismsWithin (bytes.length + 1) bytes)
      (putMechanisms mechanisms) mechanisms := by
  have hstop : ∀ n, Gives (readMechanismsWithin (n + 1)) [0] [] := by
    intro n
    refine Gives.guarded ?_ (by simp) _
    exact gives_end.bind (Gives.pure [])
  have hitem : ∀ n, ∀ m ∈ mechanisms, ∀ xs bs, Gives (readMechanismsWithin n) xs bs →
      Gives (readMechanismsWithin (n + 1)) (putCstr m ++ xs) (m :: bs) := by
    intro n m hm xs bs hrest
    obtain ⟨hname, hnul⟩ := h m hm
    refine Gives.guarded ?_ (by simp [putCstr]) _
    refine (gives_cstr hnul).bind ?_
    rw [if_neg hname]
    exact hrest.map (m :: ·)
  have hroom := length_le_flatMap putCstr putCstr_ne_nil mechanisms
  refine Gives.fueled (· + 1) (Gives.terminated hstop hitem) ?_
  intro n hn
  rw [putMechanisms, List.length_append] at hn
  omega

theorem gives_diagnostics {fields : List (UInt8 × String)} (h : DiagnosticsEncodable fields) :
    Gives readDiagnostics (putDiagnostics fields) fields := by
  have hstop : ∀ n, Gives (readDiagnosticsWithin (n + 1)) [0] [] := by
    intro n
    exact (gives_u8 0).bind (Gives.pure [])
  have hitem : ∀ n, ∀ f ∈ fields, ∀ xs bs, Gives (readDiagnosticsWithin n) xs bs →
      Gives (readDiagnosticsWithin (n + 1)) (f.1 :: putCstr f.2 ++ xs) (f :: bs) := by
    intro n f hf xs bs hrest
    obtain ⟨hcode, hvalue⟩ := h f hf
    show Gives _ ([f.1] ++ (putCstr f.2 ++ xs)) _
    refine (gives_u8 f.1).bind ?_
    rw [if_neg hcode]
    exact (gives_cstr hvalue).bind (hrest.map (f :: ·))
  have hroom := length_le_flatMap (fun f : UInt8 × String => f.1 :: putCstr f.2)
    (fun f => by simp) fields
  refine Gives.fueled id (Gives.terminated hstop hitem) ?_
  intro n hn
  rw [putDiagnostics, List.length_append, List.length_singleton] at hn
  show fields.length < n
  omega

/-! ## Frames -/

theorem checkedBodyLen_lengthField {body : Bytes} (h : Fits body) :
    checkedBodyLen (lengthField body) = .ok body.length := by
  have hlen : (lengthField body).toInt = (4 + body.length : Nat) := by
    refine toInt_ofNat32 ?_
    simp only [Fits, maxFrameLen] at h
    omega
  have hrange : (4 : Int) ≤ (4 + body.length : Nat) ∧
      ((4 + body.length : Nat) : Int) ≤ maxFrameLen := by
    simp only [Fits] at h
    omega
  have hbody : (((4 + body.length : Nat) : Int) - 4).toNat = body.length := by omega
  rw [checkedBodyLen, hlen, if_pos hrange, hbody]

theorem gives_exact (bytes : Bytes) : Gives (readExact bytes.length) bytes bytes := by
  intro rest
  have hlen : ¬ (bytes ++ rest).length < bytes.length := by rw [List.length_append]; omega
  rw [readExact, if_neg hlen, List.take_left, List.drop_left]

theorem gives_streamI32 (v : Int32) : Gives streamI32 (putI32 v) v := by
  intro rest
  have h := getI32_put v rest
  exact h

/-- An untagged frame that fits is read back. -/
theorem readStartupBody_frame {body : Bytes} (h : Fits body) :
    Gives readStartupBody (frameUntagged body) body :=
  (gives_streamI32 _).bind ((Gives.lift (checkedBodyLen_lengthField h)).bind (gives_exact body))

/-- A tagged frame that fits is read back. -/
theorem readTaggedFrame_frame {frame : RawFrame} (h : Fits frame.body) :
    Gives readTaggedFrame (frameTagged frame) (some frame) := by
  intro rest
  exact ((readStartupBody_frame h).map
    fun body => some ({ tag := frame.tag, body := body } : RawFrame)) rest

/-! ## Messages of the client -/

theorem fromTag_tag (kind : TargetKind) : TargetKind.fromTag kind.tag = .ok kind := by
  cases kind <;> rfl

theorem gives_parse {statement sql : String} {paramTypes : List Int32}
    (hstatement : NoNul statement) (hsql : NoNul sql) (hcount : paramTypes.length ≤ maxCount) :
    Gives readParse (FrontendMessage.parse statement sql paramTypes).encodeBody
      (.parse statement sql paramTypes) := by
  refine (gives_cstr hstatement).bind ((gives_cstr hsql).bind ((gives_i16 _).bind ?_))
  rw [if_neg (not_neg16 hcount), toInt_ofNat16 hcount, Int.toNat_natCast]
  exact (gives_many fun v _ => gives_i32 v).map _

theorem gives_target (message : TargetKind → String → FrontendMessage) (kind : TargetKind)
    {name : String} (hname : NoNul name) :
    Gives (readTarget message) (kind.tag :: putCstr name) (message kind name) :=
  (gives_u8 _).bind ((Gives.lift (fromTag_tag kind)).bind ((gives_cstr hname).map _))

theorem readBind_encodeBody {portal statement : String} (hportal : NoNul portal)
    (hstatement : NoNul statement) (rest : Bytes) :
    readBind (FrontendMessage.bind portal statement rest).encodeBody =
      (.ok (.bind portal statement rest), []) :=
  (gives_cstr hportal).bind_ends ((gives_cstr hstatement).bind_ends rfl)

theorem gives_saslInitialResponse {response : SaslInitialResponse}
    (hname : NoNul response.mechanism) (hfits : Fits response.encodeBody) :
    Gives readSaslInitialResponse response.encodeBody response := by
  have hbody : response.encodeBody = putCstr response.mechanism ++
      putColumn response.initialResponse := by
    rw [SaslInitialResponse.encodeBody]
    cases response.initialResponse <;> rfl
  have hcolumn : ∀ bytes, response.initialResponse = some bytes → bytes.length < 2 ^ 31 := by
    intro bytes hbytes
    rw [hbody, hbytes] at hfits
    simp only [Fits, putColumn, maxFrameLen, List.length_append] at hfits
    omega
  rw [hbody]
  exact (gives_cstr hname).bind ((gives_column hcolumn).map (SaslInitialResponse.mk _))

/-- The body of a message of the client is read back to its end. -/
theorem readFrontendIn_encodeBody {msg : FrontendMessage} {phase : AuthPhase}
    (hphase : msg.tag = tagPassword → msg.phase = phase) (h : msg.Encodable)
    (hfits : Fits msg.encodeBody) :
    readFrontendIn phase msg.tag msg.encodeBody = (.ok msg, []) := by
  cases msg with
  | query sql => exact ((gives_cstr h).map FrontendMessage.query).ends
  | parse statement sql paramTypes => exact (gives_parse h.1 h.2.1 h.2.2).ends
  | bind portal statement rest => exact readBind_encodeBody h.1 h.2 rest
  | describe kind name => exact (gives_target .describe kind h).ends
  | execute portal maxRows =>
      exact ((gives_cstr h).bind ((gives_i32 maxRows).map (FrontendMessage.execute _))).ends
  | sync => rfl
  | flush => rfl
  | close kind name => exact (gives_target .close kind h).ends
  | terminate => rfl
  | saslInitialResponse response =>
      obtain rfl : AuthPhase.saslInitial = phase := hphase rfl
      exact ((gives_saslInitialResponse h hfits).map FrontendMessage.saslInitialResponse).ends
  | saslResponse data =>
      obtain rfl : AuthPhase.saslContinue = phase := hphase rfl
      rfl
  | passwordMessage password =>
      obtain rfl : AuthPhase.password = phase := hphase rfl
      exact ((gives_cstr h).map FrontendMessage.passwordMessage).ends
  | copyData data => rfl
  | copyDone => rfl
  | copyFail message => exact ((gives_cstr h).map FrontendMessage.copyFail).ends

/-- The body of a startup message is read back to its end. -/
theorem readStartup_encodeBody {m : StartupMessage} (h : m.Encodable) :
    readStartup m.encodeBody = (.ok m, []) :=
  ((gives_i32 _).bind ((gives_parameters h).map (StartupMessage.mk _))).ends

theorem readSslRequest_body : readSslRequest sslRequestBody = (.ok (), []) :=
  ((gives_i32 sslRequestCode).bind (Gives.pure ())).ends

/-! ## Messages of the server -/

theorem statusFromTag_tag (status : TransactionStatus) :
    TransactionStatus.fromTag status.tag = .ok status := by
  cases status <;> rfl

theorem gives_field {f : FieldDescription} (h : NoNul f.name) : Gives readField f.encode f :=
  (gives_cstr h).bind ((gives_i32 _).bind ((gives_i16 _).bind ((gives_i32 _).bind
    ((gives_i16 _).bind ((gives_i32 _).bind ((gives_i16 f.format).map
      (FieldDescription.mk _ _ _ _ _ _)))))))

theorem gives_salt (salt : Md5Salt) : Gives readSalt salt.bytes salt := by
  intro rest
  have hlen : ¬ (salt.bytes ++ rest).length < 4 := by
    rw [List.length_append, salt.length]
    omega
  have htake : (salt.bytes ++ rest).take 4 = salt.bytes := List.take_left' salt.length
  rw [readSalt, dif_neg hlen, List.drop_left' salt.length]
  simp only [htake]

/-- A column of a row that fits has fewer bytes than the length field can count. -/
theorem column_length {columns : List (Option Bytes)} (hfits : Fits (putCounted putColumn columns))
    {bytes : Bytes} (hmem : some bytes ∈ columns) : bytes.length < 2 ^ 31 := by
  obtain ⟨before, after, rfl⟩ := List.append_of_mem hmem
  simp only [Fits, putCounted, maxFrameLen, putColumn, List.length_append, List.flatMap_append,
    List.flatMap_cons] at hfits
  omega

theorem gives_dataRow {columns : List (Option Bytes)} (hcount : columns.length ≤ maxCount)
    (hfits : Fits (putCounted putColumn columns)) :
    Gives readDataRow (putCounted putColumn columns) columns := by
  refine gives_counted "DataRow" hcount ?_
  intro column hcolumn
  refine gives_column ?_
  intro bytes hbytes
  exact column_length hfits (hbytes ▸ hcolumn)

theorem gives_copyResponse (message : UInt8 → List Int16 → BackendMessage) (format : UInt8)
    {columnFormats : List Int16} (hcount : columnFormats.length ≤ maxCount) :
    Gives (readCopyResponse message) (format :: putCounted putI16 columnFormats)
      (message format columnFormats) :=
  (gives_u8 format).bind ((gives_counted _ hcount fun v _ => gives_i16 v).map (message format))

/-- The body of a message of the server is read back to its end. -/
theorem readBackend_encodeBody {msg : BackendMessage} (h : msg.Encodable)
    (hfits : Fits msg.encodeBody) : readBackend msg.tag msg.encodeBody = (.ok msg, []) := by
  cases msg with
  | authenticationOk => exact ((gives_i32 0).bind (Gives.pure BackendMessage.authenticationOk)).ends
  | authenticationCleartextPassword =>
      exact ((gives_i32 3).bind (Gives.pure BackendMessage.authenticationCleartextPassword)).ends
  | authenticationMd5Password salt =>
      exact ((gives_i32 5).bind
        ((gives_salt salt).map BackendMessage.authenticationMd5Password)).ends
  | authenticationSasl mechanisms =>
      exact ((gives_i32 10).bind
        ((gives_mechanisms h).map BackendMessage.authenticationSasl)).ends
  | authenticationSaslContinue data => exact (gives_i32 11).bind_ends rfl
  | authenticationSaslFinal data => exact (gives_i32 12).bind_ends rfl
  | parameterStatus name value =>
      exact ((gives_cstr h.1).bind
        ((gives_cstr h.2).map (BackendMessage.parameterStatus name))).ends
  | backendKeyData processId secretKey =>
      exact ((gives_i32 processId).bind
        ((gives_i32 secretKey).map (BackendMessage.backendKeyData processId))).ends
  | readyForQuery status =>
      exact ((gives_u8 status.tag).bind
        ((Gives.lift (statusFromTag_tag status)).map BackendMessage.readyForQuery)).ends
  | errorResponse fields => exact ((gives_diagnostics h).map BackendMessage.errorResponse).ends
  | noticeResponse fields => exact ((gives_diagnostics h).map BackendMessage.noticeResponse).ends
  | rowDescription fields =>
      exact ((gives_counted "RowDescription" h.1 fun f hf => gives_field (h.2 f hf)).map
        BackendMessage.rowDescription).ends
  | dataRow columns => exact ((gives_dataRow h hfits).map BackendMessage.dataRow).ends
  | commandComplete tag => exact ((gives_cstr h).map BackendMessage.commandComplete).ends
  | portalSuspended => rfl
  | parseComplete => rfl
  | bindComplete => rfl
  | closeComplete => rfl
  | noData => rfl
  | emptyQueryResponse => rfl
  | copyInResponse format columnFormats =>
      exact (gives_copyResponse .copyInResponse format h).ends
  | copyOutResponse format columnFormats =>
      exact (gives_copyResponse .copyOutResponse format h).ends
  | copyData data => rfl
  | copyDone => rfl

/-! ## Whole messages on the stream -/

/-- The frame of a message of the server. -/
def BackendMessage.encode (msg : BackendMessage) : RawFrame := ⟨msg.tag, msg.encodeBody⟩

/-- Take a frame off the stream and decode its body: the message, what decoding leaves of
the body, and what is left of the stream. -/
def readMessage {α : Type} (decode : UInt8 → Reader α) (bytes : Bytes) :
    Except ProtocolError (Option (α × Bytes)) × Bytes :=
  match readTaggedFrame bytes with
  | (.error e, rest) => (.error e, rest)
  | (.ok none, rest) => (.ok none, rest)
  | (.ok (some frame), rest) =>
      match decode frame.tag frame.body with
      | (.error e, _) => (.error e, rest)
      | (.ok msg, left) => (.ok (some (msg, left)), rest)

/-- The same for a frame without a tag. -/
def readUntagged {α : Type} (decode : Reader α) (bytes : Bytes) :
    Except ProtocolError (α × Bytes) × Bytes :=
  match readStartupBody bytes with
  | (.error e, rest) => (.error e, rest)
  | (.ok body, rest) =>
      match decode body with
      | (.error e, _) => (.error e, rest)
      | (.ok msg, left) => (.ok (msg, left), rest)

theorem readMessage_frame {α : Type} {decode : UInt8 → Reader α} {frame : RawFrame} {msg : α}
    (hfits : Fits frame.body) (h : decode frame.tag frame.body = (.ok msg, [])) (rest : Bytes) :
    readMessage decode (frameTagged frame ++ rest) = (.ok (some (msg, [])), rest) := by
  simp only [readMessage, readTaggedFrame_frame hfits rest, h]

theorem readUntagged_frame {α : Type} {decode : Reader α} {body : Bytes} {msg : α}
    (hfits : Fits body) (h : decode body = (.ok msg, [])) (rest : Bytes) :
    readUntagged decode (frameUntagged body ++ rest) = (.ok (msg, []), rest) := by
  simp only [readUntagged, readStartupBody_frame hfits rest, h]

/-- A message that can be written is read back from its frame: the same message, the
whole body, and the bytes behind the frame left on the stream.  The phase matters for
the messages of the tag `p` only. -/
theorem codec_round_trip (rest : Bytes) :
    (∀ (msg : FrontendMessage) (phase : AuthPhase), (msg.tag = tagPassword → msg.phase = phase) →
      msg.Encodable → Fits msg.encodeBody →
        readMessage (readFrontendIn phase) (frameTagged msg.encode ++ rest) =
          (.ok (some (msg, [])), rest)) ∧
    (∀ msg : BackendMessage, msg.Encodable → Fits msg.encodeBody →
      readMessage readBackend (frameTagged msg.encode ++ rest) = (.ok (some (msg, [])), rest)) ∧
    (∀ m : StartupMessage, m.Encodable → Fits m.encodeBody →
      readUntagged readStartup (frameUntagged m.encodeBody ++ rest) = (.ok (m, []), rest)) ∧
    readUntagged readSslRequest (frameUntagged sslRequestBody ++ rest) = (.ok ((), []), rest) := by
  refine ⟨?_, ?_, ?_, ?_⟩
  · intro msg phase hphase h hfits
    exact readMessage_frame hfits (readFrontendIn_encodeBody hphase h hfits) rest
  · intro msg h hfits
    exact readMessage_frame hfits (readBackend_encodeBody h hfits) rest
  · intro m h hfits
    exact readUntagged_frame hfits (readStartup_encodeBody h) rest
  · exact readUntagged_frame (by decide) readSslRequest_body rest

/-- A first SASL message without data, a row with a NULL and an empty column, and a
startup message. -/
theorem codec_round_trip_login :
    readMessage (readFrontendIn .saslInitial)
        (frameTagged (FrontendMessage.saslInitialResponse ⟨"SCRAM-SHA-256", none⟩).encode ++ [0]) =
      (.ok (some (.saslInitialResponse ⟨"SCRAM-SHA-256", none⟩, [])), [0]) ∧
    readMessage readBackend
        (frameTagged (BackendMessage.dataRow [none, some [], some [0x31]]).encode ++ [0]) =
      (.ok (some (.dataRow [none, some [], some [0x31]], [])), [0]) ∧
    readUntagged readStartup
        (frameUntagged (StartupMessage.mk protocolVersion3 [("user", "")]).encodeBody ++ [0]) =
      (.ok (⟨protocolVersion3, [("user", "")]⟩, []), [0]) := by
  obtain ⟨hfrontend, hbackend, hstartup, -⟩ := codec_round_trip [0]
  have hmechanism : NoNul "SCRAM-SHA-256" := by decide +kernel
  have hparameters : (StartupMessage.mk protocolVersion3 [("user", "")]).Encodable := by
    intro p hp
    obtain rfl := List.mem_singleton.mp hp
    exact ⟨by decide, by decide +kernel, by decide +kernel⟩
  exact ⟨hfrontend _ .saslInitial (fun _ => rfl) hmechanism (by decide +kernel),
    hbackend _ (show 3 ≤ maxCount by decide) (by decide +kernel),
    hstartup _ hparameters (by decide +kernel)⟩

end PgBrakes.Ports.Wire
