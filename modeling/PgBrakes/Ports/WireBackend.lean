import PgBrakes.Ports.WireBuf

/-!
# Messages from the server

The bodies of the server's messages that the proxy reads or writes itself: result
rows, diagnostics and the end of a unit.  Every other message is a frame that the
proxy passes on by its tag.
-/

namespace PgBrakes.Ports.Wire

open PgBrakes.Verified.Effect

/-! ## Tags -/

def tagReadyForQuery : UInt8 := 0x5A
def tagErrorResponse : UInt8 := 0x45
def tagDataRow : UInt8 := 0x44
def tagCommandComplete : UInt8 := 0x43
def tagParseComplete : UInt8 := 0x31
def tagBindComplete : UInt8 := 0x32
def tagCloseComplete : UInt8 := 0x33
def tagNoData : UInt8 := 0x6E
def tagBackendCopyData : UInt8 := 0x64
def tagBackendCopyDone : UInt8 := 0x63
def tagCopyInResponse : UInt8 := 0x47
def tagCopyOutResponse : UInt8 := 0x48
def tagCopyBothResponse : UInt8 := 0x57

/-- The frame starts a COPY. -/
def backendStartsCopy (frame : RawFrame) : Bool :=
  frame.tag = tagCopyInResponse || frame.tag = tagCopyOutResponse ||
    frame.tag = tagCopyBothResponse

/-! ## Rows and diagnostics -/

/-- A column: a length and that many bytes, or a negative length for NULL. -/
def readColumn : Reader (Option Bytes) := do
  let len ← getI32
  if len < 0 then pure none
  else do
    let bytes ← getBytes len.toInt.toNat
    pure (some bytes)

/-- The columns of a row. -/
def readDataRow : Reader (List (Option Bytes)) := do
  let n ← getI16
  if n < 0 then Eff.fail (.malformed "DataRow: negative count")
  else getMany readColumn n.toInt.toNat

/-- The fields of an error or a notice, up to the terminator.  A field takes two
bytes at least, so the length of the body bounds their number. -/
def readDiagnosticsWithin : Nat → Reader (List (UInt8 × String))
  | 0 => Eff.fail (.malformed "unexpected end of message")
  | n + 1 => do
      let code ← getU8
      if code = 0 then pure []
      else do
        let value ← getCstr
        let fields ← readDiagnosticsWithin n
        pure ((code, value) :: fields)

def readDiagnostics : Reader (List (UInt8 × String)) := fun bytes =>
  readDiagnosticsWithin bytes.length bytes

/-- The state of the transaction at the end of a unit. -/
inductive TransactionStatus where
  | idle
  | inTransaction
  | failed

def TransactionStatus.tag : TransactionStatus → UInt8
  | .idle => 0x49
  | .inTransaction => 0x54
  | .failed => 0x45

/-- The frame of `ReadyForQuery`. -/
def readyForQuery (status : TransactionStatus) : RawFrame := ⟨tagReadyForQuery, [status.tag]⟩

/-- The frame of an error with its severity, code and message. -/
def errorResponse (code message : String) : RawFrame :=
  ⟨tagErrorResponse,
    (0x53 :: putCstr "ERROR") ++ (0x56 :: putCstr "ERROR") ++ (0x43 :: putCstr code) ++
      (0x4D :: putCstr message) ++ [0]⟩

/-- The text of diagnostics: the message and the code. -/
def diag (fields : List (UInt8 × String)) : String :=
  (fields.lookup 0x4D).getD "?" ++ " (" ++ (fields.lookup 0x43).getD "?" ++ ")"

/-! ## Bytes that may not be text -/

/-- A continuation byte. -/
def isContinuation (b : UInt8) : Bool := 0x80 ≤ b && b ≤ 0xBF

/-- The second bytes that may follow the first byte of a longer character. -/
def secondAllowed (first second : UInt8) : Bool :=
  if first = 0xE0 then 0xA0 ≤ second && second ≤ 0xBF
  else if first = 0xED then 0x80 ≤ second && second ≤ 0x9F
  else if first = 0xF0 then 0x90 ≤ second && second ≤ 0xBF
  else if first = 0xF4 then 0x80 ≤ second && second ≤ 0x8F
  else isContinuation second

/-- The character at the start of the bytes and the number of bytes it takes.  Where
there is none, the replacement character takes the longest start of one. -/
def firstChar : Bytes → Char × Nat
  | [] => ('\uFFFD', 1)
  | a :: rest =>
      if a < 0x80 then (Char.ofNat a.toNat, 1)
      else if 0xC2 ≤ a && a ≤ 0xDF then
        match rest with
        | b :: _ =>
            if isContinuation b then
              (Char.ofNat ((a.toNat - 0xC0) * 64 + (b.toNat - 0x80)), 2)
            else ('\uFFFD', 1)
        | [] => ('\uFFFD', 1)
      else if 0xE0 ≤ a && a ≤ 0xEF then
        match rest with
        | b :: c :: _ =>
            if !secondAllowed a b then ('\uFFFD', 1)
            else if isContinuation c then
              (Char.ofNat (((a.toNat - 0xE0) * 64 + (b.toNat - 0x80)) * 64 + (c.toNat - 0x80)), 3)
            else ('\uFFFD', 2)
        | [b] => if secondAllowed a b then ('\uFFFD', 2) else ('\uFFFD', 1)
        | [] => ('\uFFFD', 1)
      else if 0xF0 ≤ a && a ≤ 0xF4 then
        match rest with
        | b :: c :: d :: _ =>
            if !secondAllowed a b then ('\uFFFD', 1)
            else if !isContinuation c then ('\uFFFD', 2)
            else if isContinuation d then
              (Char.ofNat ((((a.toNat - 0xF0) * 64 + (b.toNat - 0x80)) * 64 +
                (c.toNat - 0x80)) * 64 + (d.toNat - 0x80)), 4)
            else ('\uFFFD', 3)
        | [b, c] =>
            if !secondAllowed a b then ('\uFFFD', 1)
            else if isContinuation c then ('\uFFFD', 3) else ('\uFFFD', 2)
        | [b] => if secondAllowed a b then ('\uFFFD', 2) else ('\uFFFD', 1)
        | [] => ('\uFFFD', 1)
      else ('\uFFFD', 1)

def lossyChars : Nat → Bytes → List Char
  | 0, _ => []
  | _ + 1, [] => []
  | n + 1, b :: bytes =>
      (firstChar (b :: bytes)).1 :: lossyChars n ((b :: bytes).drop (firstChar (b :: bytes)).2)

/-- The bytes as text, with the replacement character for what is not UTF-8. -/
def fromUtf8Lossy (bytes : Bytes) : String := .ofList (lossyChars bytes.length bytes)

end PgBrakes.Ports.Wire
