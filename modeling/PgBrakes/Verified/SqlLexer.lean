import Mathlib.Data.List.Induction

/-!
# The words of an SQL text

A scanner for the lexical rules of SQL: words, numbers, quoted names, strings,
dollar-quoted strings, one-character symbols, and the two kinds of comment.  It
reads one character after the other, so that what it makes of a text followed by
another is what it makes of the second from where the first left it.

A token keeps what stood in front of it: nothing, blanks, or a line end.  A
comment is a blank.  An operator of several characters is several symbols with
nothing between them.

## Main results

* `scan_blank` — a blank ends whatever token was being read.
* `scan_comment` — a line comment takes everything up to the end of the line.
* `parts_concat_kept`, `parts_concat_cut` — the parts of a list with two more
  elements.
-/

namespace PgBrakes.Verified.SqlLexer

/-! ## Tokens -/

/-- What separates a token from the one before it. -/
inductive Gap where
  | none
  | blank
  | line
deriving DecidableEq, Repr

inductive Lexeme where
  | word (text : String)
  | number (text : String)
  | quoted (text : String)
  | literal (escapes : Bool) (text : String)
  | dollar (text : String)
  | symbol (c : Char)
deriving DecidableEq, Repr

structure Token where
  gap : Gap
  lexeme : Lexeme
deriving DecidableEq, Repr

/-- What is being read.  Texts are held last character first. -/
inductive Mode where
  | between
  | word (text : List Char)
  | number (text : List Char)
  | dash
  | slash
  | lineComment
  /-- A block comment, the comments around it, and the character before. -/
  | blockComment (depth : Nat) (last : Option Char)
  | literal (escapes : Bool) (text : List Char)
  | literalEscape (text : List Char)
  /-- A quote inside a string: the end, or the first of two. -/
  | literalQuote (escapes : Bool) (text : List Char)
  | quoted (text : List Char)
  | quotedQuote (text : List Char)
  | dollarTag (tag : List Char)
  | dollar (tag text : List Char)
deriving DecidableEq, Repr

/-- The tokens so far, last first, what stood behind the last of them, and what
is being read. -/
structure Scanner where
  tokens : List Token
  gap : Gap
  mode : Mode
deriving DecidableEq, Repr

def Scanner.start : Scanner := ⟨[], .none, .between⟩

/-! ## Scanning -/

def isLineEnd (c : Char) : Bool := c = '\n' || c = '\r'

def isBlank (c : Char) : Bool := c = ' ' || c = '\t' || c = '\x0b' || c = '\x0c'

def startsWord (c : Char) : Bool := c.isAlpha || c = '_' || decide (128 ≤ c.toNat)

def continuesWord (c : Char) : Bool := startsWord c || c.isDigit || c = '$'

def continuesTag (tag : List Char) (c : Char) : Bool :=
  startsWord c || (c.isDigit && !tag.isEmpty)

def spell (text : List Char) : String := String.ofList text.reverse

def Gap.widen : Gap → Gap
  | .none => .blank
  | .blank => .blank
  | .line => .line

/-- A token is complete. -/
def Scanner.emit (s : Scanner) (x : Lexeme) : Scanner := ⟨⟨s.gap, x⟩ :: s.tokens, .none, .between⟩

/-- The tokens that are complete when what is being read ends here; none when it
must not end here. -/
def Mode.pending : Mode → Option (List Lexeme)
  | .between => some []
  | .word text => some [.word (spell text)]
  | .number text => some [.number (spell text)]
  | .dash => some [.symbol '-']
  | .slash => some [.symbol '/']
  | .lineComment => some []
  | .literalQuote escapes text => some [.literal escapes (spell text)]
  | .quotedQuote text => some [.quoted (spell text)]
  | .dollarTag [] => some [.symbol '$']
  | .dollarTag tag => some [.symbol '$', .word (spell tag)]
  | .blockComment _ _ => none
  | .literal _ _ => none
  | .literalEscape _ => none
  | .quoted _ => none
  | .dollar _ _ => none

/-- A character between tokens. -/
def Scanner.open (s : Scanner) (c : Char) : Scanner :=
  if isLineEnd c then { s with gap := .line, mode := .between }
  else if isBlank c then { s with gap := s.gap.widen, mode := .between }
  else if startsWord c then { s with mode := .word [c] }
  else if c.isDigit then { s with mode := .number [c] }
  else if c = '-' then { s with mode := .dash }
  else if c = '/' then { s with mode := .slash }
  else if c = '\'' then { s with mode := .literal false [] }
  else if c = '"' then { s with mode := .quoted [] }
  else if c = '$' then { s with mode := .dollarTag [] }
  else s.emit (.symbol c)

/-- What is being read ends in front of a character. -/
def Scanner.close (s : Scanner) (c : Char) : Scanner :=
  ((s.mode.pending.getD []).foldl Scanner.emit s).open c

/-- One character. -/
def Scanner.step (s : Scanner) (c : Char) : Scanner :=
  match s.mode with
  | .between => s.open c
  | .word text =>
      if continuesWord c then { s with mode := .word (c :: text) }
      else if c = '\'' && (text = ['e'] || text = ['E']) then { s with mode := .literal true [] }
      else s.close c
  | .number text =>
      if continuesWord c || c = '.' then { s with mode := .number (c :: text) } else s.close c
  | .dash => if c = '-' then { s with mode := .lineComment } else s.close c
  | .slash => if c = '*' then { s with mode := .blockComment 0 none } else s.close c
  | .lineComment => if isLineEnd c then { s with gap := .line, mode := .between } else s
  | .blockComment depth last =>
      if last = some '/' ∧ c = '*' then { s with mode := .blockComment (depth + 1) none }
      else if last = some '*' ∧ c = '/' then
        match depth with
        | 0 => { s with gap := s.gap.widen, mode := .between }
        | depth + 1 => { s with mode := .blockComment depth none }
      else { s with mode := .blockComment depth (some c) }
  | .literal escapes text =>
      if c = '\'' then { s with mode := .literalQuote escapes text }
      else if c = '\\' && escapes then { s with mode := .literalEscape text }
      else { s with mode := .literal escapes (c :: text) }
  | .literalEscape text => { s with mode := .literal true (c :: '\\' :: text) }
  | .literalQuote escapes text =>
      if c = '\'' then { s with mode := .literal escapes (c :: text) } else s.close c
  | .quoted text =>
      if c = '"' then { s with mode := .quotedQuote text }
      else { s with mode := .quoted (c :: text) }
  | .quotedQuote text =>
      if c = '"' then { s with mode := .quoted (c :: text) } else s.close c
  | .dollarTag tag =>
      if c = '$' then { s with mode := .dollar tag [] }
      else if continuesTag tag c then { s with mode := .dollarTag (c :: tag) }
      else s.close c
  | .dollar tag text =>
      if c = '$' && (tag ++ ['$']).isPrefixOf text then
        s.emit (.dollar (spell (text.drop (tag.length + 1))))
      else { s with mode := .dollar tag (c :: text) }

/-- Where a text leaves the scanner. -/
def Scanner.scan (s : Scanner) (text : List Char) : Scanner := text.foldl Scanner.step s

/-- The tokens of a text that ends here. -/
def Scanner.finish (s : Scanner) : Option (List Token) :=
  s.mode.pending.map fun pending => (pending.foldl Scanner.emit s).tokens.reverse

/-- The tokens of a text; none where a string, a quoted name or a block comment is
left open. -/
def lex (text : String) : Option (List Token) := (Scanner.start.scan text.toList).finish

/-- The text ends inside a comment that only the end of the line ends. -/
def EndsInLineComment (text : String) : Prop :=
  (Scanner.start.scan text.toList).mode = .lineComment

instance (text : String) : Decidable (EndsInLineComment text) := by
  unfold EndsInLineComment
  infer_instance

theorem lex_append (text more : String) :
    lex (text ++ more) = ((Scanner.start.scan text.toList).scan more.toList).finish := by
  unfold lex Scanner.scan
  rw [String.toList_append, List.foldl_append]

/-! ## Ending a token -/

/-- A blank continues nothing that may end in front of it, except a line
comment. -/
theorem step_blank {s : Scanner} {pending : List Lexeme} (hmode : s.mode ≠ .lineComment)
    (h : s.mode.pending = some pending) : s.step ' ' = s.close ' ' := by
  obtain ⟨tokens, gap, mode⟩ := s
  cases mode with
  | between => rfl
  | word text => rfl
  | number text => rfl
  | dash => rfl
  | slash => rfl
  | lineComment => exact absurd rfl hmode
  | blockComment depth last => cases h
  | literal escapes text => cases h
  | literalEscape text => cases h
  | literalQuote escapes text => rfl
  | quoted text => cases h
  | quotedQuote text => rfl
  | dollarTag tag => cases tag <;> rfl
  | dollar tag text => cases h

/-- A blank ends whatever token is being read, and its tokens are the tokens of
the text so far. -/
theorem scan_blank {s : Scanner} {tokens : List Token} (hmode : s.mode ≠ .lineComment)
    (h : s.finish = some tokens) : ∃ gap, s.step ' ' = ⟨tokens.reverse, gap, .between⟩ := by
  obtain ⟨pending, hpending, htokens⟩ := Option.map_eq_some_iff.mp h
  refine ⟨(pending.foldl Scanner.emit s).gap.widen, ?_⟩
  rw [step_blank hmode hpending, Scanner.close, hpending, ← htokens, List.reverse_reverse]
  rfl

/-- A line comment takes everything up to the end of the line. -/
theorem scan_comment {s : Scanner} (hmode : s.mode = .lineComment) {text : List Char}
    (h : text.any isLineEnd = false) : s.scan text = s := by
  induction text with
  | nil => rfl
  | cons c text ih =>
      rw [List.any_cons, Bool.or_eq_false_iff] at h
      have hfirst : s.step c = s := by
        unfold Scanner.step
        rw [hmode]
        simp [h.1]
      show (s.step c).scan text = s
      rw [hfirst]
      exact ih h.2

/-! ## Cutting a list -/

section Cut

variable {α : Type} (isCut : List α → α → Bool)

/-- One element: it cuts, or joins the part that is open.  What is cut off comes
last part first, and the open part last element first. -/
def cutStep (s : List (List α) × List α) (a : α) : List (List α) × List α :=
  if isCut s.2 a then (s.2.reverse :: s.1, []) else (s.1, a :: s.2)

/-- The parts that were cut off, and the one that is open. -/
def cutting (l : List α) : List (List α) × List α := l.foldl (cutStep isCut) ([], [])

/-- The parts of a list, without the elements that cut it. -/
def parts (l : List α) : List (List α) :=
  (cutting isCut l).1.reverse ++ [(cutting isCut l).2.reverse]

variable {isCut}

theorem cutting_concat (l : List α) (a : α) :
    cutting isCut (l ++ [a]) = cutStep isCut (cutting isCut l) a := by
  unfold cutting
  rw [List.foldl_append]
  rfl

/-- Two more elements that do not cut join the last part. -/
theorem parts_concat_kept {l : List α} {a b : α} (ha : isCut (cutting isCut l).2 a = false)
    (hb : isCut (a :: (cutting isCut l).2) b = false) :
    parts isCut (l ++ [a, b]) =
      (cutting isCut l).1.reverse ++ [(cutting isCut l).2.reverse ++ [a, b]] := by
  have hpair : l ++ [a, b] = l ++ [a] ++ [b] := by simp
  have hfirst : cutting isCut (l ++ [a]) = ((cutting isCut l).1, a :: (cutting isCut l).2) := by
    rw [cutting_concat, cutStep, ha]
    rfl
  have hsecond : cutting isCut (l ++ [a, b]) =
      ((cutting isCut l).1, b :: a :: (cutting isCut l).2) := by
    rw [hpair, cutting_concat, hfirst, cutStep, hb]
    rfl
  unfold parts
  rw [hsecond]
  simp

/-- An element that cuts and one that does not are a part of their own. -/
theorem parts_concat_cut {l : List α} {a b : α} (ha : isCut (cutting isCut l).2 a = true)
    (hb : isCut [] b = false) : parts isCut (l ++ [a, b]) = parts isCut l ++ [[b]] := by
  have hpair : l ++ [a, b] = l ++ [a] ++ [b] := by simp
  have hfirst : cutting isCut (l ++ [a]) =
      ((cutting isCut l).2.reverse :: (cutting isCut l).1, []) := by
    rw [cutting_concat, cutStep, ha]
    rfl
  have hsecond : cutting isCut (l ++ [a, b]) =
      ((cutting isCut l).2.reverse :: (cutting isCut l).1, [b]) := by
    rw [hpair, cutting_concat, hfirst, cutStep, hb]
    rfl
  unfold parts
  rw [hsecond]
  simp

/-- The last element of the open part is the last of the list. -/
theorem getLast?_of_cutting {l : List α} {a : α} (h : (cutting isCut l).2.head? = some a) :
    l.getLast? = some a := by
  induction l using List.reverseRecOn with
  | nil => cases h
  | append_singleton l b _ =>
      rw [cutting_concat, cutStep] at h
      split at h
      · cases h
      · rw [List.getLast?_concat]
        exact h

end Cut

end PgBrakes.Verified.SqlLexer
