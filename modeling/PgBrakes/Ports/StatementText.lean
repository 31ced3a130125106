import Mathlib.Algebra.Ring.Int.Defs
import PgBrakes.Verified.SqlLexer
import PgBrakes.Ports.PgConn

/-!
# A statement and its text

The write is classified from a parse of its text and executed by sending the text
with a `RETURNING` clause behind it.  Here the parser and the server read the same
tokens.  What the parser makes of a list of tokens, and what the server makes of
the tokens of a write and of a `RETURNING` list, is any function; how the server
finds the statement and its clause in the tokens is computed.

## Main results

* `readText_appended` — a text that does not end in a line comment, with a clause
  behind it, is refused or means the same write with the key as its `RETURNING`
  list.
* `readText_commented` — a line comment takes the clause.
-/

namespace PgBrakes.Ports.StatementText

open PgBrakes.Verified.SqlLexer
open PgBrakes.Ports.GuardedApply
open PgBrakes.Ports.SqlAst
open PgBrakes.Ports.DryRun
open PgBrakes.Ports.PgTable
open PgBrakes.Ports.PgConn

/-! ## Clauses -/

/-- An unquoted word of any case. -/
def isWord (keyword : String) : Lexeme → Bool
  | .word text => text.toList.map Char.toLower = keyword.toList
  | _ => false

/-- What stands behind a dot or behind `AS` is a name, also where it is spelled
like a keyword. -/
def expectsName (x : Lexeme) : Bool := x = .symbol '.' || isWord "as" x

/-- What a token opens or closes. -/
def weight (x : Lexeme) : Int :=
  if x = .symbol '(' then 1 else if x = .symbol ')' then -1 else 0

/-- The parentheses left open. -/
def nesting (tokens : List Token) : Int := (tokens.map fun t => weight t.lexeme).sum

def isSemicolon (_ : List Token) (t : Token) : Bool := t.lexeme = .symbol ';'

/-- The keyword of a `RETURNING` clause, behind these tokens. -/
def opensReturning (before : List Token) (t : Token) : Bool :=
  isWord "returning" t.lexeme && decide (nesting before = 0) &&
    !before.head?.any fun last => expectsName last.lexeme

@[simp] theorem nesting_append (l l' : List Token) :
    nesting (l ++ l') = nesting l + nesting l' := by
  simp [nesting]

@[simp] theorem nesting_reverse (l : List Token) : nesting l.reverse = nesting l := by
  simp [nesting, List.sum_reverse]

/-! ## The grammar -/

/-- `RETURNING id`: the key of the written row. -/
def keyOnly : Int → Row → Option Int := fun k _ => some k

/-- What the parser and the server make of tokens. -/
structure Grammar where
  /-- The third-party parser. -/
  statements : List Token → Except String (List Statement)
  /-- What the server makes of a write without its `RETURNING` clause. -/
  body : List Token → Except ServerError ((Int → Row → Bool) × Write)
  /-- What the server makes of the `RETURNING` list of such a write. -/
  list : List Token → List Token → Except ServerError (Int → Row → Option Int)
  /-- No statement ends where a name is expected. -/
  complete : ∀ {tokens stmts t}, statements tokens = .ok stmts → tokens.getLast? = some t →
    expectsName t.lexeme = false
  /-- The key of the target is named `id`: an unqualified `id` is the key, or is refused. -/
  list_word : ∀ {body f}, list body [⟨.blank, .word "id"⟩] = .ok f → f = keyOnly
  list_quoted : ∀ {body f}, list body [⟨.blank, .quoted "id"⟩] = .ok f → f = keyOnly

namespace Grammar

def syntaxError : ServerError := .other "syntax error"

/-- A write without its `RETURNING` clause. -/
def readBody (g : Grammar) (body : List Token) :
    Except ServerError ((Int → Row → Bool) × Write) :=
  if body.isEmpty || decide (nesting body ≠ 0) then .error syntaxError else g.body body

/-- One statement. -/
def readStatement (g : Grammar) (tokens : List Token) : Except ServerError Meaning :=
  match parts opensReturning tokens with
  | [body] =>
      match g.readBody body with
      | .error e => .error e
      | .ok write => .ok ⟨write.1, write.2, none⟩
  | [body, list] =>
      if nesting list ≠ 0 then .error syntaxError
      else
        match g.readBody body with
        | .error e => .error e
        | .ok write =>
            match g.list body list with
            | .error e => .error e
            | .ok f => .ok ⟨write.1, write.2, some f⟩
  | _ => .error syntaxError

/-- The tokens of a text: one statement, between semicolons. -/
def readTokens (g : Grammar) (tokens : List Token) : Except ServerError Meaning :=
  match (parts isSemicolon tokens).filter fun part => !part.isEmpty with
  | [one] => g.readStatement one
  | _ => .error (.other "cannot insert multiple commands into a prepared statement")

/-- What the server makes of a text. -/
def readText (g : Grammar) (text : String) : Except ServerError Meaning :=
  match lex text with
  | none => .error (.other "unterminated quoted string or comment")
  | some tokens => g.readTokens tokens

/-- The parser of this grammar. -/
@[reducible] def sql (g : Grammar) (names : Sql) : Sql :=
  { names with
    parseSql := fun text =>
      match lex text with
      | none => .error "Unterminated string literal or comment"
      | some tokens => g.statements tokens }

/-- A server with this grammar. -/
def server (g : Grammar) (base : Server) : Server := { base with meaning := g.readText }

/-- The tokens of a text that was classified. -/
theorem lex_of_classify {g : Grammar} {names : Sql} {text : String}
    {target : WriteKind × String}
    (h : letI := g.sql names; classify text = .ok target) :
    ∃ tokens, lex text = some tokens ∧
      ∀ t, tokens.getLast? = some t → expectsName t.lexeme = false := by
  let _ := g.sql names
  obtain ⟨stmts, hparse⟩ := parsed_of_classify h
  simp only [Sql.parseSql] at hparse
  split at hparse
  · cases hparse
  next tokens hlex => exact ⟨tokens, hlex, fun t ht => g.complete hparse ht⟩

end Grammar

/-! ## The appended clause -/

/-- The keyword that is appended. -/
def appended (gap : Gap) : Token := ⟨gap, .word "RETURNING"⟩

/-- A token that neither cuts nor nests. -/
structure Plain (t : Token) : Prop where
  semicolon : t.lexeme ≠ .symbol ';'
  returning : isWord "returning" t.lexeme = false
  weight : weight t.lexeme = 0

section Append

variable {g : Grammar} {gap : Gap} {t : Token} {tokens : List Token} {m : Meaning}

theorem isWord_appended : isWord "returning" (appended gap).lexeme = true := rfl

theorem nesting_appended (ht : Plain t) : nesting [appended gap, t] = 0 := by
  have hword : weight (appended gap).lexeme = 0 := rfl
  simp [nesting, hword, ht.weight]

theorem opensReturning_plain (ht : Plain t) (before : List Token) :
    opensReturning before t = false := by
  simp [opensReturning, ht.returning]

/-- Behind a complete part the appended keyword opens a clause. -/
theorem opensReturning_appended (hclosed : nesting (cutting opensReturning tokens).2 = 0)
    (hlast : ∀ a, tokens.getLast? = some a → expectsName a.lexeme = false) :
    opensReturning (cutting opensReturning tokens).2 (appended gap) = true := by
  have hname : (cutting opensReturning tokens).2.head?.any
      (fun last => expectsName last.lexeme) = false := by
    rcases hhead : (cutting opensReturning tokens).2.head? with _ | a
    · rfl
    · exact hlast a (getLast?_of_cutting hhead)
  rw [opensReturning, isWord_appended, hname]
  simp [hclosed]

/-- Behind an open parenthesis the statement is refused. -/
private theorem readStatement_open (ht : Plain t)
    (hopen : nesting (cutting opensReturning tokens).2 ≠ 0) :
    g.readStatement (tokens ++ [appended gap, t]) = .error Grammar.syntaxError := by
  have hkept : opensReturning (cutting opensReturning tokens).2 (appended gap) = false := by
    simp [opensReturning, hopen]
  have hparts := parts_concat_kept hkept (opensReturning_plain ht _)
  have hnesting : nesting ((cutting opensReturning tokens).2.reverse ++ [appended gap, t]) ≠
      0 := by
    rw [nesting_append, nesting_reverse, nesting_appended ht]
    omega
  unfold Grammar.readStatement
  rw [hparts]
  rcases (cutting opensReturning tokens).1.reverse with _ | ⟨body, _ | ⟨list, rest⟩⟩
  · simp only [List.nil_append, Grammar.readBody, hnesting, ne_eq, not_false_eq_true,
      decide_true, Bool.or_true, if_true]
  · simp only [List.cons_append, List.nil_append]
    rw [if_pos hnesting]
  · rcases rest with _ | ⟨third, rest⟩
    · rfl
    · rfl

/-- A clause behind one statement is refused, or is the clause of the same
write. -/
theorem readStatement_appended (ht : Plain t)
    (hlist : ∀ {body f}, g.list body [t] = .ok f → f = keyOnly)
    (hlast : ∀ a, tokens.getLast? = some a → expectsName a.lexeme = false)
    (h : g.readStatement (tokens ++ [appended gap, t]) = .ok m) :
    ∃ own, g.readStatement tokens = .ok own ∧ m = { own with returning := some keyOnly } := by
  by_cases hopen : nesting (cutting opensReturning tokens).2 = 0
  swap
  · rw [readStatement_open ht hopen] at h
    cases h
  unfold Grammar.readStatement at h ⊢
  rw [parts_concat_cut (opensReturning_appended hopen hlast) (opensReturning_plain ht _)] at h
  rcases hparts : parts opensReturning tokens with _ | ⟨body, _ | ⟨list, rest⟩⟩
  · simp [parts] at hparts
  · rw [hparts] at h
    simp only [List.cons_append, List.nil_append] at h
    have hplain : nesting [t] = 0 := by
      simp [nesting, ht.weight]
    rw [if_neg (not_not.mpr hplain)] at h
    split at h
    · cases h
    next write hwrite =>
      split at h
      · cases h
      next f hf =>
        cases h
        simp only [hwrite]
        exact ⟨_, rfl, by rw [hlist hf]⟩
  · -- the statement has a clause already
    rw [hparts] at h
    rcases rest with _ | ⟨third, rest⟩
    · cases h
    · cases h

/-- A clause behind the tokens of a text is refused, or is the clause of the same
write. -/
theorem readTokens_appended (ht : Plain t)
    (hlist : ∀ {body f}, g.list body [t] = .ok f → f = keyOnly)
    (hlast : ∀ a, tokens.getLast? = some a → expectsName a.lexeme = false)
    (h : g.readTokens (tokens ++ [appended gap, t]) = .ok m) :
    ∃ own, g.readTokens tokens = .ok own ∧ m = { own with returning := some keyOnly } := by
  have hkeyword : isSemicolon (cutting isSemicolon tokens).2 (appended gap) = false := rfl
  have hname : isSemicolon (appended gap :: (cutting isSemicolon tokens).2) t = false := by
    simpa [isSemicolon] using ht.semicolon
  unfold Grammar.readTokens at h ⊢
  rw [parts_concat_kept hkeyword hname, List.filter_append] at h
  rw [parts, List.filter_append]
  rcases hbefore : (cutting isSemicolon tokens).1.reverse.filter fun part => !part.isEmpty with
    _ | ⟨first, rest⟩
  swap
  · -- a semicolon has ended a statement, and the clause would be another
    rw [hbefore] at h
    rcases rest with _ | ⟨second, rest⟩
    · simp at h
    · simp at h
  rw [hbefore] at h
  have hone : [(cutting isSemicolon tokens).2.reverse ++ [appended gap, t]].filter
      (fun part => !part.isEmpty) = [(cutting isSemicolon tokens).2.reverse ++
        [appended gap, t]] := by
    simp
  rw [hone] at h
  simp only [List.nil_append] at h ⊢
  have hend : ∀ a, (cutting isSemicolon tokens).2.reverse.getLast? = some a →
      expectsName a.lexeme = false := by
    intro a ha
    rw [List.getLast?_reverse] at ha
    exact hlast a (getLast?_of_cutting ha)
  obtain ⟨own, hown, hm⟩ := readStatement_appended ht hlist hend h
  rcases hq : (cutting isSemicolon tokens).2.reverse with _ | ⟨x, xs⟩
  · rw [hq] at hown
    cases hown
  · rw [hq] at hown
    rw [hbefore]
    exact ⟨own, hown, hm⟩

end Append

/-! ## The two texts that are sent -/

/-- The text `run_forward_capturing_pks` sends. -/
def rehearsedText (statement : String) (pkCols : List String) : String :=
  statement ++ (" RETURNING " ++
    String.intercalate ", " (pkCols.map fun c => "\"" ++ c ++ "\""))

/-- What the scanner makes of a clause that begins with a blank. -/
structure Clause (clause : String) (t : Token) : Prop where
  blank : clause.toList.head? = some ' '
  oneLine : clause.toList.any isLineEnd = false
  tokens : ∀ tokens gap, ((⟨tokens, gap, .between⟩ : Scanner).scan clause.toList.tail).finish =
    some (tokens.reverse ++ [appended gap, t])

theorem sentClause : Clause " RETURNING id" ⟨.blank, .word "id"⟩ where
  blank := rfl
  oneLine := rfl
  tokens tokens gap := by
    have hscan : (⟨tokens, gap, .between⟩ : Scanner).scan (" RETURNING id" : String).toList.tail =
        ⟨appended gap :: tokens, .blank, .word ['d', 'i']⟩ := rfl
    rw [hscan]
    simp [Scanner.finish, Mode.pending, Scanner.emit, spell]

theorem rehearsedClause : Clause (" RETURNING " ++
    String.intercalate ", " ([keyColumn].map fun c => "\"" ++ c ++ "\""))
    ⟨.blank, .quoted "id"⟩ where
  blank := rfl
  oneLine := rfl
  tokens tokens gap := by
    have hscan : (⟨tokens, gap, .between⟩ : Scanner).scan (" RETURNING " ++
        String.intercalate ", " ([keyColumn].map fun c => "\"" ++ c ++ "\"")).toList.tail =
        ⟨appended gap :: tokens, .blank, .quotedQuote ['d', 'i']⟩ := rfl
    rw [hscan]
    simp [Scanner.finish, Mode.pending, Scanner.emit, spell]

variable {g : Grammar} {text clause : String} {t : Token} {m : Meaning}

/-- A text that does not end in a line comment, with a clause behind it. -/
theorem lex_clause (hclause : Clause clause t) {tokens : List Token}
    (h : lex text = some tokens) (hcomment : ¬ EndsInLineComment text) :
    ∃ gap, lex (text ++ clause) = some (tokens ++ [appended gap, t]) := by
  obtain ⟨gap, hblank⟩ := scan_blank hcomment h
  obtain ⟨rest, hrest⟩ := List.head?_eq_some_iff.mp hclause.blank
  have htokens := hclause.tokens tokens.reverse gap
  rw [hrest, List.tail_cons, List.reverse_reverse] at htokens
  refine ⟨gap, ?_⟩
  rw [lex_append, hrest]
  show (((Scanner.start.scan text.toList).step ' ').scan rest).finish = _
  rw [hblank]
  exact htokens

/-- A line comment takes the clause. -/
theorem readText_commented (hclause : Clause clause t) (hcomment : EndsInLineComment text) :
    g.readText (text ++ clause) = g.readText text := by
  have hlex : lex (text ++ clause) = lex text := by
    rw [lex_append, scan_comment hcomment hclause.oneLine]
    rfl
  unfold Grammar.readText
  rw [hlex]

/-- A clause behind a text that does not end in a line comment is refused, or is
the clause of the same write. -/
theorem readText_appended (hclause : Clause clause t) (ht : Plain t)
    (hlist : ∀ {body f}, g.list body [t] = .ok f → f = keyOnly) {tokens : List Token}
    (hlex : lex text = some tokens)
    (hlast : ∀ a, tokens.getLast? = some a → expectsName a.lexeme = false)
    (hcomment : ¬ EndsInLineComment text) (h : g.readText (text ++ clause) = .ok m) :
    ∃ own, g.readText text = .ok own ∧ m = { own with returning := some keyOnly } := by
  obtain ⟨gap, hsent⟩ := lex_clause hclause hlex hcomment
  unfold Grammar.readText at h ⊢
  rw [hsent] at h
  rw [hlex]
  exact readTokens_appended ht hlist hlast h

end PgBrakes.Ports.StatementText
