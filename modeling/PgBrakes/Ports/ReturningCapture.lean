import PgBrakes.Ports.StatementText
import PgBrakes.Ports.PgApplyRun
import PgBrakes.Ports.RoundTrip

/-!
# The captured rows and the written rows

The apply captures the rows that its write returns, and the write returns rows
through a clause that is pasted behind the text of the statement.  The pasted
clause is the clause of the statement for every text that was classified, except
behind a line comment, which takes it: then the statement runs without a clause,
or with its own.

## Main results

* `captures_iff` — the captured rows are the written rows exactly when the text
  does not end in a line comment, or is refused, or returns its keys itself.
* `commentedRun_not_captured` — an update that commits with an empty inverse.
-/

namespace PgBrakes.Ports.ReturningCapture

open PgBrakes.Verified.Effect
open PgBrakes.Verified.KeyedTable
open PgBrakes.Verified.SqlLexer
open PgBrakes.Ports.KeyChecksum
open PgBrakes.Ports.TypedInverse
open PgBrakes.Ports.BlastRecord
open PgBrakes.Ports.GuardedApply
open PgBrakes.Ports.GuardedApplyRun
open PgBrakes.Ports.SqlAst
open PgBrakes.Ports.DryRun
open PgBrakes.Ports.PgTable
open PgBrakes.Ports.PgConn
open PgBrakes.Ports.PgApplyRun
open PgBrakes.Ports.StatementText

/-! ## What is to hold -/

/-- A text that is sent for a statement is refused, or means the same write with
the key as its `RETURNING` list. -/
def Denotes (g : Grammar) (text sent : String) : Prop :=
  ∀ m, g.readText sent = .ok m →
    ∃ own, g.readText text = .ok own ∧ m = { own with returning := some keyOnly }

/-- The classification of a statement by its text. -/
def classifyText (g : Grammar) (names : Sql) (text : String) :
    Except DryRunError (WriteKind × String) :=
  letI := g.sql names
  classify text

/-- The guarded apply of a statement to a table. -/
def applyText [Sha256] (g : Grammar) (names : Sql) (base : Server) (text whereSql : String)
    (kind : WriteKind) (q : Request) (table : Table) :
    Except ApplyError AppliedWrite × Logged ApplyAdapter ApplyCall :=
  letI := g.sql names
  (invocation (g.server base) text whereSql kind q).run ⟨.new ⟨table, none⟩, []⟩

/-- Both texts that are sent for a statement denote it, and an apply that commits
has captured exactly the rows that the statement itself writes. -/
structure Captures [Sha256] (g : Grammar) (names : Sql) (base : Server) (kind : WriteKind)
    (text : String) : Prop where
  sent : Denotes g text (sentText text)
  rehearsed : Denotes g text (rehearsedText text [keyColumn])
  captured : ∀ whereSql q table applied s',
    applyText g names base text whereSql kind q table = (.ok applied, s') →
    ∃ own, g.readText text = .ok own ∧
      (applied.inverse.rows.map (·.pk)).Perm
        ((selected table own.selects).map fun row => .single (.int row.1))

/-! ## The captured keys -/

/-- A write that returns its keys returns the selected keys, in some order. -/
theorem captured_perm [Sql] {server : Server} {forwardSql : String} {kind : WriteKind}
    {table : Table} {forward : ForwardResult} {imageCols : List String} {m : Meaning}
    {written : Written} {images : Int → Image} {keys : List Int}
    (h : Forwarded server forwardSql kind table forward imageCols m written images keys)
    (hkey : m.returning = some keyOnly) :
    keys.Perm ((selected table m.selects).map Prod.fst) := by
  have hkeys : ∀ rows : List (Int × Row), written.returned = m.returned rows →
      keys = rows.map Prod.fst := by
    intro rows hrows
    have hreturned : m.returned rows = (rows.map Prod.fst).map some := by
      rw [Meaning.returned, hkey, List.map_map]
      rfl
    rw [h.returned, hreturned] at hrows
    exact List.map_injective_iff.mpr (Option.some_injective Int) hrows
  have hscan : (server.scan (selected table m.selects)).Perm (selected table m.selects) :=
    server.scan_perm _
  rcases hwrite : m.write with assignments | _
  · obtain ⟨hnodup, hfree, -, hreturned, -⟩ := Meaning.run_update hwrite h.ran
    have hlanded := hkeys _ hreturned
    rw [← hlanded] at hnodup hfree
    refine landing_perm hnodup ?_ hfree fun k hk => ?_
    · rw [hlanded, List.length_map, List.length_map, hscan.length_eq]
    · obtain ⟨r, hr, -⟩ := h.pictured k hk
      exact ⟨r, hr⟩
  · obtain ⟨-, hreturned, -⟩ := Meaning.run_delete hwrite h.ran
    rw [hkeys _ hreturned]
    exact hscan.map Prod.fst

/-- An apply of a text that denotes its statement captures the rows the statement
writes. -/
theorem captured_of_denotes [Sha256] {g : Grammar} {names : Sql} {base : Server}
    {kind : WriteKind} {text : String} (hsent : Denotes g text (sentText text))
    {whereSql : String} {q : Request} {table : Table} {applied : AppliedWrite}
    {s' : Logged ApplyAdapter ApplyCall}
    (h : applyText g names base text whereSql kind q table = (.ok applied, s')) :
    ∃ own, g.readText text = .ok own ∧
      (applied.inverse.rows.map (·.pk)).Perm
        ((selected table own.selects).map fun row => .single (.int row.1)) := by
  let _ := g.sql names
  obtain ⟨forward, imageCols, m, written, images, keys, predicted, hforward, -, hinverse, -⟩ :=
    apply_ok h
  obtain ⟨own, hown, rfl⟩ := hsent m hforward.meaning
  refine ⟨own, hown, ?_⟩
  have hpks : applied.inverse.rows.map (·.pk) =
      keys.map fun k => PkTuple.single (.int k) := by
    rw [hinverse, inverse_rows hforward, List.map_map]
    rfl
  have hperm := (captured_perm hforward rfl).map fun k => PkTuple.single (.int k)
  rw [hpks]
  rw [List.map_map] at hperm
  exact hperm

/-! ## Exactly when -/

/-- The captured rows of a classified statement are the rows it writes exactly
when its text does not end in a line comment, or is refused by the server, or
returns its keys itself. -/
theorem captures_iff [Sha256] (g : Grammar) (names : Sql) (base : Server) (text : String)
    {target : WriteKind × String} (h : classifyText g names text = .ok target) :
    Captures g names base target.1 text ↔
      (EndsInLineComment text → ∀ own, g.readText text = .ok own →
        own.returning = some keyOnly) := by
  constructor
  · intro hcaptures hcomment own hown
    have hsame : g.readText (sentText text) = .ok own := by
      rw [sentText, readText_commented sentClause hcomment, hown]
    obtain ⟨own', -, hreturning⟩ := hcaptures.sent own hsame
    rw [hreturning]
  · intro hcondition
    obtain ⟨tokens, hlex, hlast⟩ := g.lex_of_classify h
    have hdenotes : ∀ {clause t}, Clause clause t → Plain t →
        (∀ {body f}, g.list body [t] = .ok f → f = keyOnly) →
        Denotes g text (text ++ clause) := by
      intro clause t hclause ht hlist m hm
      by_cases hcomment : EndsInLineComment text
      · rw [readText_commented hclause hcomment] at hm
        refine ⟨m, hm, ?_⟩
        rw [← hcondition hcomment m hm]
      · exact readText_appended hclause ht hlist hlex hlast hcomment hm
    have hsent : Denotes g text (sentText text) :=
      hdenotes sentClause ⟨by decide, by decide, by decide⟩ g.list_word
    refine ⟨hsent, ?_, fun whereSql q table applied s' => captured_of_denotes hsent⟩
    exact hdenotes rehearsedClause ⟨by decide, by decide, by decide⟩ g.list_quoted

/-! ## A comment behind the statement -/

/-- An update of one row. -/
def ownerText : String := "UPDATE public.accounts SET owner = 'x' WHERE id = 1"

/-- The same statement with a comment behind it. -/
def commentedText : String := ownerText ++ " -- ticket 42"

def ownerTokens : List Token := (lex ownerText).getD []

def ownerUpdate : Statement :=
  .update
    { table := ⟨.table [.plain "public", .plain "accounts"], []⟩
      assignments := [⟨.columnName [.plain "owner"], .value "'x'"⟩]
      from? := none
      selection := some (.binaryOp (.identifier (.plain "id")) "=" (.value "1")) }

/-- A parser and a server that know this statement, without a clause and with the
key as its `RETURNING` list. -/
def ownerGrammar : Grammar where
  statements tokens :=
    if tokens = ownerTokens then .ok [ownerUpdate] else .error "sql parser error"
  body tokens :=
    if tokens = ownerTokens then
      .ok (fun k _ => decide (k = 1), .update [⟨"owner", fun _ _ => .image (.text "x")⟩])
    else .error Grammar.syntaxError
  list _ tokens :=
    if tokens = [⟨.blank, .word "id"⟩] ∨ tokens = [⟨.blank, .quoted "id"⟩] then .ok keyOnly
    else .error Grammar.syntaxError
  complete := by
    intro tokens stmts t hok hlast
    have hend : ownerTokens.getLast? = some ⟨.blank, .number "1"⟩ := by decide +kernel
    split at hok
    · next heq =>
        rw [heq, hend] at hlast
        cases hlast
        rfl
    · cases hok
  list_word := by
    intro body f hok
    simpa using hok.symm
  list_quoted := by
    intro body f hok
    simpa using hok.symm

def ownerServer : Server :=
  .knowing RoundTrip.accountsSchema [] [("id = 1", fun k _ => decide (k = 1))]

/-- What the rehearsal of the commented text measured: one updated tuple, and no
returned row. -/
def ownerRequest : Request :=
  { RoundTrip.accountsRequest with
    dryRun := { GuardedApplyAtomicity.twoRowRadius with
      affected :=
        { byTable := .ofList [("public.accounts", 0)]
          cascadeByTable := ∅
          pkSetChecksum := .ofList [("public.accounts", "sha256:00")]
          effectByTable := .ofList [("public.accounts", (⟨0, 1, 0⟩ : OpCounts))]
          totalRows := 0 } }
    cap := { maxRows := 1, maxWalBytes := 0 } }

/-- The apply of a text to two accounts. -/
def ownerRun [Sha256] (text : String) :
    Except ApplyError AppliedWrite × Logged ApplyAdapter ApplyCall :=
  applyText ownerGrammar (.knowing []) ownerServer text "id = 1" .update ownerRequest
    (RoundTrip.twoAccounts 10 20)

/-- The statement without the comment commits, and captures what it writes. -/
theorem captures_iff_owner :
    letI := Sha256.standard
    (ownerRun ownerText).1.isOk = true ∧
      Captures ownerGrammar (.knowing []) ownerServer .update ownerText := by
  let _ := Sha256.standard
  refine ⟨by decide +kernel, ?_⟩
  have hclassify : classifyText ownerGrammar (.knowing []) ownerText =
      .ok (.update, "public.accounts") := by
    decide +kernel
  have hcomment : ¬ EndsInLineComment ownerText := by decide +kernel
  exact (captures_iff ownerGrammar (.knowing []) ownerServer ownerText hclassify).mpr
    fun h => absurd h hcomment

/-- The statement with the comment is classified, commits the update, and has
captured no row. -/
theorem commentedRun_not_captured :
    letI := Sha256.standard
    classifyText ownerGrammar (.knowing []) commentedText = .ok (.update, "public.accounts") ∧
      (∃ applied s', ownerRun commentedText = (.ok applied, s') ∧ applied.inverse.rows = [] ∧
        (s'.world.session.committed[(1 : Int)]?).map (· "owner") =
          some (.image (.text "x"))) ∧
      ¬ Captures ownerGrammar (.knowing []) ownerServer .update commentedText := by
  let _ := Sha256.standard
  have hclassify : classifyText ownerGrammar (.knowing []) commentedText =
      .ok (.update, "public.accounts") := by
    decide +kernel
  have hrun : (match ownerRun commentedText with
      | (.ok applied, s') =>
          some (applied.inverse.rows.isEmpty,
            (s'.world.session.committed[(1 : Int)]?).map (· "owner"))
      | (.error _, _) => none) = some (true, some (.image (.text "x"))) := by
    decide +kernel
  refine ⟨hclassify, ?_, ?_⟩
  · rcases hcase : ownerRun commentedText with ⟨e | applied, s'⟩
    · rw [hcase] at hrun
      cases hrun
    · rw [hcase] at hrun
      simp only [Option.some.injEq, Prod.mk.injEq, List.isEmpty_iff] at hrun
      exact ⟨applied, s', rfl, hrun.1, hrun.2⟩
  · intro hcaptures
    have hnone : (match ownerGrammar.readText (sentText commentedText) with
        | .ok m => some m.returning.isSome
        | .error _ => none) = some false := by
      decide +kernel
    rcases hm : ownerGrammar.readText (sentText commentedText) with e | m
    · rw [hm] at hnone
      cases hnone
    · obtain ⟨own, -, rfl⟩ := hcaptures.sent m hm
      rw [hm] at hnone
      cases hnone

end PgBrakes.Ports.ReturningCapture
