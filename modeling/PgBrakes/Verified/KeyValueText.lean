import Mathlib.Algebra.GroupWithZero.Nat

/-!
# Keyword/value texts

A connection string is a row of `keyword=value` pairs with white space between
them.  A value may stand between single quotes; a backslash takes the character
behind it as it is, inside quotes and outside.  White space around the equals
sign is skipped, so an empty value takes what follows for its own.

`scan` reads such a text one character after the other.  Nothing in it adds to a
text: what it returns is never longer than what it read, and every quote, escape
and skipped blank makes it shorter.  A text that was put together without any of
them comes back unchanged only if none of its characters was taken for one.

## Main results

* `weight_le` — the pairs that were read, written out again, are no longer than
  the text.
* `scan_render_iff` — the pairs that come back when they are written side by side
  without quoting.
-/

namespace PgBrakes.Verified.KeyValueText

/-- A keyword and its value. -/
abbrev Pair := List Char × List Char

/-- `isspace` in the C locale. -/
def isSpace (c : Char) : Bool :=
  c = ' ' || c = '\t' || c = '\n' || c = '\x0b' || c = '\x0c' || c = '\r'

/-- What is being read. -/
inductive Mode where
  | between
  | key (k : List Char)
  /-- Behind a keyword, in front of the equals sign. -/
  | gap (k : List Char)
  /-- Behind the equals sign, in front of the value. -/
  | before (k : List Char)
  | plain (k v : List Char)
  | escape (k v : List Char)
  | quoted (k v : List Char)
  | quotedEscape (k v : List Char)

/-- One character: the pair that is complete with it, and what is read next. -/
def step : Mode → Char → Option (Option Pair × Mode)
  | .between, c =>
      if isSpace c then some (none, .between)
      else if c = '=' then some (none, .before [])
      else some (none, .key [c])
  | .key k, c =>
      if c = '=' then some (none, .before k)
      else if isSpace c then some (none, .gap k)
      else some (none, .key (k ++ [c]))
  | .gap k, c =>
      if isSpace c then some (none, .gap k)
      else if c = '=' then some (none, .before k)
      else none
  | .before k, c =>
      if isSpace c then some (none, .before k)
      else if c = '\'' then some (none, .quoted k [])
      else if c = '\\' then some (none, .escape k [])
      else some (none, .plain k [c])
  | .plain k v, c =>
      if isSpace c then some (some (k, v), .between)
      else if c = '\\' then some (none, .escape k v)
      else some (none, .plain k (v ++ [c]))
  | .escape k v, c => some (none, .plain k (v ++ [c]))
  | .quoted k v, c =>
      if c = '\\' then some (none, .quotedEscape k v)
      else if c = '\'' then some (some (k, v), .between)
      else some (none, .quoted k (v ++ [c]))
  | .quotedEscape k v, c => some (none, .quoted k (v ++ [c]))

/-- The pairs that are complete when the text ends here; none when it must not. -/
def finish : Mode → Option (List Pair)
  | .between => some []
  | .before k => some [(k, [])]
  | .plain k v => some [(k, v)]
  | .escape k v => some [(k, v)]
  | .key _ => none
  | .gap _ => none
  | .quoted _ _ => none
  | .quotedEscape _ _ => none

def scan : Mode → List Char → Option (List Pair)
  | m, [] => finish m
  | m, c :: cs =>
      match step m c with
      | none => none
      | some (done, m') => (scan m' cs).map (done.toList ++ ·)

/-- The pairs of a whole text. -/
def pairs (cs : List Char) : Option (List Pair) := scan .between cs

/-- The pairs side by side, with a blank between them and no quoting. -/
def render : List Pair → List Char
  | [] => []
  | [(k, v)] => k ++ '=' :: v
  | (k, v) :: p :: ps => k ++ '=' :: (v ++ ' ' :: render (p :: ps))

/-! ## Nothing is added -/

/-- The length of the pairs written side by side, and one more. -/
def weight (ps : List Pair) : Nat := (ps.map fun p => p.1.length + p.2.length + 2).sum

/-- The length of what has been read of a pair. -/
def Mode.held : Mode → Nat
  | .between => 0
  | .key k => k.length
  | .gap k => k.length
  | .before k => k.length + 1
  | .plain k v => k.length + v.length + 1
  | .escape k v => k.length + v.length + 1
  | .quoted k v => k.length + v.length + 1
  | .quotedEscape k v => k.length + v.length + 1

@[simp] theorem weight_nil : weight [] = 0 := rfl

@[simp] theorem weight_cons (p : Pair) (ps : List Pair) :
    weight (p :: ps) = p.1.length + p.2.length + 2 + weight ps := by
  simp [weight]

theorem length_render : ∀ {ps : List Pair}, ps ≠ [] → (render ps).length + 1 = weight ps
  | [], h => absurd rfl h
  | [(k, v)], _ => by
      simp only [render, List.length_append, List.length_cons, weight_cons, weight_nil]
      omega
  | (k, v) :: p :: ps, _ => by
      have ih := length_render (List.cons_ne_nil p ps)
      rw [weight_cons, ← ih]
      simp only [render, List.length_append, List.length_cons]
      omega

/-- One character adds at most one. -/
theorem step_held {m m' : Mode} {c : Char} {done : Option Pair}
    (h : step m c = some (done, m')) : weight done.toList + m'.held ≤ m.held + 1 := by
  cases m
  all_goals
    simp only [step] at h
    repeat' split at h
    all_goals
      cases h
      try simp only [Option.toList_none, Option.toList_some, weight_nil, weight_cons, Mode.held,
        List.length_append, List.length_cons, List.length_nil]
      try omega

theorem finish_held {m : Mode} {ps : List Pair} (h : finish m = some ps) :
    weight ps ≤ m.held + 1 := by
  cases m
  all_goals
    cases h
    try simp only [weight_nil, weight_cons, Mode.held, List.length_nil]
    try omega

theorem weight_append (ps qs : List Pair) : weight (ps ++ qs) = weight ps + weight qs := by
  simp [weight]

/-- What a text continues as: its first character, and the pairs behind it. -/
theorem scan_cons {m : Mode} {c : Char} {cs : List Char} {ps : List Pair}
    (h : scan m (c :: cs) = some ps) : ∃ done m' qs,
      step m c = some (done, m') ∧ scan m' cs = some qs ∧ ps = done.toList ++ qs := by
  rw [scan] at h
  split at h
  · cases h
  · next done m' hstep =>
      obtain ⟨qs, hqs, rfl⟩ := Option.map_eq_some_iff.mp h
      exact ⟨done, m', qs, hstep, hqs, rfl⟩

/-- What was read weighs no more than what was there. -/
theorem weight_le {cs : List Char} : ∀ {m : Mode} {ps : List Pair}, scan m cs = some ps →
    weight ps ≤ m.held + cs.length + 1 := by
  induction cs with
  | nil =>
      intro m ps h
      exact finish_held h
  | cons c cs ih =>
      intro m ps h
      obtain ⟨done, m', qs, hstep, hqs, rfl⟩ := scan_cons h
      have hone := step_held hstep
      have hrest := ih hqs
      rw [weight_append, List.length_cons]
      omega

/-! ## Reading back -/

/-- A keyword: not empty, without blanks and equals signs. -/
structure IsKeyword (k : List Char) : Prop where
  nonempty : k ≠ []
  chars : ∀ c ∈ k, isSpace c = false ∧ c ≠ '='

/-- A value that stands for itself: without blanks and backslashes, and not
beginning with a quote. -/
structure IsPlain (v : List Char) : Prop where
  chars : ∀ c ∈ v, isSpace c = false ∧ c ≠ '\\'
  unquoted : v.head? ≠ some '\''

instance (k : List Char) : Decidable (IsKeyword k) :=
  decidable_of_iff (k ≠ [] ∧ (k.all fun c => !isSpace c && c ≠ '=') = true) <| by
    constructor
    · rintro ⟨hne, hall⟩
      exact ⟨hne, fun c hc => by simpa using List.all_eq_true.mp hall c hc⟩
    · intro h
      exact ⟨h.nonempty, List.all_eq_true.mpr fun c hc => by simpa using h.chars c hc⟩

instance (v : List Char) : Decidable (IsPlain v) :=
  decidable_of_iff ((v.all fun c => !isSpace c && c ≠ '\\') = true ∧ v.head? ≠ some '\'') <| by
    constructor
    · rintro ⟨hall, hunquoted⟩
      exact ⟨fun c hc => by simpa using List.all_eq_true.mp hall c hc, hunquoted⟩
    · intro h
      exact ⟨List.all_eq_true.mpr fun c hc => by simpa using h.chars c hc, h.unquoted⟩

/-- Every value is plain, and only the last may be empty. -/
def Readable : List Pair → Prop
  | [] => True
  | [(_, v)] => IsPlain v
  | (_, v) :: p :: ps => v ≠ [] ∧ IsPlain v ∧ Readable (p :: ps)

theorem scan_key {cs : List Char} : ∀ {k k' : List Char},
    (∀ c ∈ k', isSpace c = false ∧ c ≠ '=') →
      scan (.key k) (k' ++ '=' :: cs) = scan (.before (k ++ k')) cs := by
  intro k k'
  induction k' generalizing k with
  | nil =>
      intro _
      simp [scan, step]
  | cons c k' ih =>
      intro h
      obtain ⟨hspace, hequals⟩ := h c List.mem_cons_self
      have hrest := ih (k := k ++ [c]) fun d hd => h d (List.mem_cons_of_mem c hd)
      rw [List.append_assoc] at hrest
      simpa [scan, step, hspace, hequals] using hrest

theorem scan_keyword {k cs : List Char} (hk : IsKeyword k) :
    scan .between (k ++ '=' :: cs) = scan (.before k) cs := by
  cases k with
  | nil => exact absurd rfl hk.nonempty
  | cons c k =>
      obtain ⟨hspace, hequals⟩ := hk.chars c List.mem_cons_self
      have hrest : scan (.key [c]) (k ++ '=' :: cs) = scan (.before ([c] ++ k)) cs :=
        scan_key fun d hd => hk.chars d (List.mem_cons_of_mem c hd)
      simpa [scan, step, hspace, hequals] using hrest

theorem scan_plain {cs : List Char} {k : List Char} : ∀ {w v : List Char},
    (∀ c ∈ w, isSpace c = false ∧ c ≠ '\\') →
      scan (.plain k v) (w ++ cs) = scan (.plain k (v ++ w)) cs := by
  intro w
  induction w with
  | nil =>
      intro v _
      simp
  | cons c w ih =>
      intro v h
      obtain ⟨hspace, hslash⟩ := h c List.mem_cons_self
      have hrest := ih (v := v ++ [c]) fun d hd => h d (List.mem_cons_of_mem c hd)
      rw [List.append_assoc] at hrest
      simpa [scan, step, hspace, hslash] using hrest

/-- A plain value that is not empty is read up to its end. -/
theorem scan_before {k v cs : List Char} (hne : v ≠ []) (hv : IsPlain v) :
    scan (.before k) (v ++ cs) = scan (.plain k v) cs := by
  cases v with
  | nil => exact absurd rfl hne
  | cons c v =>
      obtain ⟨hspace, hslash⟩ := hv.chars c List.mem_cons_self
      have hquote : c ≠ '\'' := fun heq => hv.unquoted (by rw [heq]; rfl)
      have hrest : scan (.plain k [c]) (v ++ cs) = scan (.plain k ([c] ++ v)) cs :=
        scan_plain fun d hd => hv.chars d (List.mem_cons_of_mem c hd)
      simpa [scan, step, hspace, hslash, hquote] using hrest

theorem scan_render : ∀ {ps : List Pair}, (∀ p ∈ ps, IsKeyword p.1) → Readable ps →
    scan .between (render ps) = some ps
  | [], _, _ => rfl
  | [(k, v)], hkeys, hread => by
      rw [render, scan_keyword (hkeys (k, v) List.mem_cons_self)]
      by_cases hne : v = []
      · rw [hne]
        rfl
      · have hend : scan (.before k) (v ++ []) = scan (.plain k v) [] := scan_before hne hread
        rw [List.append_nil] at hend
        rw [hend]
        rfl
  | (k, v) :: p :: ps, hkeys, ⟨hne, hv, hread⟩ => by
      have hrest := scan_render (fun q hq => hkeys q (List.mem_cons_of_mem _ hq)) hread
      rw [render, scan_keyword (hkeys (k, v) List.mem_cons_self), scan_before hne hv, scan]
      show (scan .between (render (p :: ps))).map _ = _
      rw [hrest]
      rfl

/-! ## Only what stands for itself comes back -/

/-- In front of a value, a character that loses nothing begins it. -/
theorem step_before_tight {k : List Char} {c : Char} {done : Option Pair} {m' : Mode}
    (h : step (.before k) c = some (done, m'))
    (htight : weight done.toList + m'.held = (Mode.before k).held + 1) :
    done = none ∧ m' = .plain k [c] ∧ (isSpace c = false ∧ c ≠ '\\') ∧ c ≠ '\'' := by
  simp only [step] at h
  split at h
  · cases h
    simp [Mode.held] at htight
  · next hspace =>
      split at h
      · cases h
        simp [Mode.held] at htight
      · next hquote =>
          split at h
          · cases h
            simp [Mode.held] at htight
          · next hslash =>
              cases h
              exact ⟨rfl, rfl, ⟨by simpa using hspace, hslash⟩, hquote⟩

/-- Inside a value, a character that loses nothing ends it or belongs to it. -/
theorem step_plain_tight {k v : List Char} {c : Char} {done : Option Pair} {m' : Mode}
    (h : step (.plain k v) c = some (done, m'))
    (htight : weight done.toList + m'.held = (Mode.plain k v).held + 1) :
    (isSpace c = true ∧ done = some (k, v) ∧ m' = .between) ∨
      ((isSpace c = false ∧ c ≠ '\\') ∧ done = none ∧ m' = .plain k (v ++ [c])) := by
  simp only [step] at h
  split at h
  · next hspace =>
      cases h
      exact .inl ⟨hspace, rfl, rfl⟩
  · next hspace =>
      split at h
      · cases h
        simp [Mode.held] at htight
      · next hslash =>
          cases h
          exact .inr ⟨⟨by simpa using hspace, hslash⟩, rfl, rfl⟩

/-- Where nothing is lost at all, nothing is lost at the first character or behind
it. -/
theorem scan_cons_tight {m : Mode} {c : Char} {cs : List Char} {ps : List Pair}
    (h : scan m (c :: cs) = some ps) (htight : weight ps = m.held + (c :: cs).length + 1) :
    ∃ done m' qs, step m c = some (done, m') ∧ weight done.toList + m'.held = m.held + 1 ∧
      scan m' cs = some qs ∧ weight qs = m'.held + cs.length + 1 ∧ ps = done.toList ++ qs := by
  obtain ⟨done, m', qs, hstep, hqs, rfl⟩ := scan_cons h
  have hone := step_held hstep
  have hrest := weight_le hqs
  rw [weight_append, List.length_cons] at htight
  exact ⟨done, m', qs, hstep, by omega, hqs, by omega, rfl⟩

/-- A value read without a loss goes up to the first blank or to the end. -/
theorem scan_plain_tight {k cs : List Char} : ∀ {v : List Char} {ps : List Pair},
    scan (.plain k v) cs = some ps → weight ps = (Mode.plain k v).held + cs.length + 1 →
      ∃ w, (∀ c ∈ w, isSpace c = false ∧ c ≠ '\\') ∧
        ((cs = w ∧ ps = [(k, v ++ w)]) ∨
          ∃ blank rest qs, isSpace blank = true ∧ cs = w ++ blank :: rest ∧
            scan .between rest = some qs ∧ ps = (k, v ++ w) :: qs) := by
  induction cs with
  | nil =>
      intro v ps h _
      cases h
      exact ⟨[], by simp, .inl ⟨rfl, by simp⟩⟩
  | cons c cs ih =>
      intro v ps h htight
      obtain ⟨done, m', qs, hstep, hone, hqs, hrest, rfl⟩ := scan_cons_tight h htight
      rcases step_plain_tight hstep hone with ⟨hspace, rfl, rfl⟩ | ⟨hc, rfl, rfl⟩
      · exact ⟨[], by simp, .inr ⟨c, cs, qs, hspace, rfl, hqs, by simp⟩⟩
      · obtain ⟨w, hw, hend⟩ := ih hqs hrest
        rw [List.append_assoc] at hend
        refine ⟨c :: w, List.forall_mem_cons.mpr ⟨hc, hw⟩, ?_⟩
        rcases hend with ⟨rfl, rfl⟩ | ⟨blank, rest, qs', hblank, rfl, hqs', rfl⟩
        · exact .inl ⟨rfl, rfl⟩
        · exact .inr ⟨blank, rest, qs', hblank, rfl, hqs', rfl⟩

/-- A value that comes back as it was written is plain, and what stands behind it
is read as it stands. -/
theorem scan_before_tight {k v tail : List Char} {qs : List Pair}
    (htail : ∀ c ∈ tail.head?, isSpace c = true)
    (h : scan (.before k) (v ++ tail) = some ((k, v) :: qs))
    (htight : weight ((k, v) :: qs) = (Mode.before k).held + (v ++ tail).length + 1) :
    IsPlain v ∧ ((tail = [] ∧ qs = []) ∨
      (v ≠ [] ∧ ∃ blank rest, tail = blank :: rest ∧ scan .between rest = some qs)) := by
  cases v with
  | nil =>
      cases tail with
      | nil =>
          cases h
          exact ⟨⟨by simp, by simp⟩, .inl ⟨rfl, rfl⟩⟩
      | cons c tail =>
          -- An empty value loses the blank behind it.
          obtain ⟨done, m', _, hstep, hone, -⟩ := scan_cons_tight h htight
          obtain ⟨-, -, hc, -⟩ := step_before_tight hstep hone
          rw [htail c rfl] at hc
          cases hc.1
  | cons c v =>
      obtain ⟨done, m', ps, hstep, hone, hps, hrest, heq⟩ := scan_cons_tight h htight
      obtain ⟨rfl, rfl, hc, hquote⟩ := step_before_tight hstep hone
      obtain ⟨w, hw, hend⟩ := scan_plain_tight hps hrest
      have hplain : w = v → IsPlain (c :: v) := by
        rintro rfl
        refine ⟨List.forall_mem_cons.mpr ⟨hc, hw⟩, ?_⟩
        simpa using hquote
      rcases hend with ⟨hall, rfl⟩ | ⟨blank, rest, qs', hblank, hsplit, hqs', rfl⟩
      · simp only [Option.toList_none, List.nil_append, List.cons_append, List.cons.injEq,
          Prod.mk.injEq, true_and] at heq
        obtain ⟨rfl, rfl⟩ := heq
        have hnil : tail = [] := List.append_right_eq_self.mp hall
        exact ⟨hplain rfl, .inl ⟨hnil, rfl⟩⟩
      · simp only [Option.toList_none, List.nil_append, List.cons_append, List.cons.injEq,
          Prod.mk.injEq, true_and] at heq
        obtain ⟨rfl, rfl⟩ := heq
        have hbehind : tail = blank :: rest := List.append_cancel_left hsplit
        exact ⟨hplain rfl, .inr ⟨by simp, blank, rest, hbehind, hqs'⟩⟩

theorem readable_of_scan : ∀ {ps : List Pair}, (∀ p ∈ ps, IsKeyword p.1) →
    scan .between (render ps) = some ps → Readable ps
  | [], _, _ => trivial
  | [(k, v)], hkeys, h => by
      rw [render, scan_keyword (hkeys (k, v) List.mem_cons_self)] at h
      have hbefore : scan (.before k) (v ++ []) = some [(k, v)] := by rw [List.append_nil]; exact h
      refine (scan_before_tight (by simp) hbefore ?_).1
      rw [weight_cons, weight_nil, Mode.held, List.append_nil]
      dsimp only
      omega
  | (k, v) :: p :: ps, hkeys, h => by
      rw [render, scan_keyword (hkeys (k, v) List.mem_cons_self)] at h
      have hlength := length_render (List.cons_ne_nil p ps)
      have htight : weight ((k, v) :: p :: ps) =
          (Mode.before k).held + (v ++ ' ' :: render (p :: ps)).length + 1 := by
        rw [weight_cons, ← hlength, Mode.held, List.length_append, List.length_cons]
        dsimp only
        omega
      obtain ⟨hplain, ⟨hnil, -⟩ | ⟨hne, blank, rest, htail, hrest⟩⟩ :=
        scan_before_tight (by simp [isSpace]) h htight
      · cases hnil
      · cases htail
        have hread := readable_of_scan (fun q hq => hkeys q (List.mem_cons_of_mem _ hq)) hrest
        exact ⟨hne, hplain, hread⟩

/-- Pairs written side by side come back exactly when every value is plain and
only the last is empty. -/
theorem scan_render_iff {ps : List Pair} (hkeys : ∀ p ∈ ps, IsKeyword p.1) :
    pairs (render ps) = some ps ↔ Readable ps :=
  ⟨readable_of_scan hkeys, scan_render hkeys⟩

/-- A text that is too short for the pairs does not have them. -/
theorem pairs_render_ne {ps qs : List Pair} (hps : ps ≠ []) (hlt : weight ps < weight qs) :
    pairs (render ps) ≠ some qs := by
  intro h
  have hle := weight_le h
  rw [Mode.held, Nat.zero_add, length_render hps] at hle
  omega

/-! ## Where a keyword is mentioned -/

/-- A word at the end does not reach across a character it does not have. -/
theorem suffix_of_notMem {m s a as : List Char} {d : Char} (hd : d ∉ m)
    (h : s ++ m = a ++ d :: as) : m <:+ as := by
  have hmem : d :: as <:+ s ++ m := ⟨a, h.symm⟩
  rcases List.suffix_or_suffix_of_suffix hmem (List.suffix_append s m) with hin | hin
  · exact absurd (hin.subset List.mem_cons_self) hd
  · rcases List.suffix_cons_iff.mp hin with heq | hin
    · exact absurd (heq ▸ List.mem_cons_self) hd
    · exact hin

theorem infix_append_cons {m a b : List Char} {d : Char} (hd : d ∉ m)
    (h : m <:+: a ++ d :: b) : m <:+: a ∨ m <:+: b := by
  obtain ⟨s, t, heq⟩ := h
  rcases List.append_eq_append_iff.mp heq with ⟨as, ha, -⟩ | ⟨as, hsm, hdb⟩
  · exact .inl ⟨s, as, ha.symm⟩
  cases as with
  | nil =>
      rw [List.append_nil] at hsm
      exact .inl ⟨s, [], by rw [List.append_nil]; exact hsm⟩
  | cons e as =>
      obtain ⟨rfl, hb⟩ := List.cons.inj hdb
      have hin := (suffix_of_notMem hd hsm).isInfix.trans (List.prefix_append as t).isInfix
      exact .inr (hb ▸ hin)

/-- A keyword longer than the one in front of a value is mentioned in the value. -/
theorem infix_value {name k v : List Char} (hequals : '=' ∉ name) (hk : k.length < name.length)
    (h : name ++ ['='] <:+: k ++ '=' :: v) : name ++ ['='] <:+: v := by
  obtain ⟨s, t, heq⟩ := h
  have heq' : (s ++ name) ++ '=' :: t = k ++ '=' :: v := by simpa using heq
  have hlong : ∀ {as : List Char}, k ≠ s ++ name ++ as := by
    intro as hks
    rw [hks] at hk
    simp only [List.length_append] at hk
    omega
  rcases List.append_eq_append_iff.mp heq' with ⟨as, hks, -⟩ | ⟨as, hsn, hv⟩
  · exact absurd hks hlong
  cases as with
  | nil => exact absurd (by simpa using hsn.symm) (hlong : k ≠ s ++ name ++ [])
  | cons e as =>
      obtain ⟨rfl, hvalue⟩ := List.cons.inj hv
      obtain ⟨xs, rfl⟩ := suffix_of_notMem hequals hsn
      refine ⟨xs, t, ?_⟩
      rw [hvalue]
      show xs ++ (name ++ ['=']) ++ t = xs ++ name ++ '=' :: t
      simp

/-- A keyword longer than all the others is mentioned in one of the values, or
not at all. -/
theorem infix_render_iff {name : List Char} (hspace : ' ' ∉ name) (hequals : '=' ∉ name) :
    ∀ {ps : List Pair}, (∀ p ∈ ps, p.1.length < name.length) →
      (name ++ ['='] <:+: render ps ↔ ∃ p ∈ ps, name ++ ['='] <:+: p.2)
  | [], _ => by
      simp only [render, List.not_mem_nil, false_and, exists_false, iff_false]
      intro h
      simpa using h.length_le
  | [(k, v)], hkeys => by
      simp only [render, List.mem_singleton, exists_eq_left]
      constructor
      · exact infix_value hequals (hkeys (k, v) List.mem_cons_self)
      · intro h
        exact h.trans ⟨k ++ ['='], [], by simp⟩
  | (k, v) :: p :: ps, hkeys => by
      have ih : name ++ ['='] <:+: render (p :: ps) ↔ ∃ q ∈ p :: ps, name ++ ['='] <:+: q.2 :=
        infix_render_iff hspace hequals fun q hq => hkeys q (List.mem_cons_of_mem _ hq)
      have hblank : ' ' ∉ name ++ ['='] := by simpa using hspace
      have hsplit : (∃ q ∈ (k, v) :: p :: ps, name ++ ['='] <:+: q.2) ↔
          name ++ ['='] <:+: v ∨ name ++ ['='] <:+: render (p :: ps) := by
        rw [ih]
        simp
      rw [hsplit]
      constructor
      · intro h
        have h' : name ++ ['='] <:+: (k ++ '=' :: v) ++ ' ' :: render (p :: ps) := by
          simpa [render] using h
        rcases infix_append_cons hblank h' with hfront | hback
        · exact .inl (infix_value hequals (hkeys (k, v) List.mem_cons_self) hfront)
        · exact .inr hback
      · rintro (h | h)
        · exact h.trans ⟨k ++ ['='], ' ' :: render (p :: ps), by simp [render]⟩
        · exact h.trans ⟨k ++ '=' :: (v ++ [' ']), [], by simp [render]⟩

end PgBrakes.Verified.KeyValueText
