import PgBrakes.Verified.Effect
import PgBrakes.Ports.KeyChecksum

/-!
# The byte string under a key-set checksum

Two rehearsals agree on a checksum as far as they hash the same bytes, so the
checksum means what its name says only when the bytes do: one string for each
multiset of key tuples, whatever order the rows came in.

Reading the string back needs every layer of the encoding.  A value is a tag, a
length and a payload.  A tuple is a count and its values; the count is cut to 32
bits, and the tuple reads back all the same, because the length in front of it
says where it ends.  Sorting forgets the order of the rows and nothing else, as
the order on tuples tells any two of them apart.

`push` mutates the builder.  `pushInPlace` is that function statement by
statement, with the builder it leaves behind in either case.

## Main results

* `hashInput_eq_iff` — equal bytes are equal multisets.
* `preimage_canonical` — the same over builders, with what a refused tuple
  leaves behind.
-/

namespace PgBrakes.Ports.KeyPreimage

open PgBrakes.Verified.Effect
open PgBrakes.Verified.SelfDelimiting
open PgBrakes.Ports.KeyChecksum

/-! ## What the types hold -/

/-- An `i64`, or a payload whose length is a `u32`. -/
def PkValue.Fits : PkValue → Prop
  | .int v => -2 ^ 63 ≤ v ∧ v < 2 ^ 63
  | .text s => s.utf8ByteSize < 2 ^ 32
  | .bytes b => b.length < 2 ^ 32
  | .null => True

/-- A tuple of such values, in a buffer whose length is a `usize`. -/
structure PkTuple.Fits (t : PkTuple) : Prop where
  values : ∀ v ∈ t.values, PkValue.Fits v
  size : t.encodeInto.length < 2 ^ 64

/-! ## Reading the encoding back -/

private theorem u32_width : (256 : Nat) ^ 4 = 2 ^ 32 := by decide

private theorem u64_width : (256 : Nat) ^ 8 = 2 ^ 64 := by decide

theorem payload_length_lt {v : PkValue} (h : PkValue.Fits v) : v.payload.length < 256 ^ 4 := by
  rw [u32_width]
  cases v with
  | int v => simp [PkValue.payload]
  | text s => exact h
  | bytes b => exact h
  | null => simp [PkValue.payload]

/-- The tag and the payload are the value. -/
theorem eq_of_payload {v w : PkValue} (hv : PkValue.Fits v) (hw : PkValue.Fits w)
    (htag : v.tag = w.tag) (hpayload : v.payload = w.payload) : v = w := by
  cases v <;> cases w
  case int.int a b =>
    have hbits : (a % 2 ^ 64).toNat = (b % 2 ^ 64).toNat := by
      have hbytes : beBytes 8 (a % 2 ^ 64).toNat = beBytes 8 (b % 2 ^ 64).toNat := hpayload
      exact leBytes_injective (by omega) (by omega) (List.reverse_inj.mp hbytes)
    simp only [PkValue.Fits] at hv hw
    rw [PkValue.int.injEq]
    omega
  case text.text a b => rw [utf8_injective hpayload]
  case bytes.bytes a b => rw [show a = b from hpayload]
  case null.null => rfl
  all_goals exact absurd htag (by simp [PkValue.tag])

theorem selfDelimiting_value : IsSelfDelimiting PkValue.Fits PkValue.encodeInto := by
  intro v w hv hw x y h
  simp only [PkValue.encodeInto, List.cons_append, List.append_assoc, List.cons.injEq] at h
  obtain ⟨htag, hrest⟩ := h
  obtain ⟨hlength, hrest⟩ :=
    selfDelimiting_leBytes 4 (payload_length_lt hv) (payload_length_lt hw) hrest
  obtain ⟨hpayload, htail⟩ := List.append_inj hrest hlength
  exact ⟨eq_of_payload hv hw htag hpayload, htail⟩

/-- The values of a tuple read back to the end of its bytes; the count in front
is not needed for it. -/
theorem tuple_eq_of_encodeInto {t u : PkTuple} (ht : PkTuple.Fits t) (hu : PkTuple.Fits u)
    (h : t.encodeInto = u.encodeInto) : t = u := by
  unfold PkTuple.encodeInto at h
  obtain ⟨-, hvalues⟩ := List.append_inj h (by rw [leBytes_length, leBytes_length])
  have heq := flatMap_injective selfDelimiting_value (fun v => List.cons_ne_nil _ _)
    ht.values hu.values hvalues
  obtain ⟨ts, hts⟩ := t
  obtain ⟨us, hus⟩ := u
  exact (PkTuple.mk.injEq ts hts us hus).mpr heq

/-- A tuple behind its own length. -/
def framed (t : PkTuple) : List UInt8 := leBytes 8 t.encodeInto.length ++ t.encodeInto

theorem selfDelimiting_framed : IsSelfDelimiting PkTuple.Fits framed := by
  refine selfDelimiting_lengthPrefixed (selfDelimiting_leBytes 8) ?_ ?_
  · intro t ht
    rw [u64_width]
    exact ht.size
  · intro t u ht hu h
    exact tuple_eq_of_encodeInto ht hu h

/-! ## Sorting -/

/-- The derived order on tuples. -/
def sortKeys (t : PkTuple) : List (ℕ ×ₗ List ℤ) := t.values.map PkValue.sortKey

theorem PkValue.sortKey_injective : Function.Injective PkValue.sortKey := by
  intro v w h
  cases v <;> cases w <;>
    simp only [PkValue.sortKey, EmbeddingLike.apply_eq_iff_eq, Prod.mk.injEq] at h
  case int.int a b => simpa using h.2
  case text.text a b =>
    have hinj : Function.Injective fun c : Char => (c.toNat : ℤ) := by
      intro c d hcd
      exact Char.toNat_inj.mp (Int.ofNat.inj hcd)
    rw [String.toList_inj.mp (List.map_injective_iff.mpr hinj h.2)]
  case bytes.bytes a b =>
    have hinj : Function.Injective fun x : UInt8 => (x.toNat : ℤ) := by
      intro c d hcd
      exact UInt8.toNat_inj.mp (Int.ofNat.inj hcd)
    rw [List.map_injective_iff.mpr hinj h.2]
  case null.null => rfl
  all_goals exact absurd h.1 (by decide)

theorem sortKeys_injective : Function.Injective sortKeys := by
  intro t u h
  have heq := List.map_injective_iff.mpr PkValue.sortKey_injective h
  obtain ⟨ts, hts⟩ := t
  obtain ⟨us, hus⟩ := u
  exact (PkTuple.mk.injEq ts hts us hus).mpr heq

/-- The tuples in the order they are hashed. -/
def sorted (ts : List PkTuple) : List PkTuple :=
  ts.insertionSort fun a b => sortKeys a ≤ sortKeys b

instance : IsTrans PkTuple fun a b => sortKeys a ≤ sortKeys b := ⟨fun _ _ _ => le_trans⟩

instance : Std.Total fun a b : PkTuple => sortKeys a ≤ sortKeys b := ⟨fun _ _ => le_total _ _⟩

instance : Std.Antisymm fun a b : PkTuple => sortKeys a ≤ sortKeys b :=
  ⟨fun _ _ h₁ h₂ => sortKeys_injective (le_antisymm h₁ h₂)⟩

theorem sorted_perm (ts : List PkTuple) : (sorted ts).Perm ts :=
  List.perm_insertionSort _ ts

/-- Two lists sort to the same one exactly when they are permutations of each
other. -/
theorem sorted_eq_iff {ts us : List PkTuple} : sorted ts = sorted us ↔ ts.Perm us := by
  constructor
  · intro h
    exact (sorted_perm ts).symm.trans (h ▸ sorted_perm us)
  · intro h
    have hperm : (sorted ts).Perm (sorted us) :=
      (sorted_perm ts).trans (h.trans (sorted_perm us).symm)
    exact hperm.eq_of_pairwise' (List.pairwise_insertionSort _ ts)
      (List.pairwise_insertionSort _ us)

/-! ## The hashed bytes -/

theorem hashInput_eq (ts : List PkTuple) :
    PkSetBuilder.hashInput ts =
      utf8 "pgb-pkset-v1" ++ [0] ++ leBytes 8 (sorted ts).length ++
        (sorted ts).flatMap framed := rfl

/-- Equal bytes are equal multisets of tuples. -/
theorem hashInput_eq_iff {ts us : List PkTuple} (hts : ∀ t ∈ ts, PkTuple.Fits t)
    (hus : ∀ u ∈ us, PkTuple.Fits u) :
    PkSetBuilder.hashInput ts = PkSetBuilder.hashInput us ↔ ts.Perm us := by
  rw [← sorted_eq_iff, hashInput_eq, hashInput_eq]
  constructor
  · intro h
    simp only [List.append_assoc] at h
    have hcount := List.append_cancel_left (List.append_cancel_left h)
    obtain ⟨-, hstream⟩ := List.append_inj hcount (by rw [leBytes_length, leBytes_length])
    have hne : ∀ t, framed t ≠ [] := by
      intro t hnil
      have hlen := congrArg List.length hnil
      rw [framed, List.length_append, leBytes_length, List.length_nil] at hlen
      omega
    refine flatMap_injective selfDelimiting_framed hne ?_ ?_ hstream
    · intro t ht
      exact hts t ((sorted_perm ts).mem_iff.mp ht)
    · intro u hu
      exact hus u ((sorted_perm us).mem_iff.mp hu)
  · intro h
    rw [h]

/-! ## The builder -/

/-- `push` on a builder in place, statement by statement. -/
def pushInPlace (tuple : PkTuple) : Eff PkSetBuilder ChecksumError Unit := do
  let arity := tuple.arity
  let established ← Eff.ask fun b => (b.arity, b)
  match established with
  | none => Eff.ask fun b => ((), { b with arity := some arity })
  | some expected =>
      if expected ≠ arity then Eff.fail (.inconsistentArity expected arity)
      else pure ()
  Eff.ask fun b => ((), { b with tuples := b.tuples ++ [tuple] })

/-- The builder is `push`'s, or the one the call began with. -/
theorem pushInPlace_eq (b : PkSetBuilder) (tuple : PkTuple) :
    pushInPlace tuple b = match b.push tuple with
      | .ok b' => (.ok (), b')
      | .error e => (.error e, b) := by
  obtain ⟨relation, established, tuples, pkLess⟩ := b
  unfold pushInPlace PkSetBuilder.push
  simp only [Eff.ask_bind_apply]
  rcases established with _ | expected
  · rfl
  · by_cases h : expected ≠ tuple.arity
    · simp only [if_pos h]
      rfl
    · simp only [if_neg h]
      rfl

/-- The builder after a run of calls, with whatever each of them answered. -/
def pushEach (ts : List PkTuple) (b : PkSetBuilder) : PkSetBuilder :=
  ts.foldl (fun b t => (pushInPlace t b).2) b

/-- The tuples a fresh builder takes: those of the first one's arity. -/
def accepted : List PkTuple → List PkTuple
  | [] => []
  | t :: ts => t :: ts.filter fun u => u.arity = t.arity

/-- Once an arity is established, the builder takes exactly the tuples that have
it. -/
theorem pushEach_tuples {n : Nat} : ∀ (ts : List PkTuple) (b : PkSetBuilder),
    b.arity = some n →
      (pushEach ts b).tuples = b.tuples ++ ts.filter fun u => u.arity = n := by
  intro ts
  induction ts with
  | nil =>
      intro b _
      simp [pushEach]
  | cons t ts ih =>
      intro b hb
      have hrest : pushEach (t :: ts) b = pushEach ts (pushInPlace t b).2 := rfl
      rw [hrest, pushInPlace_eq]
      by_cases ht : t.arity = n
      · have hpush : b.push t = .ok { b with tuples := b.tuples ++ [t] } := by
          simp [PkSetBuilder.push, hb, ht]
        simp only [hpush]
        rw [ih { b with tuples := b.tuples ++ [t] } hb]
        simp [ht]
      · have hpush : b.push t = .error (.inconsistentArity n t.arity) := by
          simp only [PkSetBuilder.push, hb, ne_eq]
          rw [if_pos (fun h => ht h.symm)]
        simp only [hpush]
        rw [ih b hb]
        simp [ht]

theorem pushEach_forRelation (relation : String) (ts : List PkTuple) :
    (pushEach ts (.forRelation relation)).tuples = accepted ts := by
  cases ts with
  | nil => rfl
  | cons t ts =>
      have hrest : pushEach (t :: ts) (.forRelation relation) =
          pushEach ts { PkSetBuilder.forRelation relation with
            arity := some t.arity, tuples := [t] } := rfl
      rw [hrest, pushEach_tuples ts _ rfl]
      rfl

theorem accepted_subset (ts : List PkTuple) : accepted ts ⊆ ts := by
  cases ts with
  | nil => exact List.Subset.refl _
  | cons t ts => exact List.cons_subset_cons t List.filter_sublist.subset

/-- Tuples of one arity are all taken. -/
theorem accepted_of_uniformArity {ts : List PkTuple} (h : PkSetBuilder.UniformArity ts) :
    accepted ts = ts := by
  cases ts with
  | nil => rfl
  | cons t ts =>
      rw [accepted, List.filter_eq_self.mpr]
      intro u hu
      simpa using h u (by simp [hu]) t (by simp)

/-- After any two runs of pushes, `finalize` hashes the same bytes exactly when
the two builders took the same multiset of tuples; tuples of one arity are all
taken, and a refused one leaves the builder as it was. -/
theorem preimage_canonical (relation relation' : String) (ts us : List PkTuple)
    (hts : ∀ t ∈ ts, PkTuple.Fits t) (hus : ∀ u ∈ us, PkTuple.Fits u) :
    (PkSetBuilder.hashInput (pushEach ts (.forRelation relation)).tuples =
        PkSetBuilder.hashInput (pushEach us (.forRelation relation')).tuples ↔
      (accepted ts).Perm (accepted us)) ∧
    (PkSetBuilder.UniformArity ts → PkSetBuilder.UniformArity us →
      (PkSetBuilder.hashInput (pushEach ts (.forRelation relation)).tuples =
          PkSetBuilder.hashInput (pushEach us (.forRelation relation')).tuples ↔
        ts.Perm us)) ∧
    ∀ (b : PkSetBuilder) (t : PkTuple) (e : ChecksumError),
      (pushInPlace t b).1 = .error e → (pushInPlace t b).2 = b := by
  have hiff : PkSetBuilder.hashInput (pushEach ts (.forRelation relation)).tuples =
      PkSetBuilder.hashInput (pushEach us (.forRelation relation')).tuples ↔
        (accepted ts).Perm (accepted us) := by
    rw [pushEach_forRelation, pushEach_forRelation]
    exact hashInput_eq_iff (fun t ht => hts t (accepted_subset ts ht))
      (fun u hu => hus u (accepted_subset us hu))
  refine ⟨hiff, ?_, ?_⟩
  · intro huniform huniform'
    rw [hiff, accepted_of_uniformArity huniform, accepted_of_uniformArity huniform']
  · intro b t e h
    rw [pushInPlace_eq] at h ⊢
    rcases hpush : b.push t with e' | b'
    · rfl
    · rw [hpush] at h
      cases h

/-- Two rows in either order, with keys of two columns. -/
theorem preimage_canonical_swapped :
    PkSetBuilder.hashInput (pushEach [⟨[.int (-1), .text "a"], by simp⟩,
        ⟨[.null, .bytes [7]], by simp⟩] (.forRelation "public.accounts")).tuples =
      PkSetBuilder.hashInput (pushEach [⟨[.null, .bytes [7]], by simp⟩,
        ⟨[.int (-1), .text "a"], by simp⟩] (.forRelation "public.accounts")).tuples := by
  have hfirst : PkTuple.Fits ⟨[.int (-1), .text "a"], by simp⟩ := by
    refine ⟨?_, by decide⟩
    simp [PkValue.Fits]
    decide
  have hsecond : PkTuple.Fits ⟨[.null, .bytes [7]], by simp⟩ := by
    refine ⟨?_, by decide⟩
    simp [PkValue.Fits]
  refine ((preimage_canonical "public.accounts" "public.accounts" _ _ ?_ ?_).2.1
    (by decide) (by decide)).mpr (List.Perm.swap _ _ [])
  · simp [hfirst, hsecond]
  · simp [hfirst, hsecond]

end PgBrakes.Ports.KeyPreimage
