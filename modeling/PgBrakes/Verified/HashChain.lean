/-!
# Lists linked by hashes

Each record of such a list carries a hash of its own and names the hash of the
record in front of it; the first one names a fixed genesis.  A record therefore
pins down everything before it, and the hash of the last record pins down the
whole list, as long as no two of the records involved have the same hash and none
has the genesis for its hash.

## Main results

* `linkedFrom_snoc` — a list is extended at its end by a record that names its
  head.
* `LinkedFrom.eq_of_head` — two linked lists with one head are one list.
-/

namespace PgBrakes.Verified.HashChain

variable {ρ η : Type} {hash prev : ρ → η}

/-- The hash of the last record, or `h` when there is none. -/
def headFrom (hash : ρ → η) (h : η) : List ρ → η
  | [] => h
  | r :: rs => headFrom hash (hash r) rs

/-- The first record names `h`, and every other one the hash of the record in front
of it. -/
def LinkedFrom (hash prev : ρ → η) (h : η) : List ρ → Prop
  | [] => True
  | r :: rs => prev r = h ∧ LinkedFrom hash prev (hash r) rs

theorem headFrom_snoc (h : η) (rs : List ρ) (r : ρ) :
    headFrom hash h (rs ++ [r]) = hash r := by
  induction rs generalizing h with
  | nil => rfl
  | cons a rs ih => exact ih (hash a)

theorem linkedFrom_snoc {h : η} {rs : List ρ} {r : ρ} :
    LinkedFrom hash prev h (rs ++ [r]) ↔
      LinkedFrom hash prev h rs ∧ prev r = headFrom hash h rs := by
  induction rs generalizing h with
  | nil => simp [LinkedFrom, headFrom]
  | cons a rs ih =>
      have hrest := ih (h := hash a)
      simp only [List.cons_append, LinkedFrom, headFrom, hrest, and_assoc]

/-- The last record of a list that is not empty. -/
private theorem eq_nil_or_snoc (rs : List ρ) : rs = [] ∨ ∃ init last, rs = init ++ [last] := by
  rcases List.eq_nil_or_concat rs with h | ⟨init, last, h⟩
  · exact .inl h
  · exact .inr ⟨init, last, by rw [h]; simp⟩

/-- Two linked lists with one head are one list: read backwards, equal hashes give
equal records, which name equal hashes, and neither list can end where the other
goes on. -/
theorem LinkedFrom.eq_of_head {h : η} :
    ∀ {xs ys : List ρ}, LinkedFrom hash prev h xs → LinkedFrom hash prev h ys →
      (∀ x ∈ xs, ∀ y ∈ ys, hash x = hash y → x = y) →
      (∀ x ∈ xs, hash x ≠ h) → (∀ y ∈ ys, hash y ≠ h) →
      headFrom hash h xs = headFrom hash h ys → xs = ys := by
  intro xs
  induction hn : xs.length generalizing xs with
  | zero =>
      intro ys _ _ _ _ hfresh hhead
      have hxs : xs = [] := List.length_eq_zero_iff.mp hn
      subst hxs
      rcases eq_nil_or_snoc ys with rfl | ⟨init, last, rfl⟩
      · rfl
      · rw [headFrom_snoc] at hhead
        exact absurd hhead.symm (hfresh last (by simp))
  | succ n ih =>
      intro ys hx hy hinj hfreshx hfreshy hhead
      rcases eq_nil_or_snoc xs with rfl | ⟨xinit, x, rfl⟩
      · simp at hn
      rcases eq_nil_or_snoc ys with rfl | ⟨yinit, y, rfl⟩
      · rw [headFrom_snoc] at hhead
        exact absurd hhead (hfreshx x (by simp))
      rw [headFrom_snoc, headFrom_snoc] at hhead
      have hlast : x = y := hinj x (by simp) y (by simp) hhead
      subst hlast
      obtain ⟨hxinit, hxprev⟩ := linkedFrom_snoc.mp hx
      obtain ⟨hyinit, hyprev⟩ := linkedFrom_snoc.mp hy
      have hinit : xinit = yinit := by
        refine ih (by simpa using hn) hxinit hyinit ?_ ?_ ?_ (hxprev.symm.trans hyprev)
        · intro a ha b hb
          exact hinj a (by simp [ha]) b (by simp [hb])
        · intro a ha
          exact hfreshx a (by simp [ha])
        · intro b hb
          exact hfreshy b (by simp [hb])
      rw [hinit]

end PgBrakes.Verified.HashChain
