import Mathlib.Data.List.Induction
import Mathlib.Data.List.Nodup

/-!
# A tree of files

Programs that clean up after others work on a tree of directories and files: they list a
directory, look at the files they find there and remove whole subtrees.  `Files ν α` is
such a tree, as the list of its paths with what is at them.  It carries what a file system
guarantees by itself: a path is there once, and what it is in is a directory.  `ν` is the
type of names, and `α` is the content of a file.

Removals only take away, so what is found after one was there before it.  `Below` is that
order, and the lemmas about a pass of removals are stated over it.

## Main results

* `lookup_eq_some_iff` — the tree as a partial function on paths.
* `mem_names_iff` — what listing a directory shows.
* `lookup_removeDirAll_within`, `lookup_removeDirAll_of_not_prefix` — what a removal takes
  away, and what it leaves.
* `Below` and its rules.
-/

namespace PgBrakes.Verified.FileTree

/-- A path, as its components. -/
abbrev Path (ν : Type) := List ν

inductive Node (α : Type) where
  | dir
  | file (content : α)
deriving DecidableEq

structure Files (ν α : Type) where
  nodes : List (Path ν × Node α)
  distinct : (nodes.map Prod.fst).Nodup
  rooted : ∀ x ∈ nodes, x.1 ≠ [] → (x.1.dropLast, Node.dir) ∈ nodes

namespace Files

variable {ν α : Type} [DecidableEq ν]

def lookup (t : Files ν α) (p : Path ν) : Option (Node α) :=
  (t.nodes.find? fun x => decide (x.1 = p)).map Prod.snd

theorem lookup_eq_some_iff {t : Files ν α} {p : Path ν} {n : Node α} :
    t.lookup p = some n ↔ (p, n) ∈ t.nodes := by
  unfold lookup
  constructor
  · intro h
    obtain ⟨x, hfind, rfl⟩ := Option.map_eq_some_iff.mp h
    have hp : x.1 = p := by simpa using List.find?_some hfind
    rw [← hp]
    exact List.mem_of_find?_eq_some hfind
  · intro h
    cases hfind : t.nodes.find? fun x => decide (x.1 = p) with
    | none => exact absurd (decide_eq_true rfl) (List.find?_eq_none.mp hfind (p, n) h)
    | some x =>
        have hp : x.1 = p := by simpa using List.find?_some hfind
        have hx : x = (p, n) :=
          List.inj_on_of_nodup_map t.distinct (List.mem_of_find?_eq_some hfind) h hp
        rw [hx]
        rfl

theorem lookup_eq_none_iff {t : Files ν α} {p : Path ν} :
    t.lookup p = none ↔ ∀ n, (p, n) ∉ t.nodes := by
  rw [Option.eq_none_iff_forall_ne_some]
  exact forall_congr' fun n => not_congr lookup_eq_some_iff

def isDir (t : Files ν α) (p : Path ν) : Bool :=
  match t.lookup p with
  | some .dir => true
  | _ => false

theorem isDir_iff {t : Files ν α} {p : Path ν} : t.isDir p = true ↔ t.lookup p = some .dir := by
  unfold isDir
  split
  · rename_i h
    simp [h]
  · rename_i h
    exact ⟨fun hfalse => (Bool.false_ne_true hfalse).elim, fun hdir => absurd hdir h⟩

/-- What something is in is a directory. -/
theorem lookup_dropLast {t : Files ν α} {p : Path ν} {n : Node α} (h : t.lookup p = some n)
    (hp : p ≠ []) : t.lookup p.dropLast = some .dir :=
  lookup_eq_some_iff.mpr (t.rooted (p, n) (lookup_eq_some_iff.mp h) hp)

/-- And so is everything around it. -/
theorem lookup_dir_of_prefix {t : Files ν α} {p p' : Path ν} (h : t.lookup p = some .dir)
    (hp : p' <+: p) : t.lookup p' = some .dir := by
  obtain ⟨rest, rfl⟩ := hp
  induction rest using List.reverseRecOn with
  | nil => simpa using h
  | append_singleton rest name ih =>
      refine ih ?_
      have hparent := lookup_dropLast h (by simp)
      rwa [← List.append_assoc, List.dropLast_concat] at hparent

/-- Keep a part of the tree from which no directory is missing. -/
def keep (t : Files ν α) (q : Path ν × Node α → Bool)
    (hq : ∀ x ∈ t.nodes, x.1 ≠ [] → q x = true → q (x.1.dropLast, .dir) = true) :
    Files ν α where
  nodes := t.nodes.filter q
  distinct := t.distinct.sublist (List.filter_sublist.map Prod.fst)
  rooted := by
    intro x hx hne
    obtain ⟨hmem, hkept⟩ := List.mem_filter.mp hx
    exact List.mem_filter.mpr ⟨t.rooted x hmem hne, hq x hmem hne hkept⟩

/-- Remove a directory with everything in it.  Anything else at the path is left alone. -/
def removeDirAll (t : Files ν α) (p : Path ν) : Files ν α :=
  if t.isDir p then
    t.keep (fun x => decide (¬ p <+: x.1)) (by
      intro x _ hne hkept
      have hnot : ¬ p <+: x.1 := of_decide_eq_true hkept
      exact decide_eq_true fun hwithin => hnot (hwithin.trans (List.dropLast_prefix x.1)))
  else t

/-- Remove a file. -/
def removeFile (t : Files ν α) (p : Path ν) : Files ν α :=
  match h : t.lookup p with
  | some (.file content) =>
      t.keep (fun x => decide (x.1 ≠ p)) (by
        intro x hx hne _
        refine decide_eq_true fun heq => ?_
        have hdir := lookup_dropLast (lookup_eq_some_iff.mpr hx) hne
        rw [show x.1.dropLast = p from heq, h] at hdir
        cases hdir)
  | _ => t

/-- The names in a directory, in the order they are read. -/
def names (t : Files ν α) (p : Path ν) : List ν :=
  t.nodes.filterMap fun x => if x.1.dropLast = p then x.1.getLast? else none

theorem mem_names_iff {t : Files ν α} {p : Path ν} {name : ν} :
    name ∈ t.names p ↔ ∃ n, (p ++ [name], n) ∈ t.nodes := by
  unfold names
  rw [List.mem_filterMap]
  constructor
  · rintro ⟨⟨q, n⟩, hmem, hname⟩
    by_cases hq : q.dropLast = p
    · rw [if_pos hq] at hname
      obtain ⟨init, rfl⟩ := List.getLast?_eq_some_iff.mp hname
      rw [List.dropLast_concat] at hq
      subst hq
      exact ⟨n, hmem⟩
    · rw [if_neg hq] at hname
      cases hname
  · rintro ⟨n, hmem⟩
    exact ⟨(p ++ [name], n), hmem, by simp⟩

/-- A directory has every name once. -/
theorem names_nodup (t : Files ν α) (p : Path ν) : (t.names p).Nodup := by
  have hnames : t.names p = (t.nodes.map Prod.fst).filterMap
      fun q => if q.dropLast = p then q.getLast? else none := by
    unfold names
    rw [List.filterMap_map]
    rfl
  rw [hnames]
  refine t.distinct.filterMap ?_
  intro q q' name hq hq'
  simp only [Option.mem_def] at hq hq'
  split at hq
  next hparent =>
    split at hq'
    next hparent' =>
      obtain ⟨init, rfl⟩ := List.getLast?_eq_some_iff.mp hq
      obtain ⟨init', rfl⟩ := List.getLast?_eq_some_iff.mp hq'
      rw [List.dropLast_concat] at hparent hparent'
      rw [hparent, hparent']
    · cases hq'
  · cases hq

/-! ## Removals -/

/-- Everything in the first tree is in the second. -/
def Below (t t' : Files ν α) : Prop := ∀ x ∈ t.nodes, x ∈ t'.nodes

omit [DecidableEq ν] in
theorem Below.refl (t : Files ν α) : Below t t := fun _ hx => hx

omit [DecidableEq ν] in
theorem Below.trans {t t' t'' : Files ν α} (h : Below t t') (h' : Below t' t'') : Below t t'' :=
  fun x hx => h' x (h x hx)

theorem Below.lookup {t t' : Files ν α} (h : Below t t') {p : Path ν} {n : Node α}
    (hp : t.lookup p = some n) : t'.lookup p = some n :=
  lookup_eq_some_iff.mpr (h (p, n) (lookup_eq_some_iff.mp hp))

theorem Below.lookup_eq_none {t t' : Files ν α} (h : Below t t') {p : Path ν}
    (hp : t'.lookup p = none) : t.lookup p = none := by
  cases hlookup : t.lookup p with
  | none => rfl
  | some n =>
      rw [h.lookup hlookup] at hp
      cases hp

omit [DecidableEq ν] in
theorem keep_below (t : Files ν α) (q : Path ν × Node α → Bool) (hq) : Below (t.keep q hq) t :=
  fun _ hx => (List.mem_filter.mp hx).1

theorem removeDirAll_below (t : Files ν α) (p : Path ν) : Below (t.removeDirAll p) t := by
  unfold removeDirAll
  split
  · exact keep_below t _ _
  · exact Below.refl t

theorem removeFile_below (t : Files ν α) (p : Path ν) : Below (t.removeFile p) t := by
  unfold removeFile
  split
  · exact keep_below t _ _
  · exact Below.refl t

/-- After the removal of a directory there is nothing in it or at its path. -/
theorem lookup_removeDirAll_within {t : Files ν α} {p p' : Path ν}
    (h : t.lookup p' = some .dir) (hp : p' <+: p) : (t.removeDirAll p').lookup p = none := by
  rw [removeDirAll, if_pos (isDir_iff.mpr h), lookup_eq_none_iff]
  intro n hmem
  exact of_decide_eq_true (List.mem_filter.mp hmem).2 hp

theorem lookup_removeDirAll_of_not_prefix {t : Files ν α} {p p' : Path ν} {n : Node α}
    (h : t.lookup p = some n) (hp : ¬ p' <+: p) : (t.removeDirAll p').lookup p = some n := by
  unfold removeDirAll
  split
  · exact lookup_eq_some_iff.mpr
      (List.mem_filter.mpr ⟨lookup_eq_some_iff.mp h, decide_eq_true hp⟩)
  · exact h

/-- Removing a file leaves the directories. -/
theorem lookup_removeFile_dir {t : Files ν α} {p p' : Path ν} (h : t.lookup p = some .dir) :
    (t.removeFile p').lookup p = some .dir := by
  unfold removeFile
  split
  · rename_i content hfile
    refine lookup_eq_some_iff.mpr
      (List.mem_filter.mpr ⟨lookup_eq_some_iff.mp h, decide_eq_true fun heq => ?_⟩)
    rw [show p = p' from heq, hfile] at h
    cases h
  · exact h

end Files

end PgBrakes.Verified.FileTree
