import CrudScaffold.Proofs.Files.Growth
import CrudScaffold.Proofs.Files.Names

/-!
# CrudScaffold.Proofs.Files.Lookup — what is seen of a path in a tree that has grown

`Retains t t'` says that what stands in `t` stands in `t'` too, directories as directories and files as files.  Seen
along an absolute path, the two trees differ only where something on the way is missing in `t` (`find_retains`), and
what is seen in `t` is seen in `t'` (`pathExists_retains`).

The way to a place that has been found in a tree can be gone by the names of the place alone (`follow_of_reached`).
-/

namespace CrudScaffold.Files

namespace Tree

variable {t t' : Tree} {cwd a b : Location} {p : Path} {ns : List String}

/-! ### Places that are reached from the top -/

/-- Each name of the place is that of an entry of a directory, and short enough to be followed. -/
def Reached (t : Tree) (a : Location) : Prop :=
  ∀ x n, x ++ [n] <+: a → t.isDirectoryAt x = true ∧ n ≠ ".." ∧ n.utf8ByteSize ≤ nameLimit ∧ (t.node? (x ++ [n])).isSome

theorem reached_nil (t : Tree) : t.Reached [] := by
  intro x n h
  have hlen := h.length_le
  simp at hlen

theorem Reached.of_prefix (h : t.Reached a) (hb : b <+: a) : t.Reached b := fun x n hx => h x n (hx.trans hb)

/-- One more entry of a place that is reached. -/
theorem Reached.concat (h : t.Reached a) {n : String} (hd : t.isDirectoryAt a = true) (hn : n ≠ "..")
    (hsize : n.utf8ByteSize ≤ nameLimit) (hthere : (t.node? (a ++ [n])).isSome) : t.Reached (a ++ [n]) := by
  intro x k hx
  rcases List.prefix_concat_iff.1 hx with heq | hprefix
  · obtain ⟨rfl, hk⟩ := List.append_inj' heq rfl
    obtain rfl : k = n := by simpa using hk
    exact ⟨hd, hn, hsize, hthere⟩
  · exact h x k hprefix

theorem Reached.node (h : t.Reached a) : (t.node? a).isSome := by
  rcases List.eq_nil_or_concat a with rfl | ⟨x, n, rfl⟩
  · simp [node?]
  · rw [List.concat_eq_append] at h ⊢
    exact (h x n (List.prefix_refl _)).2.2.2

/-- What is reached stays reached along names that can be followed. -/
theorem reached_of_follow (ha : t.Reached a) (h : t.follow a ns = .ok b) : t.Reached b := by
  induction ns generalizing a with
  | nil =>
    cases h
    exact ha
  | cons n ns ih =>
    simp only [follow] at h
    split at h
    · cases h
    rename_i hd
    split at h
    · exact ih (ha.of_prefix (List.dropLast_prefix a)) h
    rename_i hn
    split at h
    · cases h
    rename_i hsize
    split at h
    · cases h
    rename_i hthere
    -- every check along the way has been passed
    refine ih (ha.concat (by simpa using hd) hn (Nat.not_lt.1 hsize) ?_) h
    exact Option.isSome_iff_ne_none.2 (by simpa using hthere)

/-- A place that is reached is reached by its own names. -/
theorem follow_of_reached (h : t.Reached a) : t.follow [] a = .ok a := by
  induction hlen : a.length generalizing a with
  | zero =>
    obtain rfl := List.length_eq_zero_iff.1 hlen
    rfl
  | succ k ih =>
    rcases List.eq_nil_or_concat a with rfl | ⟨x, n, rfl⟩
    · cases hlen
    rw [List.concat_eq_append] at h hlen ⊢
    obtain ⟨hd, hn, hsize, hthere⟩ := h x n (List.prefix_refl _)
    have hx := ih (h.of_prefix (List.prefix_append x [n])) (by simpa using hlen)
    exact follow_concat hx hn hd hsize hthere

/-! ### Trees that retain what another one has -/

/-- What stands in `t` stands in `t'`, directories as directories and files as files.  A file may have another
content. -/
def Retains (t t' : Tree) : Prop :=
  ∀ a n, t.node? a = some n → ∃ n', t'.node? a = some n' ∧ (n' = .directory ↔ n = .directory)

theorem Retains.node (h : Retains t t') (ha : (t.node? a).isSome) : (t'.node? a).isSome := by
  obtain ⟨n, hn⟩ := Option.isSome_iff_exists.1 ha
  obtain ⟨n', hn', -⟩ := h a n hn
  simp [hn']

/-- Where something stands, both trees have a directory or neither has. -/
theorem Retains.isDirectoryAt (h : Retains t t') (ha : (t.node? a).isSome) :
    t'.isDirectoryAt a = t.isDirectoryAt a := by
  obtain ⟨n, hn⟩ := Option.isSome_iff_exists.1 ha
  obtain ⟨n', hn', hkind⟩ := h a n hn
  simp [Tree.isDirectoryAt, hn, hn', hkind]

/-- From a place that is reached, names lead to the same end in both trees, unless the first one lacks something. -/
theorem follow_retains (h : Retains t t') (ha : t.Reached a) (hne : t.follow a ns ≠ .error .noSuchFile) :
    t'.follow a ns = t.follow a ns := by
  -- the two trees answer every check alike, and the last one can only lack something in the older tree
  induction ns generalizing a with
  | nil => rfl
  | cons n ns ih =>
    simp only [follow, h.isDirectoryAt ha.node] at hne ⊢
    split at hne
    · rename_i hd
      simp only [hd, if_true]
    rename_i hd
    simp only [hd, Bool.false_eq_true, if_false]
    split at hne
    · rename_i hn
      simp only [hn, if_true]
      exact ih (ha.of_prefix (List.dropLast_prefix a)) hne
    rename_i hn
    simp only [hn, if_false]
    split at hne
    · rename_i hsize
      simp only [hsize, if_true]
    rename_i hsize
    simp only [hsize, if_false]
    split at hne
    · exact absurd rfl hne
    rename_i hnone
    have hthere : (t.node? (a ++ [n])).isSome := Option.isSome_iff_ne_none.2 (by simpa using hnone)
    have hnone' : (t'.node? (a ++ [n])).isNone = false := by
      simpa [Option.isSome_iff_ne_none] using h.node hthere
    simp only [hnone', hnone, Bool.false_eq_true, if_false]
    exact ih (ha.concat (by simpa using hd) hn (Nat.not_lt.1 hsize) hthere) hne

theorem start_of_isAbsolute (cwd : Location) (hp : p.isAbsolute = true) : p.start cwd = [] := by
  simp [Path.start, hp]

/-- Finding an absolute path is following its names from the top. -/
theorem find_of_isAbsolute (t : Tree) (cwd : Location) (hp : p.isAbsolute = true) : t.find cwd p =
    if pathLimit < p.toString.utf8ByteSize then .error .nameTooLong else t.follow [] p.names := by
  rw [← start_of_isAbsolute cwd hp]
  rfl

/-- An absolute path is found in both trees or in neither, unless the first one lacks something on the way. -/
theorem find_retains (h : Retains t t') (hp : p.isAbsolute = true) (hne : t.find cwd p ≠ .error .noSuchFile) :
    t'.find cwd p = t.find cwd p := by
  rw [find_of_isAbsolute _ _ hp] at hne
  rw [find_of_isAbsolute _ _ hp, find_of_isAbsolute _ _ hp]
  split at hne
  · rename_i hsize
    simp only [hsize, if_true]
  · rename_i hsize
    simp only [hsize, if_false]
    exact follow_retains h (reached_nil t) hne

theorem follow_of_tooLong {n : String} (hd : t.isDirectoryAt a = true) (hn : n ≠ "..")
    (hlong : nameLimit < n.utf8ByteSize) (ns : List String) : t.follow a (n :: ns) = .error .nameTooLong := by
  simp [follow, hd, hn, hlong]

/-- The end of an absolute path that is found is reached from the top. -/
theorem reached_of_find (hp : p.isAbsolute = true) (h : t.find cwd p = .ok a) : t.Reached a := by
  have hfollow := (find_ok_iff.1 h).2
  rw [start_of_isAbsolute cwd hp] at hfollow
  exact reached_of_follow (reached_nil t) hfollow

end Tree

open CrudScaffold.Files.Tree

variable {t t' : Tree} {cwd : Location} {p : Path}

/-! ### What is seen -/

/-- A path without `..` that starts at the top leads to the place with its own names. -/
theorem Path.locationFrom_of_notMem (cwd : Location) (hp : p.isAbsolute = true) (hdots : ".." ∉ p.names) :
    p.locationFrom cwd = p.names := by
  have hwalk : ∀ (ns : List String) (a : Location), ".." ∉ ns → Path.walkNames a ns = a ++ ns := by
    intro ns
    induction ns with
    | nil => intro a _; simp [Path.walkNames]
    | cons n ns ih =>
      intro a hmem
      have hn : n ≠ ".." := fun he => hmem (by simp [he])
      have hrest := ih (a ++ [n]) fun he => hmem (by simp [he])
      simp only [Path.walkNames, List.foldl_cons, hn, if_false] at hrest ⊢
      rw [hrest, List.append_assoc]
      rfl
  rw [Path.locationFrom_eq, start_of_isAbsolute cwd hp, hwalk p.names [] hdots, List.nil_append]

/-- Only a name or a path that is too long keeps one from seeing what stands at a path. -/
theorem pathExists_error {f : AccessFault} (h : pathExists t cwd p = .error f) :
    p.hasNul = false ∧ t.find cwd p = .error .nameTooLong ∧ f = refuse .nameTooLong p := by
  unfold pathExists look at h
  split at h
  · cases h
  rename_i hnul
  refine ⟨by simpa using hnul, ?_⟩
  cases hfind : t.find cwd p with
  | ok a =>
    rw [hfind] at h
    cases h
  | error cause =>
    rw [hfind] at h
    cases cause <;> cases h
    exact ⟨rfl, rfl⟩

/-- What is seen at an absolute path in the first tree is seen there in the second one. -/
theorem pathExists_retains (h : Retains t t') (hp : p.isAbsolute = true) {found' : Bool}
    (hseen : pathExists t' cwd p = .ok found') :
    ∃ found, pathExists t cwd p = .ok found ∧ (found = true → found' = true) := by
  unfold pathExists look at hseen ⊢
  split at hseen
  · rename_i hnul
    simp only [hnul, if_true]
    exact ⟨_, rfl, fun h => by cases h⟩
  rename_i hnul
  simp only [hnul, Bool.false_eq_true, if_false]
  -- what is missing in the older tree needs nothing of the newer one
  by_cases hne : t.find cwd p = .error .noSuchFile
  · rw [hne]
    exact ⟨false, rfl, nofun⟩
  rw [find_retains h hp hne] at hseen
  cases hfind : t.find cwd p with
  | error cause =>
    rw [hfind] at hseen
    exact ⟨found', hseen, id⟩
  | ok a =>
    rw [hfind] at hseen
    cases hseen
    exact ⟨_, rfl, fun hthere => h.node hthere⟩

end CrudScaffold.Files
