import CrudScaffold.Files.Access

/-!
# CrudScaffold.Proofs.Files.Walk — where a path leads

No place of a tree is reached by two ways, so where a path leads does not depend on the tree: `find` and `slot` give
`Path.locationFrom` whenever they give a place at all (`location_of_find`, `location_of_slot`).  The tree decides
only whether the way can be gone.  A tree that `Keeps` what another one has lets every way be gone that the other one
does (`find_keeps`).
-/

namespace CrudScaffold.Files

/-! ### Walking without a tree -/

namespace Path

/-- Where the way of a path begins. -/
def start (cwd : Location) (p : Path) : Location := if p.isAbsolute then [] else cwd

/-- The place lies on the way of the path: some of its names, from the first one on, lead there. -/
def Passes (cwd : Location) (p : Path) (at_ : Location) : Prop :=
  ∃ ns, ns <+: p.names ∧ at_ = walkNames (p.start cwd) ns

theorem walkNames_concat {a : Location} {ns : List String} {n : String} (h : n ≠ "..") :
    walkNames a (ns ++ [n]) = walkNames a ns ++ [n] := by
  simp [walkNames, List.foldl_append, h]

theorem locationFrom_eq (cwd : Location) (p : Path) : p.locationFrom cwd = walkNames (p.start cwd) p.names := rfl

/-- A path with a proper last name leads to that name in the place of its parent. -/
theorem locationFrom_concat {cwd : Location} {p : Path} {n : String} (hp : p.names.getLast? = some n) (hn : n ≠ "..") :
    p.locationFrom cwd = p.parent.locationFrom cwd ++ [n] := by
  obtain ⟨ns, hns⟩ := List.getLast?_eq_some_iff.1 hp
  have hparent : p.parent.names = ns := by simp [parent, hns]
  rw [locationFrom_eq, locationFrom_eq, hparent, hns, walkNames_concat hn]
  rfl

theorem passes_of_parent {cwd at_ : Location} {p : Path} (h : p.parent.Passes cwd at_) : p.Passes cwd at_ := by
  obtain ⟨ns, hns, rfl⟩ := h
  exact ⟨ns, hns.trans (List.dropLast_prefix _), rfl⟩

end Path

namespace Tree

variable {t t' : Tree} {cwd at_ : Location} {p : Path}

/-! ### Following names -/

theorem follow_append (t : Tree) (a : Location) (xs ys : List String) :
    t.follow a (xs ++ ys) = (t.follow a xs).bind fun b => t.follow b ys := by
  induction xs generalizing a with
  | nil => rfl
  | cons x xs ih =>
    simp only [List.cons_append, follow]
    split
    · rfl
    split
    · exact ih _
    split
    · rfl
    split
    · rfl
    · exact ih _

/-- Names that can be followed lead where they lead without the tree. -/
theorem walk_of_follow {a b : Location} {ns : List String} (h : t.follow a ns = .ok b) : b = Path.walkNames a ns := by
  induction ns generalizing a with
  | nil =>
    cases h
    rfl
  | cons n ns ih =>
    -- each name goes back, or goes down into what is there
    simp only [follow] at h
    split at h
    · cases h
    split at h
    · rename_i hn
      rw [ih h]
      simp [Path.walkNames, hn]
    split at h
    · cases h
    split at h
    · cases h
    · rename_i hn _ _
      rw [ih h]
      simp [Path.walkNames, hn]

/-- Following one more proper name. -/
theorem follow_concat {a b : Location} {ns : List String} {n : String} (h : t.follow a ns = .ok b) (hn : n ≠ "..")
    (hd : t.isDirectoryAt b = true) (hsize : n.utf8ByteSize ≤ nameLimit) (hthere : (t.node? (b ++ [n])).isSome) :
    t.follow a (ns ++ [n]) = .ok (b ++ [n]) := by
  rw [follow_append, h]
  have hnone : (t.node? (b ++ [n])).isNone = false := by simpa [Option.isSome_iff_ne_none] using hthere
  simp [Except.bind, follow, hd, hn, Nat.not_lt.mpr hsize, hnone]

/-- What following one more proper name asks for. -/
theorem follow_concat_ok {a b : Location} {ns : List String} {n : String} (h : t.follow a (ns ++ [n]) = .ok b)
    (hn : n ≠ "..") :
    ∃ d, t.follow a ns = .ok d ∧ t.isDirectoryAt d = true ∧ n.utf8ByteSize ≤ nameLimit ∧ b = d ++ [n] ∧
      (t.node? b).isSome := by
  rw [follow_append] at h
  cases hd : t.follow a ns with
  | error e => rw [hd] at h; cases h
  | ok d =>
    rw [hd] at h
    -- the last name is checked like every other
    simp only [Except.bind, follow, hn, if_false] at h
    split at h
    · cases h
    split at h
    · cases h
    split at h
    · cases h
    · rename_i hdir hsize hnode
      cases h
      exact ⟨d, rfl, by simpa using hdir, Nat.not_lt.1 hsize, rfl,
        Option.isSome_iff_ne_none.2 (by simpa using hnode)⟩

/-! ### Finding a path, and the place for a new one -/

theorem find_ok_iff :
    t.find cwd p = .ok at_ ↔ p.toString.utf8ByteSize ≤ pathLimit ∧ t.follow (p.start cwd) p.names = .ok at_ := by
  unfold find Path.start
  split
  · rename_i h
    simp [Nat.not_le.mpr h]
  · rename_i h
    simp [Nat.not_lt.mp h]

/-- A path that is found leads where it leads without the tree. -/
theorem location_of_find (h : t.find cwd p = .ok at_) : at_ = p.locationFrom cwd :=
  walk_of_follow (find_ok_iff.1 h).2

/-- What it takes for a path to name a place that may be filled. -/
theorem slot_some_iff :
    t.slot cwd p = .ok (some at_) ↔ p.toString.utf8ByteSize ≤ pathLimit ∧ ∃ ns n d, p.names = ns ++ [n] ∧
      t.follow (p.start cwd) ns = .ok d ∧ t.isDirectoryAt d = true ∧ n ≠ ".." ∧ n.utf8ByteSize ≤ nameLimit ∧
        at_ = d ++ [n] := by
  unfold slot
  by_cases hsize : pathLimit < p.toString.utf8ByteSize
  · simp [hsize, throw, throwThe, MonadExceptOf.throw, bind, Except.bind, Nat.not_le.mpr hsize]
  simp only [hsize, if_false, Nat.not_lt.mp hsize, true_and]
  -- without names there is no place; else the last name is taken off
  cases hlast : p.names.getLast? with
  | none =>
    have hnil : p.names = [] := List.getLast?_eq_none_iff.1 hlast
    simp [hnil, pure, Except.pure]
  | some n =>
    obtain ⟨ns, hns⟩ := List.getLast?_eq_some_iff.1 hlast
    have hdrop : p.names.dropLast = ns := by simp [hns]
    have hinj : ∀ ms m, p.names = ms ++ [m] ↔ ms = ns ∧ m = n := by
      intro ms m
      rw [hns]
      constructor
      · intro h
        obtain ⟨h1, h2⟩ := List.append_inj' h (by simp)
        exact ⟨h1.symm, (List.cons.inj h2).1.symm⟩
      · rintro ⟨rfl, rfl⟩
        rfl
    simp only [hinj, hdrop, and_assoc, exists_and_left, exists_eq_left, pure, Except.pure, bind, Except.bind,
      Path.start]
    cases hf : t.follow (if p.isAbsolute then [] else cwd) ns with
    | error e => simp
    | ok d =>
      -- each check of `slot` is one condition of the statement
      by_cases hd : t.isDirectoryAt d = true
      · by_cases hn : n = ".."
        · simp [hd, hn]
        · by_cases hlen : nameLimit < n.utf8ByteSize
          · simp [hd, hn, hlen, throw, throwThe, MonadExceptOf.throw, Nat.not_le.mpr hlen]
          · have hcomm : d ++ [n] = at_ ↔ at_ = d ++ [n] := eq_comm
            simp [hd, hn, hlen, Nat.not_lt.mp hlen, hcomm]
      · simp [hd, throw, throwThe, MonadExceptOf.throw]

/-- The place for a new path is where the path leads without the tree. -/
theorem location_of_slot (h : t.slot cwd p = .ok (some at_)) : at_ = p.locationFrom cwd := by
  obtain ⟨-, ns, n, d, hns, hf, -, hn, -, rfl⟩ := slot_some_iff.1 h
  rw [Path.locationFrom_eq, hns, Path.walkNames_concat hn, ← walk_of_follow hf]

theorem ne_nil_of_slot (h : t.slot cwd p = .ok (some at_)) : at_ ≠ [] := by
  obtain ⟨-, ns, n, d, -, -, -, -, -, rfl⟩ := slot_some_iff.1 h
  simp

/-- Once something stands at the place for a new path, the path is found. -/
theorem find_of_slot (h : t.slot cwd p = .ok (some at_)) (hthere : (t.node? at_).isSome) : t.find cwd p = .ok at_ := by
  obtain ⟨hsize, ns, n, d, hns, hf, hd, hn, hlen, rfl⟩ := slot_some_iff.1 h
  exact find_ok_iff.2 ⟨hsize, hns ▸ follow_concat hf hn hd hlen hthere⟩

/-- Something stands at the end of a path that is found and has a proper last name. -/
theorem node_of_find {n : String} (h : t.find cwd p = .ok at_) (hp : p.names.getLast? = some n) (hn : n ≠ "..") :
    (t.node? at_).isSome := by
  obtain ⟨ns, hns⟩ := List.getLast?_eq_some_iff.1 hp
  have hf := (find_ok_iff.1 h).2
  rw [hns] at hf
  obtain ⟨-, -, -, -, -, hnode⟩ := follow_concat_ok hf hn
  exact hnode

/-! ### Trees in which everything stands in a directory -/

/-- Everything in the tree stands in a directory. -/
def Closed (t : Tree) : Prop := ∀ a n, (t.node? (a ++ [n])).isSome → t.isDirectoryAt a = true

/-- What stands at the end of names without `..` can be reached by them, if the names are short enough, as the tree
`t'` shows. -/
theorem follow_of_closed (hclosed : t.Closed) {a b : Location} {ns : List String} (hns : ".." ∉ ns)
    (h : t'.follow a ns = .ok b) (hthere : (t.node? b).isSome) : t.follow a ns = .ok b := by
  -- the induction is on the number of names, from the end: `t` is closed, so it has what stands above
  induction hlen : ns.length generalizing ns b with
  | zero =>
    obtain rfl := List.length_eq_zero_iff.1 hlen
    exact h
  | succ k ih =>
    rcases List.eq_nil_or_concat ns with rfl | ⟨ns, n, rfl⟩
    · cases hlen
    rw [List.concat_eq_append] at h hns hlen ⊢
    have hn : n ≠ ".." := fun he => hns (by simp [he])
    obtain ⟨d, hd, -, hsize, rfl, -⟩ := follow_concat_ok h hn
    have hdir := hclosed d n hthere
    have hnode : (t.node? d).isSome := by
      have : t.node? d = some .directory := by simpa [isDirectoryAt] using hdir
      simp [this]
    exact follow_concat (ih (fun he => hns (by simp [he])) hd hnode (by simpa using hlen)) hn hdir hsize hthere

/-- What stands at the end of a path without `..` is found under it. -/
theorem find_of_closed (hclosed : t.Closed) (hp : ".." ∉ p.names) (h : t'.find cwd p = .ok at_)
    (hthere : (t.node? at_).isSome) : t.find cwd p = .ok at_ := by
  obtain ⟨hsize, hf⟩ := find_ok_iff.1 h
  exact find_ok_iff.2 ⟨hsize, follow_of_closed hclosed hp hf hthere⟩

/-! ### Trees that keep what another one has -/

/-- What stands in `t` stands in `t'` too, and directories are directories still.  Files may have other contents. -/
def Keeps (t t' : Tree) : Prop :=
  ∀ a, (t.isDirectoryAt a = true → t'.isDirectoryAt a = true) ∧ ((t.node? a).isSome → (t'.node? a).isSome)

theorem Keeps.refl (t : Tree) : Keeps t t := fun _ => ⟨id, id⟩

theorem Keeps.trans {t₁ t₂ t₃ : Tree} (h : Keeps t₁ t₂) (h' : Keeps t₂ t₃) : Keeps t₁ t₃ :=
  fun a => ⟨fun hd => (h' a).1 ((h a).1 hd), fun hn => (h' a).2 ((h a).2 hn)⟩

theorem follow_keeps (hk : Keeps t t') {a b : Location} {ns : List String} (h : t.follow a ns = .ok b) :
    t'.follow a ns = .ok b := by
  induction ns generalizing a with
  | nil => exact h
  | cons n ns ih =>
    simp only [follow] at h ⊢
    split at h
    · cases h
    rename_i hd
    -- what has been passed is kept
    have hd' : t'.isDirectoryAt a = true := (hk a).1 (by simpa using hd)
    simp only [hd', Bool.not_true, Bool.false_eq_true, if_false]
    split at h
    · rename_i hn
      simp only [hn, if_true]
      exact ih h
    rename_i hn
    simp only [hn, if_false]
    split at h
    · cases h
    rename_i hlen
    simp only [hlen, if_false]
    split at h
    · cases h
    rename_i hnode
    have hsome : (t'.node? (a ++ [n])).isSome := (hk _).2 (Option.isSome_iff_ne_none.2 (by simpa using hnode))
    have hnone : (t'.node? (a ++ [n])).isNone = false := by simpa [Option.isSome_iff_ne_none] using hsome
    simp only [hnone, Bool.false_eq_true, if_false]
    exact ih h

theorem find_keeps (hk : Keeps t t') (h : t.find cwd p = .ok at_) : t'.find cwd p = .ok at_ := by
  obtain ⟨hsize, hf⟩ := find_ok_iff.1 h
  exact find_ok_iff.2 ⟨hsize, follow_keeps hk hf⟩

theorem slot_keeps (hk : Keeps t t') (h : t.slot cwd p = .ok (some at_)) : t'.slot cwd p = .ok (some at_) := by
  obtain ⟨hsize, ns, n, d, hns, hf, hd, hn⟩ := slot_some_iff.1 h
  exact slot_some_iff.2 ⟨hsize, ns, n, d, hns, follow_keeps hk hf, (hk d).1 hd, hn⟩

end Tree

end CrudScaffold.Files
