import CrudScaffold.Proofs.Files.Growth
import CrudScaffold.Proofs.Files.Names

/-!
# CrudScaffold.Proofs.Files.Rewriting — what has been written can be written again

`Writable t cwd p` says that nothing about the path keeps a file from being written there: the directory above it is
found, and neither its own name nor that of the temporary file is too long.  A file that has been written has such a
path (`writable_of_writeAtomically`), and it stays one as long as no directory is lost (`Writable.keeps`).  Then a file
can be made and written there, unless a directory stands in its place (`Writable.touch`, `Writable.writeAtomically`).
Only the size of the last name matters, so one of equal size will do as well (`Writable.child`).
-/

namespace CrudScaffold.Files

open CrudScaffold.Files.Tree

variable {t t' : Tree} {cwd a : Location} {p : Path}

/-! ### Directories that are there -/

namespace Tree

theorem isDirectoryAt_of_follow {b : Location} {n : String} {rest : List String}
    (h : t.follow a (n :: rest) = .ok b) : t.isDirectoryAt a = true := by
  simp only [follow] at h
  split at h
  · cases h
  · rename_i hdir
    simpa using hdir

/-- Where a path that is found would be filled: at no place, if it goes back in the end, or where something stands. -/
theorem slot_of_find (h : t.find cwd p = .ok a) :
    t.slot cwd p = .ok none ∨ t.slot cwd p = .ok (some a) ∧ (t.node? a).isSome := by
  obtain ⟨hsize, hf⟩ := find_ok_iff.1 h
  rcases List.eq_nil_or_concat p.names with hnil | ⟨ns, n, hns⟩
  · left
    simp [slot, Nat.not_lt.2 hsize, hnil, pure, Except.pure]
  rw [List.concat_eq_append] at hns
  rw [hns] at hf
  -- a path that goes back in the end names no place
  by_cases hn : n = ".."
  · left
    subst hn
    rw [follow_append] at hf
    cases hd : t.follow (p.start cwd) ns with
    | error cause =>
      rw [hd] at hf
      cases hf
    | ok d =>
      rw [hd] at hf
      have hdir : t.isDirectoryAt d = true := isDirectoryAt_of_follow hf
      rw [Path.start] at hd
      simp [slot, Nat.not_lt.2 hsize, hns, hd, hdir, pure, Except.pure, bind, Except.bind]
  · obtain ⟨d, hd, hdir, hlen, rfl, hthere⟩ := follow_concat_ok hf hn
    exact Or.inr ⟨slot_some_iff.2 ⟨hsize, ns, n, d, hns, hd, hdir, hn, hlen, rfl⟩, hthere⟩

theorem makeDirectory_of_find (h : t.find cwd p = .ok a) : t.makeDirectory cwd p = .error .alreadyExists := by
  unfold makeDirectory
  rcases slot_of_find h with hs | ⟨hs, hthere⟩
  · rw [hs]
    rfl
  · rw [hs]
    simp [bind, Except.bind, hthere, throw, throwThe, MonadExceptOf.throw]

/-- A path with a proper last name names a place that may be filled, or there is no way to it. -/
theorem slot_ne_none {n : String} (hp : p.names.getLast? = some n) (hn : n ≠ "..") : t.slot cwd p ≠ .ok none := by
  intro h
  by_cases hsize : pathLimit < p.toString.utf8ByteSize
  · simp [slot, hsize, throw, throwThe, MonadExceptOf.throw, bind, Except.bind] at h
  simp only [slot, hsize, if_false, hp] at h
  cases hf : t.follow (if p.isAbsolute then [] else cwd) p.names.dropLast with
  | error cause =>
    rw [hf] at h
    cases h
  | ok d =>
    simp only [hf, hn, if_false, pure, bind, Except.bind, Except.pure] at h
    split at h
    · cases h
    split at h <;> cases h

/-- All places on the way to a directory that is found are directories. -/
theorem isDirectoryAt_of_passes {x : Location} (h : t.find cwd p = .ok a) (hd : t.isDirectoryAt a = true)
    (hx : p.Passes cwd x) : t.isDirectoryAt x = true := by
  obtain ⟨ns, ⟨rest, hns⟩, rfl⟩ := hx
  have hf := (find_ok_iff.1 h).2
  rw [← hns, follow_append] at hf
  -- names that can be followed to their end can be followed half-way
  cases hb : t.follow (p.start cwd) ns with
  | error cause =>
    rw [hb] at hf
    cases hf
  | ok b =>
    rw [hb] at hf
    rw [← walk_of_follow hb]
    cases rest with
    | nil =>
      cases hf
      exact hd
    | cons n rest => exact isDirectoryAt_of_follow hf

/-- The way of a path is that of its parent and its end. -/
theorem passes_cases {x : Location} (h : p.Passes cwd x) : x = p.locationFrom cwd ∨ p.parent.Passes cwd x := by
  obtain ⟨ns, ⟨rest, hns⟩, rfl⟩ := h
  rcases List.eq_nil_or_concat rest with rfl | ⟨rest, n, rfl⟩
  · rw [List.append_nil] at hns
    exact Or.inl (by rw [hns, Path.locationFrom_eq])
  · refine Or.inr ⟨ns, ⟨rest, ?_⟩, rfl⟩
    rw [Path.parent, ← hns, List.concat_eq_append, ← List.append_assoc, List.dropLast_concat]

end Tree

theorem isDirectory_of_find (hnul : p.hasNul = false) (h : t.find cwd p = .ok a) (hd : t.isDirectoryAt a = true) :
    isDirectory t cwd p = .ok true := by
  have hnode : t.node? a = some .directory := by simpa [isDirectoryAt] using hd
  simp only [isDirectory, look, hnul, h, hnode, Bool.false_eq_true, if_false]
  rfl

/-- Nothing is done to a directory that is there. -/
theorem ensureDirectory_of_find (hnul : p.hasNul = false) (h : t.find cwd p = .ok a)
    (hd : t.isDirectoryAt a = true) : ensureDirectory t cwd p = (.ok (), t) := by
  have haccept : ensureNames.accept cwd t p .alreadyExists = .ok () := by
    rw [ensureNames.accept, isDirectory_of_find hnul h hd]
    rfl
  have hmade : t.makeDirectory cwd ⟨p.anchor, p.names⟩ = .error .alreadyExists := makeDirectory_of_find h
  rw [ensureDirectory, if_neg (by simp [hnul])]
  cases p.names.length <;> simp only [ensureNames, hmade, haccept]

/-! ### Paths that can be written -/

/-- A file can be written under the path, unless a directory stands in its place. -/
structure Writable (t : Tree) (cwd : Location) (p : Path) : Prop where
  noNul : p.hasNul = false
  above : t.find cwd p.parent = .ok (p.parent.locationFrom cwd)
  directory : t.isDirectoryAt (p.parent.locationFrom cwd) = true
  slot : t.slot cwd p = .ok (some (p.locationFrom cwd))
  temporary : ∃ a, t.slot [] (temporaryPath cwd p) = .ok (some a)

theorem Writable.keeps (h : Writable t cwd p) (hk : Keeps t t') : Writable t' cwd p where
  noNul := h.noNul
  above := find_keeps hk h.above
  directory := (hk _).1 h.directory
  slot := slot_keeps hk h.slot
  temporary := h.temporary.imp fun _ => slot_keeps hk

theorem Writable.noNul_parent (h : Writable t cwd p) : p.parent.hasNul = false := by
  refine Bool.eq_false_iff.2 fun hnul => ?_
  have hwhole := Path.hasNul_of_parent hnul
  rw [h.noNul] at hwhole
  cases hwhole

/-- Making sure of the directory above is all that is done to it. -/
theorem Writable.ensureDirectory (h : Writable t cwd p) : Files.ensureDirectory t cwd p.parent = (.ok (), t) :=
  ensureDirectory_of_find h.noNul_parent h.above h.directory

theorem getLast_temporaryPath (cwd : Location) (p : Path) :
    (temporaryPath cwd p).names.getLast? = some ("." ++ p.name ++ "." ++ temporaryMark ++ ".tmp") := by
  simp [temporaryPath]

theorem temporaryName_ne (n mark : String) : "." ++ n ++ "." ++ mark ++ ".tmp" ≠ ".." := by
  intro h
  have hlist := congrArg (fun s => s.toList.length) h
  have htmp : ".tmp".toList.length = 4 := rfl
  have hdots : "..".toList.length = 2 := rfl
  simp only [String.toList_append, List.length_append, htmp, hdots] at hlist
  omega

/-- A writing that succeeds has made the directories above the path, and then it puts the content in its place. -/
theorem exists_of_writeAtomically {content : String} {size : Nat}
    (h : writeAtomically t cwd p content = (.ok size, t')) : ∃ t₁, Files.ensureDirectory t cwd p.parent = (.ok (), t₁) ∧
      Writable t₁ cwd p ∧ t₁.isDirectoryAt (p.locationFrom cwd) = false ∧ size = content.toUTF8.size ∧
        t' = t₁.put (p.locationFrom cwd) (.file content.toUTF8) := by
  unfold writeAtomically at h
  rcases hens : Files.ensureDirectory t cwd p.parent with ⟨f | u, t₁⟩ <;> rw [hens] at h
  · cases h
  obtain ⟨habove, hdirectory⟩ := find_of_ensureDirectory hens
  simp only at h
  split at h
  · cases h
  rename_i hnul
  split at h
  · cases h
  rename_i temporary htemporary
  split at h
  · cases h
  rename_i at_ htarget
  obtain ⟨hsize, rfl⟩ := Prod.mk.inj h
  obtain ⟨hslot, hfile⟩ := renameTarget_ok htarget
  obtain rfl := location_of_slot hslot
  -- a temporary name is a proper one, so it names a place
  have htemporary : ∃ a, t₁.slot [] (temporaryPath cwd p) = .ok (some a) := by
    cases temporary with
    | none => exact absurd htemporary (slot_ne_none (getLast_temporaryPath cwd p) (temporaryName_ne _ _))
    | some a => exact ⟨a, htemporary⟩
  exact ⟨t₁, rfl, ⟨by simpa using hnul, habove, hdirectory, hslot, htemporary⟩, hfile, (Except.ok.inj hsize).symm, rfl⟩

/-- A file that has been written can be written again. -/
theorem writable_of_writeAtomically {content : String} {size : Nat}
    (h : writeAtomically t cwd p content = (.ok size, t')) : Writable t' cwd p := by
  obtain ⟨t₁, -, hwritable, hfile, -, rfl⟩ := exists_of_writeAtomically h
  exact hwritable.keeps (put_file_keeps hfile)

/-- A file is made where no directory stands. -/
theorem Writable.touch (h : Writable t cwd p) (hfile : t.isDirectoryAt (p.locationFrom cwd) = false) :
    ∃ t', Files.touch t cwd p = (.ok (), t') := by
  unfold Files.touch
  simp only [h.noNul, Bool.false_eq_true, if_false]
  cases hfind : t.find cwd p with
  | ok at_ => exact ⟨t, rfl⟩
  | error cause =>
    simp only [openFile, h.slot, bind, Except.bind]
    cases hnode : t.node? (p.locationFrom cwd) with
    | none => exact ⟨_, rfl⟩
    | some n =>
      cases n with
      | file content => exact ⟨_, rfl⟩
      | directory => simp [isDirectoryAt, hnode] at hfile

/-- A file is written where no directory stands. -/
theorem Writable.writeAtomically (h : Writable t cwd p) (hfile : t.isDirectoryAt (p.locationFrom cwd) = false)
    (content : String) : ∃ t', Files.writeAtomically t cwd p content = (.ok content.toUTF8.size, t') := by
  obtain ⟨temporary, htemporary⟩ := h.temporary
  have htarget : t.renameTarget cwd p = .ok (p.locationFrom cwd) := by
    simp [renameTarget, h.slot, bind, Except.bind, hfile, pure, Except.pure]
  refine ⟨t.put (p.locationFrom cwd) (.file content.toUTF8), ?_⟩
  simp only [Files.writeAtomically, h.ensureDirectory, h.noNul, htemporary, htarget, Bool.false_eq_true, if_false]

/-! ### Names of equal size -/

theorem utf8ByteSize_toString (anchor : Anchor) (ns : List String) {n n' : String}
    (h : n'.utf8ByteSize = n.utf8ByteSize) :
    (Path.toString ⟨anchor, ns ++ [n']⟩).utf8ByteSize = (Path.toString ⟨anchor, ns ++ [n]⟩).utf8ByteSize := by
  have hne : ∀ k, ns ++ [k] ≠ [] := fun k => by simp
  have hjoined : ("/".intercalate (ns ++ [n'])).utf8ByteSize = ("/".intercalate (ns ++ [n])).utf8ByteSize := by
    by_cases hns : ns = []
    · simp [hns, h]
    · rw [String.intercalate_append_of_ne_nil hns (List.cons_ne_nil _ _),
        String.intercalate_append_of_ne_nil hns (List.cons_ne_nil _ _)]
      simp only [String.intercalate_singleton, String.utf8ByteSize_append, h]
  simp only [Path.toString, hne, and_false, if_false, String.utf8ByteSize_append, hjoined]

/-- Names of equal size fit into the same places, or are refused alike. -/
theorem slot_sibling (t : Tree) (cwd : Location) (anchor : Anchor) (ns : List String) {n n' : String} (hn : n ≠ "..")
    (hn' : n' ≠ "..") (hsize : n'.utf8ByteSize = n.utf8ByteSize) :
    (∃ cause, t.slot cwd ⟨anchor, ns ++ [n]⟩ = .error cause ∧ t.slot cwd ⟨anchor, ns ++ [n']⟩ = .error cause) ∨
    ∃ a b, t.slot cwd ⟨anchor, ns ++ [n]⟩ = .ok (some a) ∧ t.slot cwd ⟨anchor, ns ++ [n']⟩ = .ok (some b) := by
  have habsolute : Path.isAbsolute ⟨anchor, ns ++ [n']⟩ = Path.isAbsolute ⟨anchor, ns ++ [n]⟩ := rfl
  unfold slot
  simp only [List.getLast?_concat, List.dropLast_concat, utf8ByteSize_toString anchor ns hsize, hsize, hn, hn',
    habsolute, if_false, bind, Except.bind, throw, throwThe, MonadExceptOf.throw, pure, Except.pure]
  split
  · exact Or.inl ⟨_, rfl, rfl⟩
  split
  · exact Or.inl ⟨_, rfl, rfl⟩
  split
  · exact Or.inl ⟨_, rfl, rfl⟩
  split
  · exact Or.inl ⟨_, rfl, rfl⟩
  · exact Or.inr ⟨_, _, rfl, rfl⟩

theorem slot_of_size {anchor : Anchor} {ns : List String} {n n' : String} (hn : n ≠ "..") (hn' : n' ≠ "..")
    (hsize : n'.utf8ByteSize = n.utf8ByteSize) (h : t.slot cwd ⟨anchor, ns ++ [n]⟩ = .ok (some a)) :
    ∃ b, t.slot cwd ⟨anchor, ns ++ [n']⟩ = .ok (some b) := by
  rcases slot_sibling t cwd anchor ns hn hn' hsize with ⟨cause, hrefused, -⟩ | ⟨_, b, -, hb⟩
  · cases h.symm.trans hrefused
  · exact ⟨b, hb⟩

theorem temporaryPath_child (cwd : Location) (d : Path) {n : String} (hn : Path.IsName n) :
    temporaryPath cwd (d.child n) = ⟨if d.isAbsolute then d.anchor else .top,
      d.locationFrom cwd ++ ["." ++ n ++ "." ++ temporaryMark ++ ".tmp"]⟩ := by
  have hname : (d.child n).name = n := by simp [Path.name, Path.getLast_child d hn]
  rw [temporaryPath, Path.parent_child d hn, hname, Path.child_of_isName d hn]
  rfl

/-- Beside a file that can be written, so can one whose name has the same size. -/
theorem Writable.child {d : Path} {n n' : String} (h : Writable t cwd (d.child n)) (hn : Path.IsName n)
    (hn' : Path.IsName n') (hsize : n'.utf8ByteSize = n.utf8ByteSize)
    (hnul : (d.child n').hasNul = false) : Writable t cwd (d.child n') := by
  obtain ⟨-, habove, hdirectory, hslot, ⟨a, htemporary⟩⟩ := h
  rw [Path.parent_child d hn] at habove hdirectory
  rw [temporaryPath_child cwd d hn] at htemporary
  rw [Path.child_of_isName d hn] at hslot
  obtain ⟨b, hslot⟩ := slot_of_size hn.2.2.2 hn'.2.2.2 hsize hslot
  rw [← Path.child_of_isName d hn'] at hslot
  -- the two names have the same size, and so have the temporary ones
  refine ⟨hnul, ?_, ?_, location_of_slot hslot ▸ hslot, ?_⟩
  · rw [Path.parent_child d hn']
    exact habove
  · rw [Path.parent_child d hn']
    exact hdirectory
  · rw [temporaryPath_child cwd d hn']
    refine slot_of_size (temporaryName_ne _ _) (temporaryName_ne _ _) ?_ htemporary
    simp only [String.utf8ByteSize_append, hsize]

end CrudScaffold.Files
