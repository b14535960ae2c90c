import CrudScaffold.Proofs.Files.Reading
import CrudScaffold.Proofs.Template.Rendering
import CrudScaffold.Template.Store

/-!
# CrudScaffold.Proofs.Template.Stability — templates that other files do not disturb

The files of templates end in `.stub`.  A tree that has lost nothing and in which all such files are as they were is
`Undisturbed`: the settings ask for the same store (`ofSettings_undisturbed`), and the store gives the same templates
(`get_undisturbed`).  A directory may have come where a template file could have stood; it is passed over as a missing
file is.
-/

namespace CrudScaffold.Template

open CrudScaffold.Files
open CrudScaffold.Files.Tree

/-! ### Looking into a directory -/

section

variable {t : Tree} {cwd a : Location} {d : Path} {n : String}

/-- What is seen of an entry of a directory is what stands in its place, unless the path or the name is too long. -/
theorem look_child (hd : t.find cwd d = .ok a) (hdir : t.isDirectoryAt a = true) (hn : Path.IsName n) :
    look t cwd (d.child n) = if (d.child n).hasNul then .ok none
      else if pathLimit < (d.child n).toString.utf8ByteSize ∨ nameLimit < n.utf8ByteSize then
        .error (refuse .nameTooLong (d.child n))
      else .ok (t.node? (a ++ [n])) := by
  have hfollow := (find_ok_iff.1 hd).2
  have hentry : t.find cwd (d.child n) = if pathLimit < (d.child n).toString.utf8ByteSize then .error .nameTooLong
      else if nameLimit < n.utf8ByteSize then .error .nameTooLong
      else if (t.node? (a ++ [n])).isNone then .error .noSuchFile else .ok (a ++ [n]) := by
    -- the way to the entry is the way to the directory and one name more
    have hway : t.follow (d.start cwd) (d.names ++ [n]) = t.follow a [n] := by
      rw [follow_append, hfollow]
      rfl
    rw [Path.child_of_isName d hn]
    unfold Tree.find
    split
    · rfl
    · rw [← Path.start, show (Path.start cwd ⟨d.anchor, d.names ++ [n]⟩) = d.start cwd from rfl, hway]
      simp [follow, hdir, hn.2.2.2]
  unfold look
  split
  · rfl
  rw [hentry]
  -- the limits of the path and of the name are looked at before the entry
  by_cases hpath : pathLimit < (d.child n).toString.utf8ByteSize
  · simp only [hpath, if_true, true_or]
    rfl
  by_cases hname : nameLimit < n.utf8ByteSize
  · simp only [hpath, hname, if_true, if_false, or_true]
    rfl
  simp only [hpath, hname, if_false, or_self]
  cases hnode : t.node? (a ++ [n]) with
  | none => rfl
  | some node =>
    rw [if_neg (by simp)]
    simp only [hnode]

end

/-! ### Undisturbed templates -/

/-- The name is one of a template file. -/
def IsStub (n : String) : Prop := Path.IsName n ∧ ".stub".toList <:+ n.toList

theorem isStub_fileName (template : TemplateName) : IsStub template.fileName := by
  unfold IsStub Path.IsName
  cases template <;> decide

/-- No directory is lost, and files that may be templates are as they were.  New directories may have such names. -/
structure Undisturbed (v v' : View) : Prop where
  cwd : v'.cwd = v.cwd
  keeps : Keeps v.tree v'.tree
  stubs : ∀ a n, IsStub n → v'.tree.node? (a ++ [n]) = v.tree.node? (a ++ [n]) ∨
    v.tree.node? (a ++ [n]) = none ∧ v'.tree.node? (a ++ [n]) = some .directory

variable {v v' : View} {d : Path}

theorem look_undisturbed (h : Undisturbed v v') (hd : isDirectory v.tree v.cwd d = .ok true) {n : String}
    (hn : IsStub n) : look v'.tree v'.cwd (d.child n) = look v.tree v.cwd (d.child n) ∨
      look v.tree v.cwd (d.child n) = .ok none ∧ look v'.tree v'.cwd (d.child n) = .ok (some .directory) := by
  obtain ⟨hfind, hdir⟩ := isDirectory_ok hd
  rw [h.cwd, look_child hfind hdir hn.1, look_child (find_keeps h.keeps hfind) ((h.keeps _).1 hdir) hn.1]
  split
  · exact Or.inl rfl
  split
  · exact Or.inl rfl
  · exact (h.stubs _ n hn).imp (congrArg Except.ok) fun ⟨hnone, hmade⟩ =>
      ⟨congrArg Except.ok hnone, congrArg Except.ok hmade⟩

theorem fileOf_label (d : Path) (template : TemplateName) :
    fileOf d packagedFileNames template.label = d.child template.fileName := by
  have hlookup : packagedFileNames.lookup template.label = some template.fileName := by
    cases template <;> decide
  rw [fileOf, hlookup]
  rfl

theorem find_of_look {template : TemplateName} {seen : Option Node}
    (h : look v.tree v.cwd (d.child template.fileName) = .ok seen) (hseen : ∀ content, seen ≠ some (.file content)) :
    (Layer.ofDirectory d).find v template.label = .ok (.error [(d.child template.fileName).toString]) := by
  have hfile : isFile v.tree v.cwd (d.child template.fileName) = .ok false := by
    rw [isFile, h]
    rcases seen with _ | _ | content
    · rfl
    · rfl
    · exact absurd rfl (hseen content)
  simp only [Layer.ofDirectory, Layer.find, fileOf_label, hfile, letThrough, bind, Except.bind, pure, Except.pure,
    Bool.false_eq_true, if_false]

/-- A directory gives the templates that it gave before. -/
theorem find_undisturbed (h : Undisturbed v v') (hd : isDirectory v.tree v.cwd d = .ok true)
    (template : TemplateName) :
    (Layer.ofDirectory d).find v' template.label = (Layer.ofDirectory d).find v template.label := by
  -- nothing has changed at the place of the template, or a directory has been made there
  rcases look_undisturbed h hd (isStub_fileName template) with hsame | ⟨hnone, hmade⟩
  · cases hlook : look v.tree v.cwd (d.child template.fileName) with
    | error f =>
      simp only [Layer.ofDirectory, Layer.find, fileOf_label, isFile, hsame.trans hlook, hlook, letThrough, bind,
        Except.bind]
    | ok seen =>
      by_cases hfile : ∃ content, seen = some (.file content)
      · obtain ⟨content, rfl⟩ := hfile
        simp only [Layer.ofDirectory, Layer.find, fileOf_label, isFile, readText, hsame.trans hlook, hlook,
          readBytes_of_look hlook, readBytes_of_look (hsame.trans hlook)]
      · have hseen : ∀ content, seen ≠ some (.file content) := fun content heq => hfile ⟨content, heq⟩
        rw [find_of_look hlook hseen, find_of_look (hsame.trans hlook) hseen]
  · have hmissing : ∀ content, (none : Option Node) ≠ some (.file content) := by simp
    have hdirectory : ∀ content, some Node.directory ≠ some (.file content) := by simp
    rw [find_of_look hnone hmissing, find_of_look hmade hdirectory]

theorem noNul_of_isDirectory {t : Tree} {cwd : Location} {p : Path} (h : isDirectory t cwd p = .ok true) :
    p.hasNul = false := by
  refine Bool.eq_false_iff.2 fun hnul => ?_
  simp only [isDirectory, look, hnul, if_true] at h
  cases h

theorem isDirectory_undisturbed (h : Undisturbed v v') (hd : isDirectory v.tree v.cwd d = .ok true) :
    isDirectory v'.tree v'.cwd d = .ok true := by
  obtain ⟨hfind, hdir⟩ := isDirectory_ok hd
  rw [h.cwd]
  exact isDirectory_of_find (noNul_of_isDirectory hd) (find_keeps h.keeps hfind) ((h.keeps _).1 hdir)

/-- The stores that settings ask for: the packaged templates, or a directory that is there, alone or above them. -/
theorem ofSettings_cases {s : Settings} {store : Store} (h : Store.ofSettings v s = .ok store) :
    s.templatesPath = none ∧ store = .single .packaged ∨
    ∃ given, s.templatesPath = some given ∧ isDirectory v.tree v.cwd (directoryOf s given) = .ok true ∧
      store = if s.usePackaged then .layered [.ofDirectory (directoryOf s given), .packaged]
        else .single (.ofDirectory (directoryOf s given)) := by
  unfold Store.ofSettings at h
  split at h
  · rename_i hnone
    exact Or.inl ⟨hnone, (Except.ok.inj h).symm⟩
  rename_i given hgiven
  cases hd : isDirectory v.tree v.cwd (directoryOf s given) with
  | error f =>
    simp only [hd] at h
    cases h
  | ok found =>
    -- the directory is there, is not, or cannot be looked at
    simp only [hd] at h
    cases found with
    | false => cases h
    | true => exact Or.inr ⟨given, hgiven, hd, (Except.ok.inj h).symm⟩

/-- The settings ask for the same store. -/
theorem ofSettings_undisturbed (h : Undisturbed v v') {s : Settings} {store : Store}
    (hstore : Store.ofSettings v s = .ok store) : Store.ofSettings v' s = .ok store := by
  rcases ofSettings_cases hstore with ⟨hnone, rfl⟩ | ⟨given, hgiven, hd, rfl⟩
  · rw [Store.ofSettings, hnone]
  · rw [Store.ofSettings, hgiven]
    simp only [isDirectory_undisturbed h hd]
    rfl

/-- The store gives the same templates. -/
theorem get_undisturbed (h : Undisturbed v v') {s : Settings} {store : Store}
    (hstore : Store.ofSettings v s = .ok store) (template : TemplateName) :
    store.get v' template.label = store.get v template.label := by
  rcases ofSettings_cases hstore with ⟨-, rfl⟩ | ⟨given, -, hd, rfl⟩
  · exact get_of_inMemory (s := .single .packaged) trivial v' v template.label
  · split
    · have hpackaged : Layer.packaged.find v' template.label = Layer.packaged.find v template.label := rfl
      simp only [Store.get, findIn, find_undisturbed h hd template, hpackaged]
    · simp only [Store.get, find_undisturbed h hd template]

end CrudScaffold.Template
