import CrudScaffold.Proofs.Code.Literals
import CrudScaffold.Proofs.Files.Rewriting

/-!
# CrudScaffold.Proofs.Files.Replacing — a file is replaced as a whole or not at all

`writeBySteps` writes a file in the steps that the system sees: it makes a temporary file beside the path, fills it and
renames it, and takes it away again if the renaming is refused.  None of this can be seen in the end: the result and
the tree are those of `writeAtomically`, which puts the content in its place at once (`writeBySteps_eq`).  So a writing
either succeeds and changes the file of its path only, or fails and changes no file (`writeAtomically_replaces`).

What has been written is read back with unified line ends (`readText_of_find`).
-/

namespace CrudScaffold.Files

open CrudScaffold.Code CrudScaffold.Files.Tree CrudScaffold.Text

variable {t t' : Tree} {cwd a : Location} {p : Path} {content : String}

/-! ### Reading what has been written -/

/-- Unifying the line ends replaces every `CR LF` first and then every `CR` that is left. -/
theorem unifyLineEnds_eq (cs : List Char) :
    unifyLineEnds cs = replaceAll ['\r'] ['\n'] (replaceAll ['\r', '\n'] ['\n'] cs) := by
  show _ = replaceAll ['\r'] ['\n'] (replaceFrom ['\r', '\n'] ['\n'] 0 cs)
  fun_induction unifyLineEnds cs with
  | case1 => rfl
  | case2 rest ih =>
    -- a pair becomes one line feed, so that nothing is left of its `CR`
    have hpair : replaceFrom ['\r', '\n'] ['\n'] 0 ('\r' :: '\n' :: rest) =
        '\n' :: replaceFrom ['\r', '\n'] ['\n'] 0 rest := by
      simp [replaceFrom]
    rw [hpair, replaceAll_singleton, List.flatMap_cons, ih, replaceAll_singleton]
    rfl
  | case3 c rest hrest ih =>
    -- here no pair begins, so only the second replacement can change the character
    have hsingle : replaceFrom ['\r', '\n'] ['\n'] 0 (c :: rest) = c :: replaceFrom ['\r', '\n'] ['\n'] 0 rest := by
      rw [replaceFrom, if_neg]
      intro hprefix
      obtain ⟨tail, htail⟩ := List.isPrefixOf_iff_prefix.1 hprefix
      obtain ⟨hc, hnext⟩ := List.cons.inj htail
      exact hrest tail hc.symm hnext.symm
    rw [hsingle, replaceAll_singleton, List.flatMap_cons, ih, replaceAll_singleton]
    split <;> rfl

/-- Only a text without `CR` has unified line ends already. -/
theorem unifyLineEnds_eq_self_iff (cs : List Char) : unifyLineEnds cs = cs ↔ '\r' ∉ cs := by
  constructor
  · intro h hmem
    rw [← h, unifyLineEnds_eq, replaceAll_singleton, List.mem_flatMap] at hmem
    obtain ⟨d, -, hmem⟩ := hmem
    -- a `CR` that is left would have been replaced
    split at hmem
    · exact absurd hmem (by decide)
    · rename_i hd
      exact hd (List.mem_singleton.1 hmem).symm
  · intro h
    induction cs with
    | nil => rfl
    | cons c cs ih =>
      rw [List.mem_cons, not_or] at h
      have hc : ¬ c = '\r' := Ne.symm h.1
      rw [unifyLineEnds, if_neg hc, ih h.2]
      exact fun _ hc' => absurd hc' hc

theorem decode_toUTF8 (s : String) : Utf8.decode s.toUTF8 = .ok s := by
  have hread : String.fromUTF8? s.toUTF8 = some s := by
    simp only [String.fromUTF8?, String.toUTF8_eq_toByteArray, dif_pos s.isValidUTF8]
    rfl
  rw [Utf8.decode, hread]

/-- A file with a text in it is read as this text with unified line ends. -/
theorem readText_of_find (hnul : p.hasNul = false) (hfind : t.find cwd p = .ok a)
    (hnode : t.node? a = some (.file content.toUTF8)) :
    readText t cwd p = .ok (String.ofList (unifyLineEnds content.toList)) := by
  have hbytes : readBytes t cwd p = .ok content.toUTF8 := by
    simp only [readBytes, hnul, hfind, hnode, Bool.false_eq_true, if_false]
  simp only [readText, hbytes, decode_toUTF8]

/-! ### Making, renaming and taking away a file -/

namespace Tree

/-- Takes away what stands at a location. -/
def remove (t : Tree) (at_ : Location) : Tree := ⟨t.entries.filter (·.1 ≠ at_)⟩

/-- Makes an empty file where nothing stands. -/
def createFile (t : Tree) (cwd : Location) (p : Path) : Except Cause (Location × Tree) := do
  match ← t.slot cwd p with
  | none => throw .alreadyExists
  | some at_ =>
    if (t.node? at_).isSome then throw .alreadyExists else return (at_, t.put at_ (.file ByteArray.empty))

/-- Gives a file the place that the path names. -/
def rename (t : Tree) (source : Location) (cwd : Location) (p : Path) : Except Cause Tree := do
  match t.node? source with
  | none => throw .noSuchFile
  | some n =>
    let at_ ← t.renameTarget cwd p
    return (t.remove source).put at_ n

theorem ne_of_node?_eq_none (h : t.node? a = none) : ∀ e ∈ t.entries, e.1 ≠ a := by
  intro e he hea
  have hany : t.entries.any (·.1 = a) = true := List.any_eq_true.2 ⟨e, he, by simpa using hea⟩
  obtain ⟨n, hn⟩ := Option.isSome_iff_exists.1 (lookup_isSome_of_any hany)
  unfold node? at h
  split at h
  · cases h
  · rw [hn] at h
    cases h

theorem put_of_free (h : t.node? a = none) (n : Node) : t.put a n = ⟨t.entries ++ [(a, n)]⟩ := by
  have hany : t.entries.any (·.1 = a) = false := by
    refine List.any_eq_false.2 fun e he => ?_
    simpa using ne_of_node?_eq_none h e he
  simp [put, hany]

theorem put_put_of_free (h : t.node? a = none) (m n : Node) : (t.put a m).put a n = t.put a n := by
  have hfresh := ne_of_node?_eq_none h
  have hkept : (t.entries.map fun e => if e.1 = a then (a, n) else e) = t.entries.map id :=
    List.map_congr_left fun e he => if_neg (hfresh e he)
  rw [List.map_id] at hkept
  rw [put_of_free h, put_of_free h, put]
  simp [hkept]

theorem remove_put (h : t.node? a = none) (n : Node) : (t.put a n).remove a = t := by
  have hkept : t.entries.filter (·.1 ≠ a) = t.entries :=
    List.filter_eq_self.2 fun e he => by simpa using ne_of_node?_eq_none h e he
  rw [put_of_free h, remove, List.filter_append, hkept]
  simp

theorem slot_keeps_eq (hk : Keeps t t') {d : Location} (h : t.find cwd p.parent = .ok d)
    (hd : t.isDirectoryAt d = true) : t'.slot cwd p = t.slot cwd p := by
  have hf : t.follow (if p.isAbsolute then [] else cwd) p.names.dropLast = .ok d := (find_ok_iff.1 h).2
  unfold slot
  simp only [hf, follow_keeps hk hf, hd, (hk d).1 hd, bind, Except.bind]

end Tree

/-! ### Writing step by step -/

/-- The path of the temporary file whose name has the mark in it. -/
def temporaryWith (mark : String) (cwd : Location) (p : Path) : Path where
  anchor := if p.isAbsolute then p.anchor else .top
  names := p.parent.locationFrom cwd ++ ["." ++ p.name ++ "." ++ mark ++ ".tmp"]

/-- Writes a file in the steps that the system sees: the temporary file is made, filled and renamed, and it is taken
away if the renaming is refused.  Faults show the path with `temporaryMark` for the mark. -/
def writeBySteps (mark : String) (t : Tree) (cwd : Location) (p : Path) (content : String) :
    Except AccessFault Nat × Tree :=
  match ensureDirectory t cwd p.parent with
  | (.error f, t') => (.error f, t')
  | (.ok (), t') =>
    if p.hasNul then (.error .nulInPath, t')
    else match t'.createFile [] (temporaryWith mark cwd p) with
      | .error cause => (.error (refuse cause (temporaryPath cwd p)), t')
      | .ok (temporary, made) =>
        let filled := made.put temporary (.file content.toUTF8)
        match filled.rename temporary cwd p with
        | .error cause =>
          (.error (.refused ⟨cause, (temporaryPath cwd p).toString, some p.toString⟩), filled.remove temporary)
        | .ok renamed => (.ok content.toUTF8.size, renamed)

theorem length_temporaryName (n mark : String) :
    n.toList.length < ("." ++ n ++ "." ++ mark ++ ".tmp").toList.length := by
  have hdot : ".".toList.length = 1 := rfl
  simp only [String.toList_append, List.length_append, hdot]
  omega

/-- With the temporary file in it, the tree gives the path the same place to rename to. -/
theorem renameTarget_put {temporary : Location} {mark : String} {bytes : ByteArray}
    (habove : t.find cwd p.parent = .ok a) (hd : t.isDirectoryAt a = true) (hfree : t.node? temporary = none)
    (hlast : temporary.getLast? = some ("." ++ p.name ++ "." ++ mark ++ ".tmp")) :
    (t.put temporary (.file bytes)).renameTarget cwd p = t.renameTarget cwd p := by
  have hnil : temporary ≠ [] := by
    rintro rfl
    cases hlast
  have hkeeps : Keeps t (t.put temporary (.file bytes)) := (put_growsBy (P := fun _ _ => True) hnil hfree trivial).keeps
  unfold renameTarget
  rw [slot_keeps_eq hkeeps habove hd]
  cases hslot : t.slot cwd p with
  | error cause => rfl
  | ok place =>
    cases place with
    | none => rfl
    | some at_ =>
      -- the temporary file has a longer name than the file that it replaces
      have hne : at_ ≠ temporary := by
        rintro rfl
        obtain ⟨-, ns, n, d, hns, -, -, -, -, rfl⟩ := slot_some_iff.1 hslot
        have hname : p.name = n := by simp [Path.name, hns]
        rw [List.getLast?_concat, hname, Option.some.injEq] at hlast
        have hlength := length_temporaryName n mark
        rw [← hlast] at hlength
        exact Nat.lt_irrefl _ hlength
      have hsame : (t.put temporary (.file bytes)).isDirectoryAt at_ = t.isDirectoryAt at_ := by
        rw [isDirectoryAt, isDirectoryAt, node?_put _ _ _ _ (ne_nil_of_slot hslot), if_neg hne]
      simp only [bind, Except.bind, hsame]

/-- Writing step by step gives the same as writing at once, and the same tree, if nothing stands in the place of the
temporary file: whatever the mark is, the file is gone in the end. -/
theorem writeBySteps_eq {mark : String} (hsize : mark.utf8ByteSize = temporaryMark.utf8ByteSize)
    (hfree : (ensureDirectory t cwd p.parent).2.node? ((temporaryWith mark cwd p).locationFrom []) = none) :
    writeBySteps mark t cwd p content = writeAtomically t cwd p content := by
  unfold writeBySteps writeAtomically
  rcases hens : ensureDirectory t cwd p.parent with ⟨f | u, t'⟩
  · rfl
  rw [hens] at hfree
  obtain ⟨habove, hd⟩ := find_of_ensureDirectory hens
  simp only
  split
  · rfl
  have hsizes : ("." ++ p.name ++ "." ++ mark ++ ".tmp").utf8ByteSize =
      ("." ++ p.name ++ "." ++ temporaryMark ++ ".tmp").utf8ByteSize := by
    simp only [String.utf8ByteSize_append, hsize]
  -- a mark of the same size finds a place just as the usual mark does
  rcases slot_sibling t' [] (temporaryPath cwd p).anchor (p.parent.locationFrom cwd) (temporaryName_ne _ _)
    (temporaryName_ne _ _) hsizes with ⟨cause, htemporary, hslot⟩ | ⟨_, temporary, htemporary, hslot⟩
  · have hrefused : t'.slot [] (temporaryPath cwd p) = .error cause := htemporary
    have hmade : t'.createFile [] (temporaryWith mark cwd p) = .error cause := by
      have hslot : t'.slot [] (temporaryWith mark cwd p) = .error cause := hslot
      rw [createFile, hslot]
      rfl
    simp only [hrefused, hmade]
  · have hplace : t'.slot [] (temporaryPath cwd p) = .ok (some _) := htemporary
    have hslot : t'.slot [] (temporaryWith mark cwd p) = .ok (some temporary) := hslot
    -- nothing stands at the place of the temporary file, so it is made there
    have hfree : t'.node? temporary = none := location_of_slot hslot ▸ hfree
    have hmade : t'.createFile [] (temporaryWith mark cwd p) =
        .ok (temporary, t'.put temporary (.file ByteArray.empty)) := by
      simp [createFile, hslot, hfree, bind, Except.bind, pure, Except.pure]
    have hlast : temporary.getLast? = some ("." ++ p.name ++ "." ++ mark ++ ".tmp") := by
      have hname : (temporaryWith mark cwd p).names.getLast? = some ("." ++ p.name ++ "." ++ mark ++ ".tmp") :=
        List.getLast?_concat
      rw [location_of_slot hslot, Path.locationFrom_concat hname (temporaryName_ne _ _), List.getLast?_concat]
    have hfilled : (t'.put temporary (.file content.toUTF8)).node? temporary = some (.file content.toUTF8) := by
      rw [node?_put _ _ _ _ (ne_nil_of_slot hslot), if_pos rfl]
    simp only [hplace, hmade, put_put_of_free hfree, rename, hfilled, renameTarget_put habove hd hfree hlast,
      remove_put hfree]
    -- the target decides whether it is renamed or removed again
    cases t'.renameTarget cwd p <;> rfl

/-! ### The outcome of a writing -/

theorem writeAtomically_of_ensured (hens : ensureDirectory t cwd p.parent = (.ok (), t')) (h : Writable t' cwd p)
    (content : String) : writeAtomically t cwd p content = writeAtomically t' cwd p content := by
  unfold writeAtomically
  rw [hens, h.ensureDirectory]

/-- Writing a file, for every tree, path and text.  Either it returns the number of bytes: then the path leads to a file
with these bytes, everywhere else stands what stood there, and all that is new are directories above the path.  Or it
fails, and nothing has changed but for such directories.  It succeeds exactly if the directories above the path can be
made, the names are not too long, and no directory stands in the place of the file.  All this holds of the single steps
too: with a temporary file under whatever free name, the result and the tree are the same, so that the file is gone in
either case.

After a success the text is read with `LF` in place of every `CR LF` and of every other `CR`, and so it is read as it
is exactly if it has no `CR`. -/
theorem writeAtomically_replaces (t : Tree) (cwd : Location) (p : Path) (content : String) :
    ((∃ t', writeAtomically t cwd p content = (.ok content.toUTF8.size, t') ∧
        t'.find cwd p = .ok (p.locationFrom cwd) ∧
        t'.node? (p.locationFrom cwd) = some (.file content.toUTF8) ∧
        (∀ a, a ≠ p.locationFrom cwd →
          t'.node? a = t.node? a ∨ t.node? a = none ∧ t'.node? a = some .directory ∧ p.parent.Passes cwd a) ∧
        readText t' cwd p =
          .ok (String.ofList (replaceAll ['\r'] ['\n'] (replaceAll ['\r', '\n'] ['\n'] content.toList))) ∧
        (readText t' cwd p = .ok content ↔ '\r' ∉ content.toList)) ∨
      ∃ f t', writeAtomically t cwd p content = (.error f, t') ∧
        ∀ a, t'.node? a = t.node? a ∨ t.node? a = none ∧ t'.node? a = some .directory ∧ p.parent.Passes cwd a) ∧
    ((∃ t', writeAtomically t cwd p content = (.ok content.toUTF8.size, t')) ↔
      ∃ t', ensureDirectory t cwd p.parent = (.ok (), t') ∧ Writable t' cwd p ∧
        t'.isDirectoryAt (p.locationFrom cwd) = false) ∧
    ∀ mark : String, mark.utf8ByteSize = temporaryMark.utf8ByteSize →
      (ensureDirectory t cwd p.parent).2.node? ((temporaryWith mark cwd p).locationFrom []) = none →
      writeBySteps mark t cwd p content = writeAtomically t cwd p content := by
  have hadded : ∀ {t' : Tree} {a : Location}, (t'.node? a = t.node? a ∨
      t.node? a = none ∧ ∃ n, t'.node? a = some n ∧ WayOf cwd p.parent a n) →
      t'.node? a = t.node? a ∨ t.node? a = none ∧ t'.node? a = some .directory ∧ p.parent.Passes cwd a := by
    rintro t' a (hsame | ⟨hfree, n, hnew, rfl, hway⟩)
    · exact Or.inl hsame
    · exact Or.inr ⟨hfree, hnew, hway⟩
  refine ⟨?_, ⟨?_, ?_⟩, fun mark => writeBySteps_eq⟩
  · -- what a writing does, however it ends
    rcases writeAtomically_cases t cwd p content with ⟨f, t', h, hgrows⟩ | ⟨t', h, hwrites⟩
    · exact Or.inr ⟨f, t', h, fun a => hadded (hgrows a)⟩
    · have hwritable := writable_of_writeAtomically h
      have hread := readText_of_find hwritable.noNul hwrites.found hwrites.node
      refine Or.inl ⟨t', h, hwrites.found, hwrites.node, fun a ha => hadded (hwrites.around a ha), ?_, ?_⟩
      · rw [hread, unifyLineEnds_eq]
      · rw [hread, Except.ok.injEq, ← unifyLineEnds_eq_self_iff, ← String.toList_inj, String.toList_ofList]
  · -- when it succeeds
    rintro ⟨t', h⟩
    obtain ⟨t₁, hens, hwritable, hfile, -⟩ := exists_of_writeAtomically h
    exact ⟨t₁, hens, hwritable, hfile⟩
  · rintro ⟨t', hens, hwritable, hfile⟩
    rw [writeAtomically_of_ensured hens hwritable]
    exact hwritable.writeAtomically hfile content

/-- A tree with a note in a directory. -/
def noteTree : Tree := ⟨[(["srv"], .directory), (["srv", "note.txt"], .file "old".toUTF8)]⟩

/-- The note is replaced by way of a temporary file, which is gone afterwards, and read back without `CR`. -/
theorem writeAtomically_replaces_note : ∃ t',
    writeBySteps "k3v_0q9z" noteTree ["srv"] ⟨.here, ["note.txt"]⟩ "one\r\ntwo\r" = (.ok 9, t') ∧
    t'.node? ["srv", "note.txt"] = some (.file "one\r\ntwo\r".toUTF8) ∧
    t'.node? ["srv", ".note.txt.k3v_0q9z.tmp"] = none ∧
    readText t' ["srv"] ⟨.here, ["note.txt"]⟩ = .ok "one\ntwo\n" := by
  obtain ⟨houtcome, -, hsteps⟩ := writeAtomically_replaces noteTree ["srv"] ⟨.here, ["note.txt"]⟩ "one\r\ntwo\r"
  have hsteps := hsteps "k3v_0q9z" (by decide +kernel) (by decide +kernel)
  rcases houtcome with ⟨t', h, -, hnode, haround, hread, -⟩ | ⟨f, t', h, -⟩
  · have hsize : "one\r\ntwo\r".toUTF8.size = 9 := by decide
    have hunified : String.ofList (replaceAll ['\r'] ['\n'] (replaceAll ['\r', '\n'] ['\n']
        "one\r\ntwo\r".toList)) = "one\ntwo\n" := by decide
    rw [hsize] at h
    rw [hunified] at hread
    refine ⟨t', hsteps.trans h, hnode, ?_, hread⟩
    rcases haround ["srv", ".note.txt.k3v_0q9z.tmp"] (by decide) with hsame | ⟨-, -, ns, hns, hplace⟩
    · rw [hsame]
      decide
    · obtain rfl := List.prefix_nil.1 hns
      exact absurd hplace (by decide)
  · have hwritten : (writeAtomically noteTree ["srv"] ⟨.here, ["note.txt"]⟩ "one\r\ntwo\r").1 = .ok 9 := by
      decide +kernel
    rw [h] at hwritten
    cases hwritten

end CrudScaffold.Files
