import CrudScaffold.Proofs.Files.Walk

/-!
# CrudScaffold.Proofs.Files.Growth — what the file operations change

`GrowsBy P t t'` says that `t'` differs from `t` only where nothing stood, and that all that is new satisfies `P`.
Creating directories and touching a file only let the tree grow, whether they succeed or not
(`ensureDirectory_growsBy`, `touch_growsBy`).  Writing a file does so too until its last step, which puts the content
at the place of the path (`writeAtomically_cases`).
-/

namespace CrudScaffold.Files

namespace Tree

variable {P Q : Location → Node → Prop} {t t' t₁ t₂ t₃ : Tree} {cwd at_ : Location} {p : Path}

/-- `t'` differs from `t` only where nothing stood, and what is new satisfies `P`. -/
def GrowsBy (P : Location → Node → Prop) (t t' : Tree) : Prop :=
  ∀ a, t'.node? a = t.node? a ∨ t.node? a = none ∧ ∃ n, t'.node? a = some n ∧ P a n

namespace GrowsBy

theorem refl (P : Location → Node → Prop) (t : Tree) : GrowsBy P t t := fun _ => Or.inl rfl

theorem node (h : GrowsBy P t t') {a : Location} {n : Node} (hn : t.node? a = some n) : t'.node? a = some n := by
  rcases h a with h | ⟨h, -⟩
  · rw [h, hn]
  · rw [h] at hn
    cases hn

theorem trans (h : GrowsBy P t₁ t₂) (h' : GrowsBy P t₂ t₃) : GrowsBy P t₁ t₃ := by
  intro a
  rcases h a with h₁ | ⟨h₁, n, hn, hP⟩
  · rw [← h₁]
    exact h' a
  · exact Or.inr ⟨h₁, n, h'.node hn, hP⟩

theorem mono (h : GrowsBy P t t') (hPQ : ∀ a n, P a n → Q a n) : GrowsBy Q t t' := by
  intro a
  rcases h a with h | ⟨h, n, hn, hP⟩
  · exact Or.inl h
  · exact Or.inr ⟨h, n, hn, hPQ a n hP⟩

theorem keeps (h : GrowsBy P t t') : Keeps t t' := by
  intro a
  refine ⟨fun hd => ?_, fun hn => ?_⟩
  · have hd' : t.node? a = some .directory := by simpa [isDirectoryAt] using hd
    simp [isDirectoryAt, h.node hd']
  · obtain ⟨n, hn⟩ := Option.isSome_iff_exists.1 hn
    simp [h.node hn]

end GrowsBy

theorem put_growsBy {n : Node} (hnil : at_ ≠ []) (hfree : t.node? at_ = none) (hP : P at_ n) :
    GrowsBy P t (t.put at_ n) := by
  intro a
  by_cases ha : a = []
  · subst ha
    exact Or.inl (by simp [node?])
  · rw [node?_put _ _ _ _ ha]
    by_cases h : a = at_
    · subst h
      exact Or.inr ⟨hfree, n, by simp, hP⟩
    · exact Or.inl (by simp [h])

/-- Putting a file where no directory stands takes away nothing but the content of another file. -/
theorem put_file_keeps {bytes : ByteArray} (hfile : t.isDirectoryAt at_ = false) :
    Keeps t (t.put at_ (.file bytes)) := by
  intro a
  by_cases hnil : a = []
  · subst hnil
    simp [isDirectoryAt, node?]
  simp only [isDirectoryAt, node?_put _ _ _ _ hnil]
  by_cases ha : a = at_
  · subst ha
    refine ⟨fun h => ?_, fun _ => by simp⟩
    simp [isDirectoryAt] at hfile
    simp [hfile] at h
  · simp [ha]

/-! ### Directories -/

/-- A new directory on the way of a path. -/
def WayOf (cwd : Location) (p : Path) (a : Location) (n : Node) : Prop := n = .directory ∧ p.Passes cwd a

theorem makeDirectory_ok (h : t.makeDirectory cwd p = .ok t') :
    t.slot cwd p = .ok (some (p.locationFrom cwd)) ∧ t.node? (p.locationFrom cwd) = none ∧
      t' = t.put (p.locationFrom cwd) .directory := by
  unfold makeDirectory at h
  cases hs : t.slot cwd p with
  | error e => rw [hs] at h; cases h
  | ok a? =>
    rw [hs] at h
    cases a? with
    | none => cases h
    | some a =>
      obtain rfl := location_of_slot hs
      simp only [bind, Except.bind] at h
      split at h
      · cases h
      · rename_i hnode
        cases h
        exact ⟨rfl, by simpa using hnode, rfl⟩

theorem makeDirectory_growsBy (h : t.makeDirectory cwd p = .ok t') : GrowsBy (WayOf cwd p) t t' := by
  obtain ⟨hs, hfree, rfl⟩ := makeDirectory_ok h
  exact put_growsBy (ne_nil_of_slot hs) hfree ⟨rfl, p.names, List.prefix_refl _, rfl⟩

theorem find_of_makeDirectory (h : t.makeDirectory cwd p = .ok t') :
    t'.find cwd p = .ok (p.locationFrom cwd) ∧ t'.isDirectoryAt (p.locationFrom cwd) = true := by
  have hk := (makeDirectory_growsBy h).keeps
  obtain ⟨hs, -, rfl⟩ := makeDirectory_ok h
  have hthere : (t.put (p.locationFrom cwd) .directory).node? (p.locationFrom cwd) = some .directory := by
    rw [node?_put _ _ _ _ (ne_nil_of_slot hs), if_pos rfl]
  obtain ⟨hsize, ns, n, d, hns, hf, hd, hn, hlen, heq⟩ := slot_some_iff.1 hs
  refine ⟨find_ok_iff.2 ⟨hsize, ?_⟩, by simp [isDirectoryAt, hthere]⟩
  rw [hns, heq]
  exact follow_concat (follow_keeps (heq ▸ hk) hf) hn ((heq ▸ hk : Keeps t _) d |>.1 hd) hlen
    (by rw [← heq, hthere]; rfl)

end Tree

open CrudScaffold.Files.Tree

variable {t t' : Tree} {cwd : Location} {p : Path}

theorem isDirectory_ok (h : isDirectory t cwd p = .ok true) :
    t.find cwd p = .ok (p.locationFrom cwd) ∧ t.isDirectoryAt (p.locationFrom cwd) = true := by
  unfold isDirectory look at h
  split at h
  · cases h
  · cases hf : t.find cwd p with
    | error e =>
      rw [hf] at h
      cases e <;> cases h
    | ok a =>
      obtain rfl := location_of_find hf
      rw [hf] at h
      refine ⟨rfl, ?_⟩
      simp only [bind, Except.bind] at h
      split at h
      · rename_i hd
        simp [isDirectoryAt, hd]
      · cases h

theorem accept_ok {cause : Cause} (h : ensureNames.accept cwd t p cause = .ok ()) : isDirectory t cwd p = .ok true := by
  unfold ensureNames.accept at h
  cases hd : isDirectory t cwd p with
  | error f => rw [hd] at h; cases h
  | ok b =>
    rw [hd] at h
    cases b with
    | false => cases h
    | true => rfl

/-- The ways in which the creation of a directory ends: it is made at once, it is made after those above it, or it is
accepted as it stands or refused. -/
theorem ensureNames_cases (anchor : Anchor) (cwd : Location) (t : Tree) (count : Nat) (names : List String) :
    (∃ t', t.makeDirectory cwd ⟨anchor, names⟩ = .ok t' ∧ ensureNames anchor cwd t count names = (.ok (), t')) ∨
    (∃ k f t', count = k + 1 ∧ ensureNames anchor cwd t k names.dropLast = (.error f, t') ∧
      ensureNames anchor cwd t count names = (.error f, t')) ∨
    (∃ k t' t'', count = k + 1 ∧ ensureNames anchor cwd t k names.dropLast = (.ok (), t') ∧
      t'.makeDirectory cwd ⟨anchor, names⟩ = .ok t'' ∧ ensureNames anchor cwd t count names = (.ok (), t'')) ∨
    (∃ k t' cause, count = k + 1 ∧ ensureNames anchor cwd t k names.dropLast = (.ok (), t') ∧
      ensureNames anchor cwd t count names = (ensureNames.accept cwd t' ⟨anchor, names⟩ cause, t')) ∨
    (∃ cause, ensureNames anchor cwd t count names = (ensureNames.accept cwd t ⟨anchor, names⟩ cause, t)) ∨
    ensureNames anchor cwd t count names = (.error (refuse .noSuchFile ⟨anchor, names⟩), t) := by
  -- the directory can be made, or the reason why not decides what is tried
  cases hm : t.makeDirectory cwd ⟨anchor, names⟩ with
  | ok t' =>
    refine Or.inl ⟨t', rfl, ?_⟩
    cases count <;> simp only [ensureNames, hm]
  | error cause =>
    right
    by_cases hcause : cause = .noSuchFile
    · subst hcause
      cases count with
      | zero =>
        exact Or.inr (Or.inr (Or.inr (Or.inr (by simp only [ensureNames, hm]))))
      | succ k =>
        -- those above are made first, and then it is tried once more
        rcases hrec : ensureNames anchor cwd t k names.dropLast with ⟨f | u, t'⟩
        · exact Or.inl ⟨k, f, t', rfl, hrec, by simp only [ensureNames, hm, hrec]⟩
        · right
          cases hm' : t'.makeDirectory cwd ⟨anchor, names⟩ with
          | ok t'' => exact Or.inl ⟨k, t', t'', rfl, hrec, hm', by simp only [ensureNames, hm, hrec, hm']⟩
          | error cause' =>
            exact Or.inr (Or.inl ⟨k, t', cause', rfl, hrec, by simp only [ensureNames, hm, hrec, hm']⟩)
    · refine Or.inr (Or.inr (Or.inr (Or.inl ⟨cause, ?_⟩)))
      cases count <;> cases cause <;> first | exact absurd rfl hcause | simp only [ensureNames, hm]

/-- Creating a directory and those above it adds directories on the way, also when it fails half-way.  The induction
is on the number of names that may still be taken off. -/
theorem ensureNames_growsBy (anchor : Anchor) (cwd : Location) (t : Tree) (count : Nat) (names : List String) :
    GrowsBy (WayOf cwd ⟨anchor, names⟩) t (ensureNames anchor cwd t count names).2 := by
  induction count using Nat.strongRecOn generalizing names with
  | ind count ih =>
    -- the directories above are on the way of the path too
    have habove : ∀ {k r t'}, count = k + 1 → ensureNames anchor cwd t k names.dropLast = (r, t') →
        GrowsBy (WayOf cwd ⟨anchor, names⟩) t t' := by
      intro k r t' hk hrec
      have h := ih k (by omega) names.dropLast
      rw [hrec] at h
      exact h.mono fun a n h => ⟨h.1, Path.passes_of_parent (p := ⟨anchor, names⟩) h.2⟩
    -- one case for each way the making ends
    rcases ensureNames_cases anchor cwd t count names with ⟨t', hm, h⟩ | ⟨k, f, t', hk, hrec, h⟩ |
      ⟨k, t', t'', hk, hrec, hm, h⟩ | ⟨k, t', cause, hk, hrec, h⟩ | ⟨cause, h⟩ | h <;> rw [h]
    · exact makeDirectory_growsBy hm
    · exact habove hk hrec
    · exact (habove hk hrec).trans (makeDirectory_growsBy hm)
    · exact habove hk hrec
    · exact GrowsBy.refl _ _
    · exact GrowsBy.refl _ _

theorem ensureDirectory_growsBy (t : Tree) (cwd : Location) (p : Path) :
    GrowsBy (WayOf cwd p) t (ensureDirectory t cwd p).2 := by
  unfold ensureDirectory
  split
  · exact GrowsBy.refl _ _
  · exact ensureNames_growsBy _ _ _ _ _

/-- A directory that has been ensured is found.  The last step of every success has made it or has seen it. -/
theorem find_of_ensureDirectory (h : ensureDirectory t cwd p = (.ok (), t')) :
    t'.find cwd p = .ok (p.locationFrom cwd) ∧ t'.isDirectoryAt (p.locationFrom cwd) = true := by
  unfold ensureDirectory at h
  split at h
  · cases h
  -- it was made, or what is there was seen to be a directory
  rcases ensureNames_cases p.anchor cwd t p.names.length p.names with ⟨t₁, hm, h'⟩ | ⟨k, f, t₁, -, -, h'⟩ |
    ⟨k, t₁, t₂, -, -, hm, h'⟩ | ⟨k, t₁, cause, -, -, h'⟩ | ⟨cause, h'⟩ | h' <;> rw [h'] at h
  · cases h
    exact find_of_makeDirectory hm
  · cases h
  · cases h
    exact find_of_makeDirectory hm
  · obtain ⟨hx, rfl⟩ := Prod.mk.inj h
    exact isDirectory_ok (accept_ok hx)
  · obtain ⟨hx, rfl⟩ := Prod.mk.inj h
    exact isDirectory_ok (accept_ok hx)
  · cases h

/-! ### Files -/

/-- A new empty file at the end of a path. -/
def EmptyAt (cwd : Location) (p : Path) (a : Location) (n : Node) : Prop :=
  n = .file ByteArray.empty ∧ a = p.locationFrom cwd

theorem openFile_ok {at_ : Location} (h : t.openFile cwd p = .ok (at_, t')) :
    t.slot cwd p = .ok (some at_) ∧ (t'.node? at_).isSome ∧ GrowsBy (EmptyAt cwd p) t t' := by
  unfold openFile at h
  cases hs : t.slot cwd p with
  | error e => rw [hs] at h; cases h
  | ok a? =>
    rw [hs] at h
    cases a? with
    | none => cases h
    | some a =>
      simp only [bind, Except.bind] at h
      split at h
      · rename_i hnode
        cases h
        have hnil := ne_nil_of_slot hs
        exact ⟨rfl, by simp [node?_put _ _ _ _ hnil], put_growsBy hnil hnode ⟨rfl, location_of_slot hs⟩⟩
      · rename_i hnode
        cases h
        exact ⟨rfl, by simp [hnode], GrowsBy.refl _ _⟩
      · cases h

theorem touch_growsBy (t : Tree) (cwd : Location) (p : Path) : GrowsBy (EmptyAt cwd p) t (touch t cwd p).2 := by
  unfold touch
  split
  · exact GrowsBy.refl _ _
  split
  · exact GrowsBy.refl _ _
  split
  · rename_i hopen
    exact (openFile_ok hopen).2.2
  · exact GrowsBy.refl _ _

theorem renameTarget_ok {at_ : Location} (h : t.renameTarget cwd p = .ok at_) :
    t.slot cwd p = .ok (some at_) ∧ t.isDirectoryAt at_ = false := by
  unfold renameTarget at h
  cases hs : t.slot cwd p with
  | error e => rw [hs] at h; cases h
  | ok a? =>
    rw [hs] at h
    cases a? with
    | none => cases h
    | some a =>
      simp only [bind, Except.bind] at h
      split at h
      · cases h
      · rename_i hd
        cases h
        exact ⟨rfl, by simpa using hd⟩

/-- What a successful writing does: it makes the directories above the path, and then puts the content where the path
leads, which is no directory. -/
structure Writes (cwd : Location) (p : Path) (content : String) (t t' : Tree) : Prop where
  /-- Away from the place of the path, only new directories on the way. -/
  around : ∀ a, a ≠ p.locationFrom cwd →
    t'.node? a = t.node? a ∨ t.node? a = none ∧ ∃ n, t'.node? a = some n ∧ WayOf cwd p.parent a n
  node : t'.node? (p.locationFrom cwd) = some (.file content.toUTF8)
  /-- No directory is lost. -/
  keeps : Keeps t t'
  found : t'.find cwd p = .ok (p.locationFrom cwd)

/-- Writing a file ends in one of two ways: the tree has got new directories only, or the content is in its place. -/
theorem writeAtomically_cases (t : Tree) (cwd : Location) (p : Path) (content : String) :
    (∃ f t', writeAtomically t cwd p content = (.error f, t') ∧ GrowsBy (WayOf cwd p.parent) t t') ∨
    (∃ t', writeAtomically t cwd p content = (.ok content.toUTF8.size, t') ∧ Writes cwd p content t t') := by
  unfold writeAtomically
  have hgrow := ensureDirectory_growsBy t cwd p.parent
  rcases hens : ensureDirectory t cwd p.parent with ⟨f | u, t'⟩ <;> rw [hens] at hgrow
  · exact Or.inl ⟨f, t', rfl, hgrow⟩
  -- the name, the temporary file and the target are looked at before anything is written
  simp only at hgrow ⊢
  split
  · exact Or.inl ⟨_, _, rfl, hgrow⟩
  split
  · exact Or.inl ⟨_, _, rfl, hgrow⟩
  split
  · exact Or.inl ⟨_, _, rfl, hgrow⟩
  rename_i at_ htarget
  obtain ⟨hs, hdir⟩ := renameTarget_ok htarget
  obtain rfl := location_of_slot hs
  have hnil := ne_nil_of_slot hs
  have hkeeps : Keeps t' (t'.put (p.locationFrom cwd) (.file content.toUTF8)) := put_file_keeps hdir
  have hnode : (t'.put (p.locationFrom cwd) (.file content.toUTF8)).node? (p.locationFrom cwd) =
      some (.file content.toUTF8) := by rw [node?_put _ _ _ _ hnil, if_pos rfl]
  refine Or.inr ⟨_, rfl, fun a ha => ?_, hnode, hgrow.keeps.trans hkeeps, ?_⟩
  · -- elsewhere only the directories above are new
    by_cases htop : a = []
    · subst htop
      exact Or.inl (by simp [node?])
    · rw [node?_put _ _ _ _ htop, if_neg ha]
      exact hgrow a
  · exact find_of_slot (slot_keeps hkeeps hs) (by rw [hnode]; rfl)

end CrudScaffold.Files
