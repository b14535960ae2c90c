import CrudScaffold.Proofs.Backend.Choices
import CrudScaffold.Proofs.Files.Lookup

/-!
# CrudScaffold.Proofs.Backend.Planning — a path is chosen alike in a tree that has grown

A dry run chooses paths in the tree as it was, a real run in the tree as it has become.  The path of a class comes out
the same (`classIn_retains`).  So does the moment of a migration, unless a name that begins with a stamp is in the way
of one of the two runs and not of the other (`momentIn_retains`).
-/

namespace CrudScaffold.Backend

open CrudScaffold.Calendar CrudScaffold.Files CrudScaffold.Naming CrudScaffold.Text
open CrudScaffold.Files.Tree

/-! ### The search for a moment -/

/-- The moment is met by a search that starts at `start`. -/
def Met (start m : Moment) : Prop := m = start ∨ start.Follows m

/-- What stands in the way of an earlier moment stands in the way of no later one. -/
theorem any_besides {m k : Moment} (h : m.Follows k) (taken : List String) :
    (besides m taken).any (beginsWith k.stamp) = taken.any (beginsWith k.stamp) := by
  rw [Bool.eq_iff_iff, List.any_eq_true, List.any_eq_true]
  constructor
  · rintro ⟨n, hn, hbegins⟩
    exact ⟨n, (List.mem_filter.1 hn).1, hbegins⟩
  · rintro ⟨n, hn, hbegins⟩
    have hm : ¬beginsWith m.stamp n = true := fun hm => by
      rw [Moment.not_beginsWith_of_follows h hm] at hbegins
      cases hbegins
    exact ⟨n, List.mem_filter.2 ⟨hn, by simpa using hm⟩, hbegins⟩

/-- The search depends on nothing but which of the moments it meets are taken. -/
theorem firstFree_congr {taken taken' : List String} {m : Moment}
    (h : ∀ k, Met m k → taken.any (beginsWith k.stamp) = taken'.any (beginsWith k.stamp)) :
    firstFree taken m = firstFree taken' m := by
  -- the induction is on the names that are left
  induction taken, m using firstFree.induct generalizing taken' with
  | case1 taken m hany hnext =>
    have hany' : taken'.any (beginsWith m.stamp) = true := h m (Or.inl rfl) ▸ hany
    rw [firstFree, dif_pos hany, hnext, firstFree, dif_pos hany', hnext]
  | case2 taken m hany later hnext ih =>
    have hany' : taken'.any (beginsWith m.stamp) = true := h m (Or.inl rfl) ▸ hany
    rw [firstFree, dif_pos hany, hnext]
    conv => rhs; rw [firstFree, dif_pos hany', hnext]
    refine ih fun k hk => ?_
    have hfollows : m.Follows k := by
      rcases hk with rfl | hk
      · exact Moment.follows_next hnext
      · exact (Moment.follows_next hnext).trans hk
    rw [any_besides hfollows, any_besides hfollows]
    exact h k (Or.inr hfollows)
  | case3 taken m hany =>
    have hany' : ¬taken'.any (beginsWith m.stamp) = true := h m (Or.inl rfl) ▸ hany
    rw [firstFree, dif_neg hany, firstFree, dif_neg hany']

/-- Two searches from one moment end alike, or a name begins with the stamp of a moment that they meet and is in the
way of only one of them. -/
theorem firstFree_eq_or (taken taken' : List String) (start : Moment) :
    firstFree taken start = firstFree taken' start ∨
      ∃ m n, Met start m ∧ beginsWith m.stamp n = true ∧ ¬(n ∈ taken ↔ n ∈ taken') := by
  by_cases h : ∃ m n, Met start m ∧ beginsWith m.stamp n = true ∧ ¬(n ∈ taken ↔ n ∈ taken')
  · exact Or.inr h
  refine Or.inl (firstFree_congr fun k hk => ?_)
  have hsame : ∀ n, beginsWith k.stamp n = true → (n ∈ taken ↔ n ∈ taken') := fun n hn =>
    Classical.byContradiction fun hne => h ⟨k, n, hk, hn, hne⟩
  rw [Bool.eq_iff_iff, List.any_eq_true, List.any_eq_true]
  constructor
  · rintro ⟨n, hmem, hn⟩
    exact ⟨n, (hsame n hn).1 hmem, hn⟩
  · rintro ⟨n, hmem, hn⟩
    exact ⟨n, (hsame n hn).2 hmem, hn⟩

/-- No search goes back behind the reading of the clock. -/
theorem not_earlier_of_met {last : Option Moment} {reading start m : Moment}
    (hstart : stampAfter last reading = some start) (hm : Met start m) : m.earlier reading = false := by
  have hirrefl : ∀ k : Moment, k.earlier k = false := fun k => by simp [Moment.earlier]
  -- the start is the reading, or the moment after a stamp that is not before it
  have hnot : start.earlier reading = false := by
    unfold stampAfter at hstart
    split at hstart
    · obtain rfl := Option.some.inj hstart
      exact hirrefl _
    · split at hstart
      · obtain rfl := Option.some.inj hstart
        exact hirrefl _
      · rename_i k hk
        refine Bool.eq_false_iff.2 fun hearlier => hk ?_
        exact Moment.earlier_trans (Moment.follows_next hstart).1 hearlier
  rcases hm with rfl | hm
  · exact hnot
  · refine Bool.eq_false_iff.2 fun hearlier => ?_
    rw [Moment.earlier_trans hm.1 hearlier] at hnot
    cases hnot

/-! ### Listings -/

theorem namesIn_retains {t t' : Tree} {cwd : Location} {directory : Path} {names' : List String} (h : Retains t t')
    (hp : directory.isAbsolute = true) (hlist : namesIn t' cwd directory = .ok names') :
    ∃ names, namesIn t cwd directory = .ok names ∧ names ⊆ names' := by
  obtain ⟨hnul, hfound⟩ := namesIn_eq_ok_iff.1 hlist
  by_cases hne : t.find cwd directory = .error .noSuchFile
  · exact ⟨[], namesIn_eq_ok_iff.2 ⟨hnul, Or.inl ⟨hne, rfl⟩⟩, List.nil_subset _⟩
  have hsame := find_retains h hp hne
  rcases hfound with ⟨hmissing, -⟩ | ⟨a, ha, hd, rfl⟩
  · exact absurd (hsame ▸ hmissing) hne
  · rw [hsame] at ha
    rw [h.isDirectoryAt (reached_of_find hp ha).node] at hd
    refine ⟨_, namesIn_eq_ok_iff.2 ⟨hnul, Or.inr ⟨a, ha, hd, rfl⟩⟩, fun n hn => ?_⟩
    exact mem_childNames_iff.2 (h.node (mem_childNames_iff.1 hn))

/-! ### Choices -/

/-- A path that a class takes in the tree that has grown, it would have taken before. -/
theorem classIn_retains {l : Layout} (hroot : l.root.isAbsolute = true) {b d : Bench} {kind : ArtifactKind}
    {name : String} {p : Path} (h : Retains d.tree b.tree) (hcwd : d.cwd = b.cwd) (hp : classIn l b kind name = .ok p)
    (hkind : kind ≠ .migration) : classIn l d kind name = .ok p := by
  obtain ⟨hclass, found', hseen', hmay'⟩ := classIn_ok hp
  have hassigned : Assigns l kind name p := by
    rw [Assigns, if_neg hkind]
    exact hclass
  obtain ⟨found, hseen, hstill⟩ := pathExists_retains h (hassigned.isAbsolute hroot) hseen'
  have hblocked : ¬(found && !l.settings.overwrite) = true := by
    intro hblocked
    obtain ⟨hfound, hkeep⟩ := Bool.and_eq_true_iff.1 hblocked
    rw [hmay' (hstill hfound)] at hkeep
    cases hkeep
  simp only [classIn, hclass, hcwd, hseen, hblocked]
  rfl

/-- A moment that a migration takes in the tree that has grown, it would have taken before beside the planned names.
Else a name that begins with a stamp is listed now, but was neither listed nor planned; or it is planned and not
listed. -/
theorem momentIn_retains {l : Layout} (hroot : l.root.isAbsolute = true) {b d : Bench} (planned : List String)
    {m : Moment} (h : Retains d.tree b.tree) (hcwd : d.cwd = b.cwd) (hclock : d.clock = b.clock)
    (hreadings : d.readings = b.readings) (hlast : d.lastStamp = b.lastStamp) (hm : momentIn l b [] = .ok m) :
    momentIn l d planned = .ok m ∨ ∃ names names', namesIn d.tree b.cwd (l.directory .migration) = .ok names ∧
      namesIn b.tree b.cwd (l.directory .migration) = .ok names' ∧
      ∃ (k : Moment) (n : String), k.earlier (b.clock b.readings) = false ∧ beginsWith k.stamp n = true ∧
        (n ∈ names' ∧ n ∉ names ∧ n ∉ planned ∨ n ∉ names' ∧ n ∈ planned) := by
  obtain ⟨start, names', hstart, hnames', hfree⟩ := momentIn_ok hm
  obtain ⟨names, hnames, hsubset⟩ := namesIn_retains h (isAbsolute_directory hroot .migration) hnames'
  rw [List.append_nil] at hfree
  rcases firstFree_eq_or names' (names ++ planned) start with hsame | ⟨k, n, hmet, hbegins, hdiffer⟩
  · left
    -- both searches end at the same moment
    rw [hsame] at hfree
    simp only [momentIn, hclock, hreadings, hlast, hstart, hcwd, hnames, hfree]
  · refine Or.inr ⟨names, names', hnames, hnames', k, n, not_earlier_of_met hstart hmet, hbegins, ?_⟩
    -- the name is in the way of one search only; which one, the tree of the run says
    rw [List.mem_append] at hdiffer
    by_cases hreal : n ∈ names'
    · have hdry : ¬(n ∈ names ∨ n ∈ planned) := fun hmem => hdiffer (iff_of_true hreal hmem)
      exact Or.inl ⟨hreal, not_or.1 hdry⟩
    · have hdry : n ∈ names ∨ n ∈ planned := Classical.byContradiction fun hmem => hdiffer (iff_of_false hreal hmem)
      exact Or.inr ⟨hreal, hdry.resolve_left fun hn => hreal (hsubset hn)⟩

end CrudScaffold.Backend
