import CrudScaffold.Proofs.Files.Walk
import CrudScaffold.Proofs.Text.Cutting

/-!
# CrudScaffold.Proofs.Files.Names — the entries of a directory

A name without slashes gives the path of one entry (`names_child`), and the names that a listing gives are those of
all entries (`mem_childNames`).
-/

namespace CrudScaffold.Files

open CrudScaffold.Text

namespace Path

/-- A name that stands for one entry of a directory. -/
def IsName (n : String) : Prop := '/' ∉ n.toList ∧ n ≠ "" ∧ n ≠ "." ∧ n ≠ ".."

theorem ofString_of_isName {n : String} (h : IsName n) : ofString n = ⟨.here, [n]⟩ := by
  obtain ⟨hslash, hempty, hdot, -⟩ := h
  have hnames : namesOf n = [n] := by simp [namesOf, splitAll, cutAll_of_notMem hslash, hempty, hdot]
  unfold ofString
  rw [hnames]
  split <;> simp_all

theorem child_of_isName (p : Path) {n : String} (h : IsName n) : p.child n = ⟨p.anchor, p.names ++ [n]⟩ := by
  simp [child, join, ofString_of_isName h, isAbsolute]

/-- Names that are joined by slashes are read again. -/
theorem namesOf_intercalate {ns : List String} (hne : ns ≠ []) (h : ∀ n ∈ ns, IsName n) :
    namesOf ("/".intercalate ns) = ns := by
  have hnoslash : ∀ cs ∈ ns.map String.toList, '/' ∉ cs := by
    intro cs hcs
    obtain ⟨n, hn, rfl⟩ := List.mem_map.1 hcs
    exact (h n hn).1
  have hcut : splitAll '/' ("/".intercalate ns) = ns := by
    rw [splitAll, String.toList_intercalate, show "/".toList = ['/'] from rfl,
      cutAll_intercalate (by simpa using hne) hnoslash]
    simp [List.map_map, Function.comp_def]
  rw [namesOf, hcut]
  refine List.filter_eq_self.2 fun n hn => ?_
  obtain ⟨-, hempty, hdot, -⟩ := h n hn
  simp [hempty, hdot]

theorem parent_child (p : Path) {n : String} (h : IsName n) : (p.child n).parent = p := by
  simp [child_of_isName p h, parent]

theorem getLast_child (p : Path) {n : String} (h : IsName n) : (p.child n).names.getLast? = some n := by
  simp [child_of_isName p h]

/-- A text that does not begin with a slash adds its names to a path. -/
theorem child_of_relative (p : Path) {s : String} (h : s.toList.head? ≠ some '/') :
    p.child s = ⟨p.anchor, p.names ++ namesOf s⟩ := by
  have hanchor : (ofString s).anchor = .here := by
    unfold ofString
    split
    · rename_i hs
      exact absurd (by rw [hs]; rfl) h
    · rename_i hs
      exact absurd (by rw [hs]; rfl) h
    · rename_i hs
      exact absurd (by rw [hs]; rfl) h
    · rfl
  have hrelative : (ofString s).isAbsolute = false := by simp [isAbsolute, hanchor]
  rw [child, join, if_neg (by simp [hrelative])]
  rfl

/-- The names of a path below a directory are those of the directory and those that have been added. -/
theorem mem_names_child {p : Path} {s n : String} (h : n ∈ (p.child s).names) (hs : '/' ∉ s.toList) :
    n ∈ p.names ∨ n = s := by
  have hnew : n ∈ (ofString s).names → n = s := by
    intro hmem
    have hmem := (List.mem_filter.1 hmem).1
    rw [splitAll, cutAll_of_notMem hs] at hmem
    simpa using hmem
  unfold child join at h
  split at h
  · exact Or.inr (hnew h)
  · exact (List.mem_append.1 h).imp_right hnew

/-- An entry of a directory stands in the place of the directory. -/
theorem locationFrom_child (cwd : Location) (p : Path) {n : String} (h : IsName n) :
    (p.child n).locationFrom cwd = p.locationFrom cwd ++ [n] := by
  rw [locationFrom_concat (getLast_child p h) h.2.2.2, parent_child p h]

theorem hasNul_of_parent {p : Path} (h : p.parent.hasNul = true) : p.hasNul = true := by
  obtain ⟨n, hn, hnul⟩ := List.any_eq_true.1 h
  exact List.any_eq_true.2 ⟨n, List.dropLast_subset _ hn, hnul⟩

theorem hasNul_child (p : Path) {n : String} (h : IsName n) :
    (p.child n).hasNul = (p.hasNul || n.toList.any fun c => c.toNat = 0) := by
  simp [child_of_isName p h, hasNul]

end Path

namespace Tree

variable {t : Tree}

theorem mem_of_lookup {es : List (Location × Node)} {a : Location} {n : Node} (h : es.lookup a = some n) :
    (a, n) ∈ es := by
  obtain ⟨front, back, rfl, -⟩ := List.lookup_eq_some_iff.1 h
  simp

theorem mem_of_node {a : Location} {n : Node} (ha : a ≠ []) (h : t.node? a = some n) : (a, n) ∈ t.entries := by
  rw [node?, if_neg ha] at h
  exact mem_of_lookup h

/-- Whether everything in a tree stands in a directory can be read off its entries. -/
theorem closed_of_entries (h : ∀ e ∈ t.entries, t.isDirectoryAt e.1.dropLast = true) : t.Closed := by
  intro a n hthere
  obtain ⟨m, hm⟩ := Option.isSome_iff_exists.1 hthere
  have hparent := h _ (mem_of_node (by simp) hm)
  rw [List.dropLast_concat] at hparent
  exact hparent

/-- The name of everything that stands in a place is listed there. -/
theorem mem_childNames {a : Location} {n : String} (h : (t.node? (a ++ [n])).isSome) : n ∈ t.childNames a := by
  obtain ⟨m, hm⟩ := Option.isSome_iff_exists.1 h
  refine List.mem_filterMap.2 ⟨_, mem_of_node (by simp) hm, ?_⟩
  simp

/-- What stands in a place are the entries with the names that are listed there. -/
theorem mem_childNames_iff {a : Location} {n : String} : n ∈ t.childNames a ↔ (t.node? (a ++ [n])).isSome := by
  refine ⟨fun h => ?_, mem_childNames⟩
  obtain ⟨e, he, hname⟩ := List.mem_filterMap.1 h
  cases hlast : e.1.getLast? with
  | none =>
    rw [hlast] at hname
    cases hname
  | some k =>
    rw [hlast] at hname
    simp only [Option.ite_none_right_eq_some, Option.some.injEq] at hname
    obtain ⟨rfl, rfl⟩ := hname
    -- an entry whose last name is `n` stands right below `a`
    have hplace : e.1.dropLast ++ [k] = e.1 := List.dropLast_append_getLast? k hlast
    rw [hplace, node?]
    split
    · rfl
    · exact lookup_isSome_of_any (List.any_eq_true.2 ⟨e, he, by simp⟩)

end Tree

/-! ### Paths below a directory -/

/-- Names added to a path are what is shown of it from that path. -/
theorem Path.shownFrom_append (p : Path) {ns : List String} (h : ns ≠ []) :
    p.shownFrom ⟨p.anchor, p.names ++ ns⟩ = "/".intercalate ns := by
  have hprefix : p.names.isPrefixOf (p.names ++ ns) = true := List.isPrefixOf_iff_prefix.2 (List.prefix_append _ _)
  simp only [shownFrom, below?, hprefix, and_self, if_true, List.drop_left, Option.getD_some, toString, h, and_false,
    if_false]
  simp [Anchor.text]

end CrudScaffold.Files
