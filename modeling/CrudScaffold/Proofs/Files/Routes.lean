import CrudScaffold.Proofs.Files.Names

/-!
# CrudScaffold.Proofs.Files.Routes — names that lead out of a directory, and back

Names with `.` and `..` among them amount to a `Route`: so many directories up, and then down by other names.  One more
name changes the route as it changes the place (`Route.lead_step`), so the route of a list of names leads where the
names do (`Route.walkNames_eq_lead`).  A route that goes up stays inside its directory only if it comes back by the
names that it has left (`Route.inside_lead_iff`).
-/

namespace CrudScaffold.Files

/-- The place lies below the directory. -/
def Inside (d a : Location) : Prop := d <+: a ∧ a ≠ d

instance (d a : Location) : Decidable (Inside d a) := inferInstanceAs (Decidable (_ ∧ _))

theorem Path.locationFrom_append (cwd : Location) (p : Path) (ns : List String) :
    (⟨p.anchor, p.names ++ ns⟩ : Path).locationFrom cwd = walkNames (p.locationFrom cwd) ns := List.foldl_append

/-- What lies in a place inside a directory is inside it. -/
theorem inside_concat_iff {d a : Location} {n : String} : Inside d (a ++ [n]) ↔ d <+: a := by
  rw [Inside, List.prefix_concat_iff]
  constructor
  · rintro ⟨rfl | h, hne⟩
    · exact absurd rfl hne
    · exact h
  · intro h
    refine ⟨Or.inr h, ?_⟩
    rintro rfl
    exact absurd h.length_le (by simp)

/-- So many directories up, and then down by some names. -/
structure Route where
  up : Nat
  down : List String
  deriving DecidableEq, Repr

namespace Route

/-- One more name: `..` takes the latest name back, or goes up if there is none. -/
def step (r : Route) (n : String) : Route :=
  if n = "." then r
  else if n = ".." then
    if r.down = [] then ⟨r.up + 1, []⟩ else ⟨r.up, r.down.dropLast⟩
  else ⟨r.up, r.down ++ [n]⟩

/-- The route of a list of names. -/
def ofNames (ns : List String) : Route := ns.foldl step ⟨0, []⟩

/-- Where a route leads to; there is nothing above the top. -/
def lead (r : Route) (a : Location) : Location := a.take (a.length - r.up) ++ r.down

variable {r : Route} {n : String}

/-- One more name has the effect on the route that it has on the place. -/
theorem lead_step (hn : n ≠ ".") (a : Location) :
    (r.step n).lead a = if n = ".." then (r.lead a).dropLast else r.lead a ++ [n] := by
  unfold step
  rw [if_neg hn]
  split
  · split
    · rename_i hdown
      rw [lead, lead, hdown, List.append_nil, List.append_nil, List.dropLast_eq_take, List.length_take, List.take_take]
      have hcount : a.length - (r.up + 1) = min (min (a.length - r.up) a.length - 1) (a.length - r.up) := by omega
      exact congrArg a.take hcount
    · rename_i hdown
      rw [lead, lead, List.dropLast_append_of_ne_nil hdown]
  · rw [lead, lead, List.append_assoc]

theorem lead_foldl (ns : List String) (r : Route) (a : Location) :
    (ns.foldl step r).lead a = Path.walkNames (r.lead a) (ns.filter (· ≠ ".")) := by
  induction ns generalizing r with
  | nil => rfl
  | cons n ns ih =>
    rw [List.foldl_cons, ih]
    by_cases hn : n = "."
    · rw [List.filter_cons_of_neg (by simpa using hn), step, if_pos hn]
    · rw [List.filter_cons_of_pos (by simpa using hn), lead_step hn]
      rfl

/-- The names lead where their route leads. -/
theorem walkNames_eq_lead (a : Location) (ns : List String) :
    Path.walkNames a (ns.filter (· ≠ ".")) = (ofNames ns).lead a := by
  rw [ofNames, lead_foldl]
  simp [lead]

/-- The route comes back by the names that it has left. -/
def Returns (r : Route) (d : Location) : Prop := d.drop (d.length - r.up) <+: r.down

instance (r : Route) (d : Location) : Decidable (r.Returns d) := inferInstanceAs (Decidable (_ <+: _))

/-- An entry of the place to which a route leads is inside the directory exactly if the route returns. -/
theorem inside_lead_iff {d : Location} : Inside d (r.lead d ++ [n]) ↔ r.Returns d := by
  rw [inside_concat_iff, lead, Returns]
  conv_lhs => lhs; rw [← List.take_append_drop (d.length - r.up) d]
  exact List.prefix_append_right_inj _

theorem up_ofNames {ns : List String} (h : ".." ∉ ns) : (ofNames ns).up = 0 := by
  suffices hfold : ∀ r : Route, (ns.foldl step r).up = r.up from hfold _
  intro r
  induction ns generalizing r with
  | nil => rfl
  | cons n ns ih =>
    obtain ⟨hn, hns⟩ := not_or.1 (mt List.mem_cons.2 h)
    rw [List.foldl_cons, ih hns, step, if_neg (Ne.symm hn)]
    split <;> rfl

theorem returns_of_notMem {ns : List String} (h : ".." ∉ ns) (d : Location) : (ofNames ns).Returns d := by
  rw [Returns, up_ofNames h, Nat.sub_zero, List.drop_length]
  exact List.nil_prefix

end Route

end CrudScaffold.Files
