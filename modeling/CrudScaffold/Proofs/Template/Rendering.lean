import CrudScaffold.Proofs.Journal
import CrudScaffold.Template.Renderer

/-!
# CrudScaffold.Proofs.Template.Rendering — how the filling of a template fails

Filling fails because the store does not give the template or because a value is missing (`render_error`).  A store
that holds its templates in memory fails in one way only, and does not look at the files (`get_error_of_inMemory`,
`get_of_inMemory`).
-/

namespace CrudScaffold.Template

/-! ### Stores in memory -/

/-- The layer holds its templates in memory. -/
def Layer.InMemory : Layer → Prop
  | .memory _ => True
  | .directory _ _ => False

/-- Every layer of the store holds its templates in memory. -/
def Store.InMemory : Store → Prop
  | .single l => l.InMemory
  | .layered ls => ∀ l ∈ ls, l.InMemory

theorem find_of_inMemory {l : Layer} (h : l.InMemory) (v v' : View) (name : String) :
    l.find v name = l.find v' name := by
  cases l with
  | memory templates => rfl
  | directory path fileNames => exact h.elim

theorem find_ok_of_inMemory {l : Layer} (h : l.InMemory) (v : View) (name : String) :
    ∃ found, l.find v name = .ok found := by
  cases l with
  | memory templates =>
    simp only [Layer.find]
    cases templates.lookup name with
    | some text => exact ⟨.ok text, rfl⟩
    | none => exact ⟨.error ["<builtin>"], rfl⟩
  | directory path fileNames => exact h.elim

theorem findIn_of_inMemory {ls : List Layer} (h : ∀ l ∈ ls, l.InMemory) (v v' : View) (name : String)
    (searched : List String) : findIn v name searched ls = findIn v' name searched ls := by
  induction ls generalizing searched with
  | nil => rfl
  | cons l ls ih =>
    unfold findIn
    rw [find_of_inMemory (h l List.mem_cons_self) v v' name]
    refine congrArg (Except.bind (l.find v' name)) (funext fun found => ?_)
    cases found with
    | ok text => rfl
    | error places => exact ih (fun l' hl' => h l' (List.mem_cons_of_mem _ hl')) _

theorem findIn_ok_of_inMemory {ls : List Layer} (h : ∀ l ∈ ls, l.InMemory) (v : View) (name : String)
    (searched : List String) : ∃ found, findIn v name searched ls = .ok found := by
  induction ls generalizing searched with
  | nil => exact ⟨.error searched, rfl⟩
  | cons l ls ih =>
    obtain ⟨found, hfound⟩ := find_ok_of_inMemory (h l List.mem_cons_self) v name
    unfold findIn
    rw [hfound]
    cases found with
    | ok text => exact ⟨.ok text, rfl⟩
    | error places => exact ih (fun l' hl' => h l' (List.mem_cons_of_mem _ hl')) _

/-- What a store in memory gives does not depend on the files. -/
theorem get_of_inMemory {s : Store} (h : s.InMemory) (v v' : View) (name : String) : s.get v name = s.get v' name := by
  cases s with
  | single l =>
    unfold Store.get
    simp only
    rw [find_of_inMemory h v v' name]
  | layered ls =>
    unfold Store.get
    simp only
    rw [findIn_of_inMemory h v v' name []]

/-- A store in memory fails only for want of the template. -/
theorem get_error_of_inMemory {s : Store} (h : s.InMemory) {v : View} {name : String} {f : Fault}
    (hget : s.get v name = .error f) : ∃ searched, f = .failure (.noTemplate name searched) := by
  cases s with
  | single l =>
    obtain ⟨searched | text, hfound⟩ := find_ok_of_inMemory h v name
    all_goals rw [Store.get, hfound] at hget; cases hget
    exact ⟨searched, rfl⟩
  | layered ls =>
    obtain ⟨searched | text, hfound⟩ := findIn_ok_of_inMemory h v name []
    all_goals rw [Store.get, hfound] at hget; cases hget
    exact ⟨searched, rfl⟩

/-! ### Filling -/

theorem appends_substitute (strict : Bool) (template : String) (context : Context) (text : String) :
    (substitute strict template context text).Appends := by
  unfold substitute
  simp only
  split
  · exact .pure _
  split
  · exact .throw _
  · exact (Logged.Appends.note _ _ _).bind fun _ => .pure _

theorem substitute_error {strict : Bool} {template : String} {context : Context} {text : String} {f : Failure}
    (h : (substitute strict template context text).start.1 = .error f) : ∃ missing, f = .noValue template missing := by
  unfold substitute at h
  simp only at h
  split at h
  · cases h
  split at h
  · cases h
    exact ⟨_, rfl⟩
  · cases h

theorem appends_render (r : Renderer) (v : View) (template : String) (context : Context) :
    (r.render v template context).Appends := by
  refine (Logged.Appends.lift _).bind fun text => ?_
  simp only
  split
  · exact (appends_substitute _ _ _ _).adapt _
  · exact .throw _

/-- Filling a template reports in the channel of the templates only. -/
theorem emits_render (r : Renderer) (v : View) (template : String) (context : Context) :
    Emits id (·.channel = .templates) (r.render v template context) := by
  -- filling only warns
  have hsubstitute : ∀ text, Emits id (·.channel = .templates) (substitute r.strict template context text) := by
    intro text
    unfold substitute
    simp only
    split
    · exact .pure _
    split
    · exact .throw _
    · exact (Emits.note _ _ _).bind fun _ => .pure _
  refine (Emits.lift _).bind fun text => ?_
  simp only
  split
  · exact (hsubstitute text).adapt _
  · exact .throw _

/-- A template is not filled because the store does not give it, or because a value is missing. -/
theorem render_error {r : Renderer} {v : View} {template : String} {context : Context} {f : Fault}
    (h : (r.render v template context).start.1 = .error f) :
    r.store.get v template = .error f ∨ ∃ missing, f = .failure (.noValue template missing) := by
  unfold Renderer.render at h
  rw [Logged.start_bind_error] at h
  · -- the store is at fault, or the filling is
    rcases h with h | ⟨text, -, h⟩
    · exact Or.inl h
    · simp only at h
      split at h
      · rw [Logged.start, run_adapt] at h
        cases hs : (substitute r.strict template context text).start.1 with
        | ok filled =>
          rw [Logged.start] at hs
          rw [hs] at h
          cases h
        | error e =>
          obtain ⟨missing, rfl⟩ := substitute_error hs
          rw [Logged.start] at hs
          rw [hs] at h
          cases h
          exact Or.inr ⟨missing, rfl⟩
      · cases h
        exact Or.inr ⟨_, rfl⟩
  · intro text
    simp only
    split
    · exact (appends_substitute _ _ _ _).adapt _
    · exact .throw _

theorem render_of_get {r : Renderer} {v v' : View} {template : String}
    (h : r.store.get v template = r.store.get v' template) (context : Context) :
    r.render v template context = r.render v' template context := by
  unfold Renderer.render
  rw [h]

end CrudScaffold.Template
