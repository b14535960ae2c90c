import CrudScaffold.Journal
import CrudScaffold.Proofs.Runs
import Mathlib.Data.List.Forall2

/-!
# CrudScaffold.Proofs.Journal — computations that only add to the journal

`Logged.Appends x` says that `x` gives the same on every journal, and that what it adds stands behind what is there
already.  Everything that is put together from such computations is one too, so `Logged.start`, the run on an empty
journal, tells all about it.
-/

namespace CrudScaffold

variable {ε ε' α β : Type}

@[simp] theorem run_liftExcept {σ : Type} (r : Except ε α) (s : σ) :
    (liftM r : ExceptT ε (StateM σ) α).run.run s = (r, s) := rfl

theorem run_adapt {σ : Type} (f : ε → ε') (x : ExceptT ε (StateM σ) α) (s : σ) :
    (ExceptT.adapt f x).run.run s = ((x.run.run s).1.mapError f, (x.run.run s).2) := rfl

@[simp] theorem run_note (level : Level) (channel : Channel) (message : String) (journal : Journal) :
    (note level channel message : Logged ε Unit).run.run journal =
      (.ok (), journal ++ [⟨level, channel, message⟩]) := rfl

/-! ### What a computation may report -/

/-- The computation only adds to the journal of its state, and only records with the property. -/
def Emits {σ : Type} (journal : σ → Journal) (P : Record → Prop) (x : ExceptT ε (StateM σ) α) : Prop :=
  ∀ s, ∃ added, journal (x.run.run s).2 = journal s ++ added ∧ ∀ entry ∈ added, P entry

namespace Emits

variable {σ : Type} {journal : σ → Journal} {P Q : Record → Prop}

/-- A computation that leaves the journal alone. -/
theorem of_eq {x : ExceptT ε (StateM σ) α} (h : ∀ s, journal (x.run.run s).2 = journal s) : Emits journal P x :=
  fun s => ⟨[], by rw [h, List.append_nil], fun _ h => absurd h List.not_mem_nil⟩

theorem mono {x : ExceptT ε (StateM σ) α} (hx : Emits journal P x) (h : ∀ entry, P entry → Q entry) :
    Emits journal Q x := fun s =>
  let ⟨added, hadded, hP⟩ := hx s
  ⟨added, hadded, fun entry hentry => h entry (hP entry hentry)⟩

/-- What reports in one channel does not report in another one. -/
theorem channel_ne {x : ExceptT ε (StateM σ) α} {c d : Channel} (hx : Emits journal (·.channel = c) x) (h : c ≠ d) :
    Emits journal (·.channel ≠ d) x := hx.mono fun _ hc => hc ▸ h

theorem pure (a : α) : Emits journal P (pure a : ExceptT ε (StateM σ) α) := of_eq fun _ => rfl

theorem throw (e : ε) : Emits journal P (throw e : ExceptT ε (StateM σ) α) := of_eq fun _ => rfl

/-- What two computations add one after the other. -/
theorem after {x : ExceptT ε (StateM σ) α} (hx : Emits journal P x) {y : ExceptT ε' (StateM σ) β}
    (hy : Emits journal P y) (s : σ) : ∃ added,
      journal (y.run.run (x.run.run s).2).2 = journal s ++ added ∧ ∀ entry ∈ added, P entry := by
  obtain ⟨front, hfront, hP⟩ := hx s
  obtain ⟨back, hback, hQ⟩ := hy (x.run.run s).2
  exact ⟨front ++ back, by rw [hback, hfront, List.append_assoc], List.forall_mem_append.2 ⟨hP, hQ⟩⟩

theorem bind {x : ExceptT ε (StateM σ) α} {f : α → ExceptT ε (StateM σ) β} (hx : Emits journal P x)
    (hf : ∀ a, Emits journal P (f a)) : Emits journal P (x >>= f) := by
  intro s
  rw [run_bind]
  rcases hrun : x.run.run s with ⟨e | a, s'⟩
  · simpa [hrun] using hx s
  · simpa [hrun] using hx.after (hf a) s

theorem map (f : α → β) {x : ExceptT ε (StateM σ) α} (hx : Emits journal P x) : Emits journal P (f <$> x) := fun s => by
  rw [run_map]
  exact hx s

theorem tryCatch {x : ExceptT ε (StateM σ) α} {f : ε → ExceptT ε (StateM σ) α} (hx : Emits journal P x)
    (hf : ∀ e, Emits journal P (f e)) : Emits journal P (tryCatch x f) := by
  intro s
  rw [run_tryCatch]
  rcases hrun : x.run.run s with ⟨e | a, s'⟩
  · simpa [hrun] using hx.after (hf e) s
  · simpa [hrun] using hx s

theorem forM {as : List α} {f : α → ExceptT ε (StateM σ) Unit} (hf : ∀ a, Emits journal P (f a)) :
    Emits journal P (as.forM f) := by
  induction as with
  | nil => exact Emits.pure _
  | cons a as ih => exact (hf a).bind fun _ => ih

theorem mapM {as : List α} {f : α → ExceptT ε (StateM σ) β} (hf : ∀ a, Emits journal P (f a)) :
    Emits journal P (as.mapM f) := by
  induction as with
  | nil => exact Emits.pure _
  | cons a as ih =>
    rw [List.mapM_cons]
    exact (hf a).bind fun _ => ih.bind fun _ => Emits.pure _

/-- What wraps a failure reports the same. -/
theorem adapt {x : ExceptT ε (StateM σ) α} (hx : Emits journal P x) (f : ε → ε') :
    Emits journal P (ExceptT.adapt f x : ExceptT ε' (StateM σ) α) := fun s => by
  rw [run_adapt]
  exact hx s

theorem lift (r : Except ε α) : Emits journal P (liftM r : ExceptT ε (StateM σ) α) := of_eq fun _ => rfl

theorem note (level : Level) (channel : Channel) (message : String) :
    Emits id (·.channel = channel) (note level channel message : Logged ε Unit) := fun _ =>
  ⟨[⟨level, channel, message⟩], rfl, List.forall_mem_singleton.2 rfl⟩

end Emits

namespace Logged

/-- The computation gives the same on every journal and adds the same to it. -/
def Appends (x : Logged ε α) : Prop := ∀ journal, x.run.run journal = (x.start.1, journal ++ x.start.2)

theorem start_bind (x : Logged ε α) (f : α → Logged ε β) :
    (x >>= f).start = match x.start with
      | (.ok a, journal) => (f a).run.run journal
      | (.error e, journal) => (.error e, journal) := by
  rw [start, run_bind, ← start]
  rcases x.start with ⟨_ | _, _⟩ <;> rfl

namespace Appends

theorem pure (a : α) : Appends (pure a : Logged ε α) := fun journal => by
  rw [start, run_pure, run_pure, List.append_nil]

theorem throw (e : ε) : Appends (throw e : Logged ε α) := fun journal => by
  rw [start, run_throw, run_throw, List.append_nil]

theorem note (level : Level) (channel : Channel) (message : String) :
    Appends (note level channel message : Logged ε Unit) := fun journal => by
  rw [start, run_note, run_note, List.nil_append]

theorem lift (r : Except ε α) : Appends (liftM r : Logged ε α) := fun journal => by
  rw [start, run_liftExcept, run_liftExcept, List.append_nil]

theorem bind {x : Logged ε α} {f : α → Logged ε β} (hx : Appends x) (hf : ∀ a, Appends (f a)) : Appends (x >>= f) := by
  intro journal
  rw [run_bind, hx journal, start_bind]
  rcases x.start with ⟨e | a, added⟩
  · rfl
  · simp only
    rw [hf a (journal ++ added), hf a added, List.append_assoc]

theorem adapt {x : Logged ε α} (hx : Appends x) (f : ε → ε') : Appends (ExceptT.adapt f x : Logged ε' α) := by
  intro journal
  unfold start
  rw [run_adapt, run_adapt, hx journal, hx []]
  rfl

theorem forM {as : List α} {f : α → Logged ε Unit} (hf : ∀ a, Appends (f a)) : Appends (as.forM f) := by
  induction as with
  | nil => exact Appends.pure _
  | cons a as ih => exact (hf a).bind fun _ => ih

theorem mapM {as : List α} {f : α → Logged ε β} (hf : ∀ a, Appends (f a)) : Appends (as.mapM f) := by
  induction as with
  | nil => exact Appends.pure _
  | cons a as ih =>
    rw [List.mapM_cons]
    exact (hf a).bind fun _ => ih.bind fun _ => Appends.pure _

end Appends

theorem Appends.emits {x : Logged ε α} {P : Record → Prop} (hx : Appends x) (h : ∀ entry ∈ x.start.2, P entry) :
    Emits id P x := fun journal => ⟨x.start.2, by rw [hx journal]; rfl, h⟩

/-! ### What a computation gives -/

/-- A sequence of appending computations gives what its last one gives, if those before succeed. -/
theorem start_bind_ok {x : Logged ε α} {f : α → Logged ε β} (hf : ∀ a, Appends (f a)) {b : β} :
    (x >>= f).start.1 = .ok b ↔ ∃ a, x.start.1 = .ok a ∧ (f a).start.1 = .ok b := by
  rw [start_bind]
  rcases x.start with ⟨e | a, added⟩
  · simp
  · simp only
    rw [hf a added]
    simp

theorem start_bind_error {x : Logged ε α} {f : α → Logged ε β} (hf : ∀ a, Appends (f a)) {e : ε} :
    (x >>= f).start.1 = .error e ↔
      x.start.1 = .error e ∨ ∃ a, x.start.1 = .ok a ∧ (f a).start.1 = .error e := by
  rw [start_bind]
  rcases x.start with ⟨e | a, added⟩
  · simp
  · simp only
    rw [hf a added]
    simp

/-- What a sequence of appending computations gives together with its records. -/
theorem start_bind_eq_ok {x : Logged ε α} {f : α → Logged ε β} (hf : ∀ a, Appends (f a)) {b : β} {journal : Journal} :
    (x >>= f).start = (.ok b, journal) ↔
      ∃ a front back, x.start = (.ok a, front) ∧ (f a).start = (.ok b, back) ∧ journal = front ++ back := by
  rw [start_bind]
  constructor
  · intro h
    rcases hx : x.start with ⟨e | a, front⟩
    · rw [hx] at h
      cases h
    · rw [hx] at h
      simp only at h
      rw [hf a front] at h
      obtain ⟨hresult, hjournal⟩ := Prod.mk.inj h
      exact ⟨a, front, (f a).start.2, rfl, Prod.ext hresult rfl, hjournal.symm⟩
  · rintro ⟨a, front, back, hx, hfa, rfl⟩
    simp only [hx, hf a front, hfa]

theorem start_bind_eq_error {x : Logged ε α} {f : α → Logged ε β} (hf : ∀ a, Appends (f a)) {e : ε}
    {journal : Journal} :
    (x >>= f).start = (.error e, journal) ↔ x.start = (.error e, journal) ∨
      ∃ a front back, x.start = (.ok a, front) ∧ (f a).start = (.error e, back) ∧ journal = front ++ back := by
  rw [start_bind]
  constructor
  · intro h
    -- the first part has failed, or the second one has
    rcases hx : x.start with ⟨e' | a, front⟩
    · rw [hx] at h
      cases h
      exact Or.inl rfl
    · rw [hx] at h
      simp only at h
      rw [hf a front] at h
      obtain ⟨hresult, hjournal⟩ := Prod.mk.inj h
      exact Or.inr ⟨a, front, (f a).start.2, rfl, Prod.ext hresult rfl, hjournal.symm⟩
  · rintro (hx | ⟨a, front, back, hx, hfa, rfl⟩)
    · simp only [hx]
    · simp only [hx, hf a front, hfa]

/-- The results of a list of computations, one for each element. -/
theorem start_mapM_ok {as : List α} {f : α → Logged ε β} (hf : ∀ a, Appends (f a)) {bs : List β}
    (h : (as.mapM f).start.1 = .ok bs) : List.Forall₂ (fun a b => (f a).start.1 = .ok b) as bs := by
  induction as generalizing bs with
  | nil =>
    cases h
    exact .nil
  | cons a as ih =>
    rw [List.mapM_cons, start_bind_ok fun _ => (Appends.mapM hf).bind fun _ => Appends.pure _] at h
    obtain ⟨b, hb, h⟩ := h
    rw [start_bind_ok fun _ => Appends.pure _] at h
    obtain ⟨bs', hbs, h⟩ := h
    cases h
    exact .cons hb (ih hbs)

theorem start_forM_ok {as : List α} {f : α → Logged ε Unit} (hf : ∀ a, Appends (f a))
    (h : ∀ a, (f a).start.1 = .ok ()) : (as.forM f).start.1 = .ok () := by
  induction as with
  | nil => rfl
  | cons a as ih =>
    show (f a >>= fun _ => as.forM f).start.1 = .ok ()
    rw [start_bind_ok fun _ => Appends.forM hf]
    exact ⟨(), h a, ih⟩

theorem start_mapM_error {as : List α} {f : α → Logged ε β} (hf : ∀ a, Appends (f a)) {e : ε}
    (h : (as.mapM f).start.1 = .error e) : ∃ a ∈ as, (f a).start.1 = .error e := by
  induction as with
  | nil => cases h
  | cons a as ih =>
    rw [List.mapM_cons, start_bind_error fun _ => (Appends.mapM hf).bind fun _ => Appends.pure _] at h
    rcases h with h | ⟨b, -, h⟩
    · exact ⟨a, List.mem_cons_self, h⟩
    · rw [start_bind_error fun _ => Appends.pure _] at h
      rcases h with h | ⟨bs, -, h⟩
      · obtain ⟨c, hc, h⟩ := ih h
        exact ⟨c, List.mem_cons_of_mem _ hc, h⟩
      · cases h

end Logged

end CrudScaffold
