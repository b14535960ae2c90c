import CrudScaffold.Proofs.Text.Characters

/-!
# CrudScaffold.Proofs.Text.Braces — texts whose opening braces end their lines

`Braceless` texts have no opening brace.  In a `Tidy` text each one is the last character of its line, so that no two
stand side by side (`Tidy.no_double`).  Both are kept when texts are put together.
-/

namespace CrudScaffold.Text

/-! ### One element before another -/

section

variable {α : Type} [DecidableEq α] {a b : α} {xs ys : List α}

/-- Every `a` of the list has a `b` directly behind it. -/
def eachBefore (a b : α) : List α → Bool
  | [] => true
  | x :: xs => (x ≠ a || xs.head? = some b) && eachBefore a b xs

theorem eachBefore_cons {x : α} :
    eachBefore a b (x :: xs) = true ↔ (x ≠ a ∨ xs.head? = some b) ∧ eachBefore a b xs = true := by
  simp [eachBefore]

theorem eachBefore_append (hx : eachBefore a b xs = true) (hy : eachBefore a b ys = true) :
    eachBefore a b (xs ++ ys) = true := by
  induction xs with
  | nil => exact hy
  | cons x xs ih =>
    obtain ⟨hfirst, hrest⟩ := eachBefore_cons.1 hx
    refine eachBefore_cons.2 ⟨hfirst.imp_right fun hhead => ?_, ih hrest⟩
    rw [List.append_eq, List.head?_append, hhead]
    rfl

theorem eachBefore_of_notMem (h : a ∉ xs) : eachBefore a b xs = true := by
  induction xs with
  | nil => rfl
  | cons x xs ih =>
    rw [List.mem_cons, not_or] at h
    exact eachBefore_cons.2 ⟨Or.inl fun hx => h.1 hx.symm, ih h.2⟩

theorem eachBefore_of_append (h : eachBefore a b (xs ++ ys) = true) : eachBefore a b ys = true := by
  induction xs with
  | nil => exact h
  | cons x xs ih => exact ih (eachBefore_cons.1 h).2

end

/-! ### Texts -/

/-- The text has no opening brace. -/
def Braceless (s : String) : Prop := '\x7b' ∉ s.toList

instance (s : String) : Decidable (Braceless s) := inferInstanceAs (Decidable ('\x7b' ∉ s.toList))

/-- Every opening brace of the text ends its line. -/
def Tidy (s : String) : Prop := eachBefore '\x7b' '\n' s.toList = true

instance (s : String) : Decidable (Tidy s) := inferInstanceAs (Decidable (_ = true))

theorem Braceless.tidy {s : String} (h : Braceless s) : Tidy s := eachBefore_of_notMem h

theorem braceless_ofList {cs : List Char} (h : '\x7b' ∉ cs) : Braceless (String.ofList cs) := by
  rwa [Braceless, String.toList_ofList]

/-- In a tidy text no two opening braces stand side by side. -/
theorem Tidy.no_double {s : String} (h : Tidy s) : ¬ ['\x7b', '\x7b'] <:+: s.toList := by
  rintro ⟨front, back, hs⟩
  rw [Tidy, ← hs, List.append_assoc] at h
  rcases (eachBefore_cons.1 (eachBefore_of_append h)).1 with h | h
  · exact h rfl
  · cases h

theorem Tidy.append {s t : String} (hs : Tidy s) (ht : Tidy t) : Tidy (s ++ t) := by
  rw [Tidy, String.toList_append]
  exact eachBefore_append hs ht

theorem tidy_join {texts : List String} (h : ∀ s ∈ texts, Tidy s) : Tidy (String.join texts) := by
  rw [Tidy, String.toList_join]
  induction texts with
  | nil => rfl
  | cons s texts ih =>
    obtain ⟨hs, htexts⟩ := List.forall_mem_cons.1 h
    rw [List.flatMap_cons]
    exact eachBefore_append hs (ih htexts)

@[simp] theorem braceless_append {s t : String} : Braceless (s ++ t) ↔ Braceless s ∧ Braceless t := by
  simp [Braceless]

theorem braceless_intercalate {sep : String} {texts : List String} (hsep : Braceless sep)
    (h : ∀ s ∈ texts, Braceless s) : Braceless (sep.intercalate texts) := by
  intro hmem
  rw [String.toList_intercalate] at hmem
  rcases mem_intercalate hmem with hmem | ⟨cs, hcs, hmem⟩
  · exact hsep hmem
  · obtain ⟨s, hs, rfl⟩ := List.mem_map.1 hcs
    exact h s hs hmem

end CrudScaffold.Text
