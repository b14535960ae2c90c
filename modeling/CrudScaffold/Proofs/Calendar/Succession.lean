import CrudScaffold.Proofs.Calendar.Order

/-!
# CrudScaffold.Proofs.Calendar.Succession — seconds follow each other without a gap

The moments of the calendar are linearly ordered (`earlier_or_eq_or_earlier`), and between a moment and its next one
there is no third (`next_of_earlier`): the next second is carried into the minute, the day, the month and the year just
as the order counts them.
-/

namespace CrudScaffold.Calendar.Moment

variable {a b m m' : Moment}

/-- `b` is `a` or later. -/
def NotBefore (a b : Moment) : Prop := b = a ∨ a.earlier b = true

/-- Two moments come one after the other, unless they are the same. -/
theorem earlier_or_eq_or_earlier (a b : Moment) : a.earlier b = true ∨ a = b ∨ b.earlier a = true := by
  obtain ⟨year, month, day, second⟩ := a
  obtain ⟨year', month', day', second'⟩ := b
  simp only [earlier_iff, mk.injEq]
  omega

theorem notBefore_or_earlier (a b : Moment) : NotBefore a b ∨ b.earlier a = true := by
  rcases earlier_or_eq_or_earlier a b with h | rfl | h
  · exact Or.inl (Or.inr h)
  · exact Or.inl (Or.inl rfl)
  · exact Or.inr h

theorem NotBefore.trans {c : Moment} (h : NotBefore a b) (h' : NotBefore b c) : NotBefore a c := by
  rcases h with rfl | h
  · exact h'
  · rcases h' with rfl | h'
    · exact Or.inr h
    · exact Or.inr (earlier_trans h h')

/-- Later than a moment that is not before `a` is later than `a`. -/
theorem earlier_of_notBefore {c : Moment} (h : a.earlier b = true) (h' : NotBefore b c) : a.earlier c = true := by
  rcases h' with rfl | h'
  · exact h
  · exact earlier_trans h h'

/-- **No moment lies between two that follow each other.**  What is later than `a` is not before the next moment, and
there is a next one.  The cases are those of the carry: which of second, day, month and year is counted up. -/
theorem next_of_earlier (ha : a.isValid = true) (hb : b.isValid = true) (h : a.earlier b = true) :
    ∃ m, a.next = some m ∧ NotBefore m b := by
  obtain ⟨-, hay, -, ham, -, had, has⟩ := isValid_iff.1 ha
  obtain ⟨-, hby, hbm1, hbm, hbd1, hbd, hbs⟩ := isValid_iff.1 hb
  have horder := earlier_iff.1 h
  -- the month of `b` has as many days as that of `a`, if it is the same month
  have hdays : a.year = b.year → a.month = b.month → daysIn a.year a.month = daysIn b.year b.month := by
    intro hyear hmonth
    rw [hyear, hmonth]
  -- what is not after `b` in its parts is not later than `b`
  have hsplit : ∀ y mo d s, (y < b.year ∨ y = b.year ∧ (mo < b.month ∨ mo = b.month ∧ (d < b.day ∨ d = b.day ∧
      s ≤ b.second))) → NotBefore ⟨y, mo, d, s⟩ b := by
    intro y mo d s hle
    rcases notBefore_or_earlier ⟨y, mo, d, s⟩ b with hnot | hearlier
    · exact hnot
    · have := earlier_iff.1 hearlier
      simp only at this
      omega
  have hlength : daySeconds = 86400 := rfl
  cases hnext : a.next with
  | none =>
    -- nothing is later than the last moment
    obtain rfl := eq_last ha hnext
    have hlast := (daysIn_mem b.year b.month).2
    simp only [last, lastYear, hlength] at horder
    omega
  | some m =>
    refine ⟨m, rfl, ?_⟩
    unfold next at hnext
    split at hnext
    · cases hnext
      exact hsplit _ _ _ _ (by omega)
    split at hnext
    · cases hnext
      exact hsplit _ _ _ _ (by omega)
    split at hnext
    · cases hnext
      exact hsplit _ _ _ _ (by omega)
    split at hnext
    · cases hnext
      exact hsplit _ _ _ _ (by omega)
    · cases hnext

end CrudScaffold.Calendar.Moment
