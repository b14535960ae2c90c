import CrudScaffold.Calendar.Moment
import CrudScaffold.Proofs.Text.Characters

/-!
# CrudScaffold.Proofs.Calendar.Stamp — stamps tell moments apart

`Follows m m'` says that `m'` can be reached from `m` by going on second by second.  A file name that begins with the
stamp of a moment begins with the stamp of no moment that follows (`not_beginsWith_of_follows`).  Nothing is asked of
the first moment: a clock may give one that the calendar does not have.
-/

namespace CrudScaffold.Calendar

open CrudScaffold.Text

/-! ### Numbers in a stamp -/

theorem isDigit_of_mem_toString {n : Nat} {c : Char} (h : c ∈ (toString n).toList) : c.isDigit = true := by
  rw [Nat.toString_eq_repr, Nat.toList_repr] at h
  exact Nat.isDigit_of_mem_toDigits (by decide) (by decide) h

theorem value_toString (n : Nat) : Nat.ofDigitChars 10 (toString n).toList 0 = n := by
  rw [Nat.toString_eq_repr, Nat.toList_repr]
  exact Nat.ofDigitChars_ten_toDigits

namespace Moment

theorem isDigit_of_mem_two {n : Nat} {c : Char} (h : c ∈ (two n).toList) : c.isDigit = true := by
  unfold two at h
  split at h
  · rw [String.toList_append, List.mem_append] at h
    rcases h with h | h
    · obtain rfl : c = '0' := by simpa using h
      rfl
    · exact isDigit_of_mem_toString h
  · exact isDigit_of_mem_toString h

/-- The number can be read off, so different numbers are written differently. -/
theorem value_two (n : Nat) : Nat.ofDigitChars 10 (two n).toList 0 = n := by
  unfold two
  split
  · rw [String.toList_append]
    exact value_toString n
  · exact value_toString n

theorem length_two {n : Nat} (h : n < 100) : (two n).toList.length = 2 := by
  unfold two
  split
  · rename_i hlt
    rw [String.toList_append, Nat.toString_eq_repr, Nat.toList_repr, Nat.toDigits_of_lt_base hlt]
    rfl
  · rename_i hge
    rw [Nat.toString_eq_repr, Nat.toList_repr]
    have hle : (Nat.toDigits 10 n).length ≤ 2 := (Nat.length_toDigits_le_iff (by decide) (by decide)).2 (by omega)
    have hlt : ¬(Nat.toDigits 10 n).length ≤ 1 := fun h1 =>
      hge (by simpa using (Nat.length_toDigits_le_iff (by decide) (by decide)).1 h1)
    omega

/-! ### Taking stamps apart -/

theorem underscore_notMem_of_digits {cs : List Char} (h : ∀ c ∈ cs, c.isDigit = true) : '_' ∉ cs := by
  intro hmem
  exact absurd (h _ hmem) (by decide)

/-- Two beginnings of one text agree up to their first underscores. -/
theorem eq_before_underscore {xs ys a b n : List Char} (hx : '_' ∉ xs) (hy : '_' ∉ ys) (ha : xs ++ '_' :: a <+: n)
    (hb : ys ++ '_' :: b <+: n) : xs = ys ∧ ∃ rest, a <+: rest ∧ b <+: rest := by
  -- the beginnings agree character by character, as long as neither has come to its underscore
  induction xs generalizing ys n with
  | nil =>
    obtain ⟨ra, rfl⟩ := ha
    cases ys with
    | nil => exact ⟨rfl, a ++ ra, List.prefix_append _ _, by simpa using hb⟩
    | cons y ys =>
      rw [List.cons_append, List.nil_append, List.cons_append, List.cons_prefix_cons] at hb
      exact absurd (hb.1 ▸ List.mem_cons_self) hy
  | cons x xs ih =>
    obtain ⟨ra, rfl⟩ := ha
    cases ys with
    | nil =>
      rw [List.nil_append, List.cons_append, List.cons_append, List.cons_prefix_cons] at hb
      exact absurd (hb.1 ▸ List.mem_cons_self) hx
    | cons y ys =>
      rw [List.cons_append, List.cons_append, List.cons_append, List.cons_prefix_cons] at hb
      obtain ⟨rfl, hrest⟩ := hb
      obtain ⟨rfl, h⟩ := ih (fun h => hx (List.mem_cons_of_mem _ h)) (fun h => hy (List.mem_cons_of_mem _ h))
        (List.prefix_append _ _) hrest
      exact ⟨rfl, h⟩

theorem toList_stamp (m : Moment) : m.stamp.toList =
    (toString m.year).toList ++ '_' :: ((two m.month).toList ++ '_' :: ((two m.day).toList ++
      '_' :: (m.clockText "").toList)) := by
  simp [stamp, String.toList_append]

/-- A stamp is made of digits and underscores. -/
theorem mem_stamp {m : Moment} {c : Char} (h : c ∈ m.stamp.toList) : c.isDigit = true ∨ c = '_' := by
  simp only [toList_stamp, clockText, String.toList_append, List.mem_append, List.mem_cons] at h
  rcases h with h | rfl | h | rfl | h | rfl | (((h | h) | h) | h) | h
  · exact Or.inl (isDigit_of_mem_toString h)
  · exact Or.inr rfl
  · exact Or.inl (isDigit_of_mem_two h)
  · exact Or.inr rfl
  · exact Or.inl (isDigit_of_mem_two h)
  · exact Or.inr rfl
  · exact Or.inl (isDigit_of_mem_two h)
  · simp at h
  · exact Or.inl (isDigit_of_mem_two h)
  · simp at h
  · exact Or.inl (isDigit_of_mem_two h)

theorem eq_of_toString_eq {a b : Nat} (h : (toString a).toList = (toString b).toList) : a = b := by
  rw [← value_toString a, h, value_toString]

theorem eq_of_two_eq {a b : Nat} (h : (two a).toList = (two b).toList) : a = b := by
  rw [← value_two a, h, value_two]

/-- Stamps with which one text begins are of the same day, and their times of day begin one text too. -/
theorem same_day {m m' : Moment} {n : List Char} (h : m.stamp.toList <+: n) (h' : m'.stamp.toList <+: n) :
    m.year = m'.year ∧ m.month = m'.month ∧ m.day = m'.day ∧
      ∃ rest, (m.clockText "").toList <+: rest ∧ (m'.clockText "").toList <+: rest := by
  rw [toList_stamp] at h h'
  have hdigits : ∀ k, '_' ∉ (two k).toList := fun k => underscore_notMem_of_digits fun _ => isDigit_of_mem_two
  have hyear : ∀ k : Nat, '_' ∉ (toString k).toList := fun k =>
    underscore_notMem_of_digits fun _ => isDigit_of_mem_toString
  obtain ⟨hy, n₁, h, h'⟩ := eq_before_underscore (hyear _) (hyear _) h h'
  obtain ⟨hm, n₂, h, h'⟩ := eq_before_underscore (hdigits _) (hdigits _) h h'
  obtain ⟨hd, n₃, h, h'⟩ := eq_before_underscore (hdigits _) (hdigits _) h h'
  exact ⟨eq_of_toString_eq hy, eq_of_two_eq hm, eq_of_two_eq hd, n₃, h, h'⟩

theorem prefix_eq_of_length_eq {a b n : List Char} (ha : a <+: n) (hb : b <+: n) (h : a.length = b.length) : a = b :=
  (List.prefix_of_prefix_length_le ha hb (Nat.le_of_eq h)).eq_of_length h

/-- Times of one day with which one text begins are the same. -/
theorem same_second {m m' : Moment} {n : List Char} (hm : m.second < daySeconds) (hm' : m'.second < daySeconds)
    (h : (m.clockText "").toList <+: n) (h' : (m'.clockText "").toList <+: n) : m.second = m'.second := by
  unfold daySeconds at hm hm'
  -- each part of a time of day has two digits
  have htwo : ∀ k : Moment, k.second < 86400 → (two (k.second / 3600)).toList.length = 2 ∧
      (two (k.second / 60 % 60)).toList.length = 2 ∧ (two (k.second % 60)).toList.length = 2 := fun k hk =>
    ⟨length_two (by omega), length_two (by omega), length_two (by omega)⟩
  obtain ⟨h1, h2, h3⟩ := htwo m hm
  obtain ⟨h1', h2', h3'⟩ := htwo m' hm'
  have hparts : ∀ k : Moment, (k.clockText "").toList =
      (two (k.second / 3600)).toList ++ ((two (k.second / 60 % 60)).toList ++ (two (k.second % 60)).toList) := by
    intro k
    simp [clockText, String.toList_append]
  rw [hparts] at h h'
  have heq := prefix_eq_of_length_eq h h' (by simp only [List.length_append, h1, h2, h3, h1', h2', h3'])
  obtain ⟨hhour, hrest⟩ := List.append_inj heq (h1.trans h1'.symm)
  obtain ⟨hminute, hsecond⟩ := List.append_inj hrest (h2.trans h2'.symm)
  have h1 := eq_of_two_eq hhour
  have h2 := eq_of_two_eq hminute
  have h3 := eq_of_two_eq hsecond
  omega

/-! ### Later moments -/

/-- `m'` is later than `m`, and its second is one of its day. -/
def Follows (m m' : Moment) : Prop := m.earlier m' = true ∧ m'.second < daySeconds

theorem earlier_iff {a b : Moment} : a.earlier b = true ↔ a.year < b.year ∨ a.year = b.year ∧ (a.month < b.month ∨
    a.month = b.month ∧ (a.day < b.day ∨ a.day = b.day ∧ a.second < b.second)) := by
  simp [earlier]

theorem follows_next {m m' : Moment} (h : m.next = some m') : m.Follows m' := by
  have hday : daySeconds = 86400 := rfl
  -- the next second, day, month or year comes later, and has another stamp
  unfold next at h
  split at h
  · cases h
    exact ⟨earlier_iff.2 (by simp), by simpa using ‹_›⟩
  split at h
  · cases h
    exact ⟨earlier_iff.2 (by simp), by simp [hday]⟩
  split at h
  · cases h
    exact ⟨earlier_iff.2 (by simp), by simp [hday]⟩
  split at h
  · cases h
    exact ⟨earlier_iff.2 (by simp), by simp [hday]⟩
  · cases h

theorem earlier_trans {a b c : Moment} (h : a.earlier b = true) (h' : b.earlier c = true) : a.earlier c = true := by
  have hab := earlier_iff.1 h
  have hbc := earlier_iff.1 h'
  exact earlier_iff.2 (by omega)

theorem Follows.trans {a b c : Moment} (h : a.Follows b) (h' : b.Follows c) : a.Follows c :=
  ⟨earlier_trans h.1 h'.1, h'.2⟩

/-- A name that begins with a stamp begins with no stamp that follows. -/
theorem not_beginsWith_of_follows {m m' : Moment} {n : String} (hm : m.Follows m') (h : beginsWith m.stamp n = true) :
    beginsWith m'.stamp n = false := by
  refine Bool.eq_false_iff.2 fun h' => ?_
  obtain ⟨hy, hmo, hd, rest, hc, hc'⟩ := same_day (beginsWith_iff.1 h) (beginsWith_iff.1 h')
  have hlt := earlier_iff.1 hm.1
  have hsecond : m.second < m'.second := by omega
  have := same_second (Nat.lt_trans hsecond hm.2) hm.2 hc hc'
  omega

end Moment

end CrudScaffold.Calendar
