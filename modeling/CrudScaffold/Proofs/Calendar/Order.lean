import CrudScaffold.Proofs.Calendar.Stamp
import Mathlib.Algebra.Group.Nat.Defs

/-!
# CrudScaffold.Proofs.Calendar.Order — stamps sort as their moments do

From the year 1000 on a stamp has a fixed width, each of its numbers has leading zeros, and the greater numbers stand
in front.  So the order of moments is that of their stamps as texts, whatever is written behind them (`stamp_lt`).
`Stampable` moments stay stampable as the search for a free one goes on (`Stampable.next`).
-/

namespace CrudScaffold.Calendar

open CrudScaffold.Text

/-! ### Texts of digits -/

/-- Texts of one length compare the same whatever stands behind them. -/
theorem append_lt_append {xs ys : List Char} (h : xs < ys) (hlength : xs.length = ys.length) (as bs : List Char) :
    xs ++ as < ys ++ bs := by
  induction xs generalizing ys with
  | nil =>
    cases ys with
    | nil => exact absurd h (List.not_lt_nil _)
    | cons y ys => cases hlength
  | cons x xs ih =>
    cases ys with
    | nil => cases hlength
    | cons y ys =>
      rw [List.cons_append, List.cons_append, List.cons_lt_cons_iff] at *
      exact h.imp_right fun ⟨hxy, hlt⟩ => ⟨hxy, ih hlt (Nat.succ.inj hlength)⟩

theorem digit_value_lt {c : Char} (h : c.isDigit = true) : c.toNat - '0'.toNat < 10 ∧ '0'.toNat ≤ c.toNat := by
  have hranges : c.isDigit = (decide (c.val ≥ '0'.val) && decide (c.val ≤ '9'.val)) := rfl
  have hval : c.toNat = c.val.toNat := rfl
  have h0 : '0'.val.toNat = 48 := rfl
  have h9 : '9'.val.toNat = 57 := rfl
  have hzero : '0'.toNat = 48 := rfl
  simp only [hranges, Bool.and_eq_true, decide_eq_true_eq, UInt32.le_iff_toNat_le, ge_iff_le] at h
  omega

theorem value_mem_block {cs : List Char} (h : ∀ c ∈ cs, c.isDigit = true) (n : Nat) :
    n * 10 ^ cs.length ≤ Nat.ofDigitChars 10 cs n ∧ Nat.ofDigitChars 10 cs n < (n + 1) * 10 ^ cs.length := by
  induction cs generalizing n with
  | nil => simp [Nat.ofDigitChars]
  | cons c cs ih =>
    obtain ⟨hlt, -⟩ := digit_value_lt (h c List.mem_cons_self)
    have hblock := ih (fun c hc => h c (List.mem_cons_of_mem _ hc)) (10 * n + (c.toNat - '0'.toNat))
    have hshift : ∀ k, k * (10 ^ cs.length * 10) = 10 * k * 10 ^ cs.length := fun k => by
      rw [Nat.mul_comm _ 10, ← Nat.mul_assoc, Nat.mul_comm k 10]
    rw [Nat.ofDigitChars_cons, List.length_cons, Nat.pow_succ, hshift, hshift]
    exact ⟨Nat.le_trans (Nat.mul_le_mul_right _ (Nat.le_add_right _ _)) hblock.1,
      Nat.lt_of_lt_of_le hblock.2 (Nat.mul_le_mul_right _ (by omega))⟩

/-- Texts of equally many digits sort as their numbers do. -/
theorem lt_of_value_lt {xs ys : List Char} (hx : ∀ c ∈ xs, c.isDigit = true) (hy : ∀ c ∈ ys, c.isDigit = true)
    (hlength : xs.length = ys.length) {n : Nat} (h : Nat.ofDigitChars 10 xs n < Nat.ofDigitChars 10 ys n) :
    xs < ys := by
  -- the induction is on the digits; `n` is the number that stands in front of them
  induction xs generalizing ys n with
  | nil =>
    cases ys with
    | nil => exact absurd h (Nat.lt_irrefl _)
    | cons y ys => cases hlength
  | cons x xs ih =>
    cases ys with
    | nil => cases hlength
    | cons y ys =>
      obtain ⟨hxd, hxs⟩ := List.forall_mem_cons.1 hx
      obtain ⟨hyd, hys⟩ := List.forall_mem_cons.1 hy
      have hlengths : xs.length = ys.length := Nat.succ.inj hlength
      rw [Nat.ofDigitChars_cons, Nat.ofDigitChars_cons] at h
      rw [List.cons_lt_cons_iff]
      rcases Nat.lt_trichotomy x.toNat y.toNat with hlt | heq | hgt
      · exact Or.inl (UInt32.lt_iff_toNat_lt.2 hlt)
      · obtain rfl := Char.toNat_inj.1 heq
        exact Or.inr ⟨rfl, ih hxs hys hlengths h⟩
      · -- a greater digit in front would give a greater number
        have hlower := (value_mem_block hxs (10 * n + (x.toNat - '0'.toNat))).1
        have hupper := (value_mem_block hys (10 * n + (y.toNat - '0'.toNat))).2
        rw [hlengths] at hlower
        have hx0 := digit_value_lt hxd
        have hy0 := digit_value_lt hyd
        have hle : 10 * n + (y.toNat - '0'.toNat) + 1 ≤ 10 * n + (x.toNat - '0'.toNat) := by omega
        have := Nat.mul_le_mul_right (10 ^ ys.length) hle
        omega

theorem written_lt {write : Nat → List Char} (hdigit : ∀ n, ∀ c ∈ write n, c.isDigit = true)
    (hvalue : ∀ n, Nat.ofDigitChars 10 (write n) 0 = n) {n m : Nat} (hlength : (write n).length = (write m).length)
    {as bs : List Char} (h : n < m ∨ n = m ∧ as < bs) : write n ++ as < write m ++ bs := by
  rcases h with h | ⟨rfl, h⟩
  · refine append_lt_append (lt_of_value_lt (hdigit n) (hdigit m) hlength (n := 0) ?_) hlength as bs
    rw [hvalue, hvalue]
    exact h
  · exact List.append_left_lt h

namespace Moment

/-! ### Stamps -/

/-- A moment of the calendar whose year has four digits. -/
structure Stampable (m : Moment) : Prop where
  valid : m.isValid = true
  millennium : 1000 ≤ m.year

theorem isValid_iff {m : Moment} : m.isValid = true ↔ 1 ≤ m.year ∧ m.year ≤ 9999 ∧ 1 ≤ m.month ∧ m.month ≤ 12 ∧
    1 ≤ m.day ∧ m.day ≤ daysIn m.year m.month ∧ m.second < 86400 := by
  simp only [isValid, Bool.and_eq_true, decide_eq_true_eq, and_assoc]
  exact Iff.rfl

theorem daysIn_mem (year month : Nat) : 28 ≤ daysIn year month ∧ daysIn year month ≤ 31 := by
  unfold daysIn
  split
  · split <;> omega
  · split <;> omega

theorem length_year {y : Nat} (hle : 1000 ≤ y) (hlt : y ≤ 9999) : (toString y).toList.length = 4 := by
  rw [Nat.toString_eq_repr, Nat.toList_repr]
  have hfour : (Nat.toDigits 10 y).length ≤ 4 := (Nat.length_toDigits_le_iff (by decide) (by decide)).2 (by omega)
  have hthree : ¬(Nat.toDigits 10 y).length ≤ 3 := fun h =>
    absurd ((Nat.length_toDigits_le_iff (by decide) (by decide)).1 h) (by omega)
  omega

theorem length_stamp {m : Moment} (h : m.Stampable) : m.stamp.toList.length = 17 := by
  obtain ⟨-, hyear, -, hmonth, -, hday, hsecond⟩ := isValid_iff.1 h.valid
  have hdays := (daysIn_mem m.year m.month).2
  simp only [toList_stamp, clockText, String.toList_append, String.toList_empty, List.length_append, List.length_cons,
    List.length_nil, length_year h.millennium hyear, length_two (show m.month < 100 by omega),
    length_two (show m.day < 100 by omega), length_two (show m.second / 3600 < 100 by omega),
    length_two (show m.second / 60 % 60 < 100 by omega), length_two (show m.second % 60 < 100 by omega)]

theorem utf8ByteSize_stamp {m : Moment} (h : m.Stampable) : m.stamp.utf8ByteSize = 17 := by
  rw [utf8ByteSize_of_ascii, length_stamp h]
  intro c hc
  rcases mem_stamp hc with hdigit | rfl
  · exact toNat_lt_of_isAlphanum (by simp [Char.isAlphanum, hdigit])
  · decide

theorem two_lt {n m : Nat} (hn : n < 100) (hm : m < 100) {as bs : List Char} (h : n < m ∨ n = m ∧ as < bs) :
    (two n).toList ++ as < (two m).toList ++ bs :=
  written_lt (fun _ _ => isDigit_of_mem_two) value_two ((length_two hn).trans (length_two hm).symm) h

theorem mark_lt {c : Char} {as bs : List Char} (h : as < bs) : c :: as < c :: bs :=
  List.cons_lt_cons_iff.2 (Or.inr ⟨rfl, h⟩)

/-- Stamps sort as their moments do, whatever is written behind them. -/
theorem stamp_lt {a b : Moment} (ha : a.Stampable) (hb : b.Stampable) (h : a.earlier b = true) (as bs : List Char) :
    a.stamp.toList ++ as < b.stamp.toList ++ bs := by
  obtain ⟨-, hay, -, ham, -, had, has⟩ := isValid_iff.1 ha.valid
  obtain ⟨-, hby, -, hbm, -, hbd, hbs⟩ := isValid_iff.1 hb.valid
  have hda := (daysIn_mem a.year a.month).2
  have hdb := (daysIn_mem b.year b.month).2
  have hyears : (toString a.year).toList.length = (toString b.year).toList.length :=
    (length_year ha.millennium hay).trans (length_year hb.millennium hby).symm
  have horder := earlier_iff.1 h
  simp only [toList_stamp, clockText, String.toList_append, List.append_assoc, List.cons_append, String.toList_empty,
    List.nil_append]
  -- the years are of one length, and every other part has two digits
  refine written_lt (fun _ _ => isDigit_of_mem_toString) value_toString hyears ?_
  refine horder.imp_right ?_
  rintro ⟨hyear, horder⟩
  refine ⟨hyear, mark_lt (two_lt (by omega) (by omega) ?_)⟩
  refine horder.imp_right ?_
  rintro ⟨hmonth, horder⟩
  refine ⟨hmonth, mark_lt (two_lt (by omega) (by omega) ?_)⟩
  refine horder.imp_right ?_
  rintro ⟨hday, horder⟩
  refine ⟨hday, mark_lt (two_lt (by omega) (by omega) ?_)⟩
  -- the second of the day in hours, minutes and seconds
  rcases Nat.lt_or_ge (a.second / 3600) (b.second / 3600) with hhour | hhour
  · exact Or.inl hhour
  refine Or.inr ⟨by omega, two_lt (by omega) (by omega) ?_⟩
  rcases Nat.lt_or_ge (a.second / 60 % 60) (b.second / 60 % 60) with hminute | hminute
  · exact Or.inl hminute
  exact Or.inr ⟨by omega, two_lt (by omega) (by omega) (Or.inl (by omega))⟩

/-! ### The next moment -/

/-- The moment after one of the calendar is one of the calendar, and in no earlier year. -/
theorem isValid_next {m m' : Moment} (hm : m.isValid = true) (h : m.next = some m') :
    m'.isValid = true ∧ m.year ≤ m'.year := by
  obtain ⟨hyear, hlast, hmonth, htwelve, hday, hdays, hsecond⟩ := isValid_iff.1 hm
  have hzero : 0 < 86400 := by decide
  -- the next second, day, month or year
  unfold Moment.next at h
  split at h
  · rename_i hless
    cases h
    exact ⟨isValid_iff.2 ⟨hyear, hlast, hmonth, htwelve, hday, hdays, hless⟩, Nat.le_refl _⟩
  split at h
  · rename_i hless
    cases h
    exact ⟨isValid_iff.2 ⟨hyear, hlast, hmonth, htwelve, Nat.le_add_left _ _, hless, hzero⟩, Nat.le_refl _⟩
  split at h
  · rename_i hless
    cases h
    have hdays : 1 ≤ daysIn m.year (m.month + 1) := Nat.le_trans (by decide) (daysIn_mem _ _).1
    exact ⟨isValid_iff.2 ⟨hyear, hlast, Nat.le_add_left _ _, hless, Nat.le_refl _, hdays, hzero⟩, Nat.le_refl _⟩
  split at h
  · rename_i hless
    cases h
    have hdays : 1 ≤ daysIn (m.year + 1) 1 := Nat.le_trans (by decide) (daysIn_mem _ _).1
    have hjanuary : 1 ≤ 12 := by decide
    exact ⟨isValid_iff.2 ⟨Nat.le_add_left _ _, hless, Nat.le_refl _, hjanuary, Nat.le_refl _, hdays, hzero⟩,
      Nat.le_succ _⟩
  · cases h

/-- The moment after a stampable one is stampable, if the calendar has it. -/
theorem Stampable.next {m m' : Moment} (hm : m.Stampable) (h : m.next = some m') : m'.Stampable :=
  ⟨(isValid_next hm.valid h).1, Nat.le_trans hm.millennium (isValid_next hm.valid h).2⟩

/-- The last moment of the calendar. -/
def last : Moment := ⟨lastYear, 12, 31, daySeconds - 1⟩

/-- Only the last moment of the calendar has none after it. -/
theorem eq_last {m : Moment} (hm : m.isValid = true) (h : m.next = none) : m = last := by
  obtain ⟨-, hyear, -, hmonth, -, hday, hsecond⟩ := isValid_iff.1 hm
  unfold next at h
  split at h
  · cases h
  rename_i hlastSecond
  split at h
  · cases h
  rename_i hlastDay
  split at h
  · cases h
  rename_i hlastMonth
  split at h
  · cases h
  rename_i hlastYear
  -- the last second of the last day of the last month of the last year
  obtain ⟨year, month, day, second⟩ := m
  simp only [lastYear, daySeconds] at *
  obtain rfl : month = 12 := by omega
  have hdecember : daysIn year 12 = 31 := rfl
  simp only [last, lastYear, daySeconds, mk.injEq, true_and]
  refine ⟨?_, ?_, ?_⟩ <;> omega

end Moment

end CrudScaffold.Calendar
