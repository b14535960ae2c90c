import CrudScaffold.Text.Blank
import CrudScaffold.Text.Case

/-!
# CrudScaffold.Proofs.Text.Characters — letters, digits, blanks and beginnings

Letters and digits are ASCII characters, told apart by the intervals in which their code points lie, and a change of
case shifts one interval onto another (`toNat_toLower`, `toNat_toUpper`): what is true of all letters or digits follows
by `grind` from these equations.  Trimming takes away blanks only: it keeps every letter and digit (`countP_trim`).
-/

namespace CrudScaffold.Text

/-! ### ASCII characters -/

@[grind =]
theorem isUpper_iff {c : Char} : c.isUpper = true ↔ 65 ≤ c.toNat ∧ c.toNat ≤ 90 := by
  show decide ('A'.val ≤ c.val ∧ c.val ≤ 'Z'.val) = true ↔ _
  rw [decide_eq_true_eq, UInt32.le_iff_toNat_le, UInt32.le_iff_toNat_le]
  exact Iff.rfl

@[grind =]
theorem isLower_iff {c : Char} : c.isLower = true ↔ 97 ≤ c.toNat ∧ c.toNat ≤ 122 := by
  show (decide ('a'.val ≤ c.val) && decide (c.val ≤ 'z'.val)) = true ↔ _
  rw [Bool.and_eq_true, decide_eq_true_eq, decide_eq_true_eq, UInt32.le_iff_toNat_le, UInt32.le_iff_toNat_le]
  exact Iff.rfl

@[grind =]
theorem isDigit_iff {c : Char} : c.isDigit = true ↔ 48 ≤ c.toNat ∧ c.toNat ≤ 57 := Char.isDigit_iff_toNat

@[grind =]
theorem isAlphanum_iff {c : Char} : c.isAlphanum = true ↔ c.isUpper = true ∨ c.isLower = true ∨ c.isDigit = true := by
  show ((c.isUpper || c.isLower) || c.isDigit) = true ↔ _
  rw [Bool.or_eq_true, Bool.or_eq_true, or_assoc]

/-- Lower case moves the capitals up by 32. -/
@[grind =]
theorem toNat_toLower (c : Char) : c.toLower.toNat = if c.isUpper = true then c.toNat + 32 else c.toNat := by
  by_cases h : c.isUpper = true
  · have hval : 'A'.val ≤ c.val ∧ c.val ≤ 'Z'.val := of_decide_eq_true h
    have hshift : ('a'.val - 'A'.val).toNat = 32 := rfl
    have hlower : c.toLower = ⟨c.val + ('a'.val - 'A'.val), _⟩ := dif_pos hval
    obtain ⟨-, hhigh⟩ := isUpper_iff.1 h
    rw [if_pos h, hlower, Char.toNat_mk, UInt32.toNat_add, Char.toNat_val, hshift]
    omega
  · have hval : ¬ ('A'.val ≤ c.val ∧ c.val ≤ 'Z'.val) := fun hval => h (decide_eq_true hval)
    have hlower : c.toLower = c := dif_neg hval
    rw [if_neg h, hlower]

/-- Upper case moves the small letters down by 32. -/
@[grind =]
theorem toNat_toUpper (c : Char) : c.toUpper.toNat = if c.isLower = true then c.toNat - 32 else c.toNat := by
  by_cases h : c.isLower = true
  · have hval : 'a'.val ≤ c.val ∧ c.val ≤ 'z'.val := isLower_iff.1 h
    have hshift : ('A'.val - 'a'.val).toNat = 2 ^ 32 - 32 := rfl
    have hupper : c.toUpper = ⟨c.val + ('A'.val - 'a'.val), _⟩ := dif_pos hval
    obtain ⟨hlow, hhigh⟩ := isLower_iff.1 h
    rw [if_pos h, hupper, Char.toNat_mk, UInt32.toNat_add, Char.toNat_val, hshift]
    omega
  · have hval : ¬ ('a'.val ≤ c.val ∧ c.val ≤ 'z'.val) := fun hval => h (isLower_iff.2 hval)
    have hupper : c.toUpper = c := dif_neg hval
    rw [if_neg h, hupper]

theorem toLower_of_not_isUpper {c : Char} (h : c.isUpper = false) : c.toLower = c :=
  Char.toNat_inj.1 (by grind)

theorem toUpper_of_not_isLower {c : Char} (h : c.isLower = false) : c.toUpper = c :=
  Char.toNat_inj.1 (by grind)

theorem toNat_lt_of_isAlphanum {c : Char} (h : c.isAlphanum = true) : c.toNat < 128 := by grind

/-- A text of ASCII characters has as many bytes as characters. -/
theorem utf8ByteSize_of_ascii {s : String} (h : ∀ c ∈ s.toList, c.toNat < 128) : s.utf8ByteSize = s.toList.length := by
  rw [← String.ofList_toList (s := s)]
  generalize s.toList = cs at h
  rw [String.toList_ofList]
  induction cs with
  | nil => rfl
  | cons c cs ih =>
    have hbyte : c.utf8Size = 1 := Char.utf8Size_eq_one_iff.2 (UInt32.le_iff_toNat_le.2 (Nat.le_of_lt_succ
      (h c List.mem_cons_self)))
    rw [String.ofList_cons, String.utf8ByteSize_append, String.utf8ByteSize_singleton, hbyte,
      ih fun c hc => h c (List.mem_cons_of_mem _ hc), List.length_cons, Nat.add_comm]

theorem isBlank_of_isAlphanum {c : Char} (h : c.isAlphanum = true) : isBlank c = false := by
  simp only [isAlphanum_iff, isUpper_iff, isLower_iff, isDigit_iff] at h
  simp only [isBlank, Bool.or_eq_false_iff, Bool.and_eq_false_iff, decide_eq_false_iff_not, beq_eq_false_iff_ne]
  omega

theorem isAlphanum_toLower {c : Char} (h : c.isAlphanum = true) : c.toLower.isAlphanum = true := by grind

theorem isUpper_toLower (c : Char) : c.toLower.isUpper = false := by grind

theorem isAlphanum_of_isLower {c : Char} (h : c.isLower = true) : c.isAlphanum = true := by
  show ((c.isUpper || c.isLower) || c.isDigit) = true
  rw [h, Bool.or_true, Bool.true_or]

theorem isAlphanum_of_isUpper {c : Char} (h : c.isUpper = true) : c.isAlphanum = true := by
  show ((c.isUpper || c.isLower) || c.isDigit) = true
  rw [h, Bool.true_or, Bool.true_or]

theorem isAlphanum_toUpper {c : Char} (h : c.isAlphanum = true) : c.toUpper.isAlphanum = true := by grind

theorem isBlank_toLower (c : Char) : isBlank c.toLower = isBlank c := by
  cases h : c.isUpper with
  | false => rw [toLower_of_not_isUpper h]
  | true =>
    have halnum := isAlphanum_of_isUpper h
    rw [isBlank_of_isAlphanum halnum, isBlank_of_isAlphanum (isAlphanum_toLower halnum)]

theorem isBlank_toUpper (c : Char) : isBlank c.toUpper = isBlank c := by
  cases h : c.isLower with
  | false => rw [toUpper_of_not_isLower h]
  | true =>
    have halnum := isAlphanum_of_isLower h
    rw [isBlank_of_isAlphanum halnum, isBlank_of_isAlphanum (isAlphanum_toUpper halnum)]

/-- ASCII characters have their lower case one by one: none of them is the capital sigma. -/
theorem lowerChars_of_ascii {cs : List Char} (h : ∀ c ∈ cs, c.toNat < 128) : lowerChars cs = cs.map Char.toLower := by
  unfold lowerChars
  generalize ([] : List Char) = before
  induction cs generalizing before with
  | nil => rfl
  | cons c cs ih =>
    have hc := h c List.mem_cons_self
    have hsigma : c.toNat ≠ 0x3a3 := by omega
    rw [lowerAfter, if_neg hsigma, lowerChar, if_pos hc, ih fun d hd => h d (List.mem_cons_of_mem _ hd)]
    rfl

/-! ### Trimming -/

section Ends

variable {p : Char → Bool} {cs front back : List Char}

/-- A scan stops where its class of characters ends. -/
theorem takeWhile_append_stop (hfront : ∀ c ∈ front, p c = true) (hback : ∀ c ∈ back.head?, p c = false) :
    (front ++ back).takeWhile p = front ∧ (front ++ back).dropWhile p = back := by
  rw [List.takeWhile_append_of_pos hfront, List.dropWhile_append_of_pos hfront]
  cases back with
  | nil => simp
  | cons c back =>
    have hc := hback c rfl
    simp [hc]

theorem head_dropWhile (p : Char → Bool) (cs : List Char) : ∀ c ∈ (cs.dropWhile p).head?, p c = false := by
  intro c hc
  have hnot := List.head?_dropWhile_not p cs
  rw [Option.mem_def.1 hc] at hnot
  simpa using hnot

/-- A text is scanned up to the first character that is not of the class. -/
theorem exists_scan (p : Char → Bool) (cs : List Char) : ∃ front back,
    cs = front ++ back ∧ (∀ c ∈ front, p c = true) ∧ ∀ c ∈ back.head?, p c = false :=
  ⟨cs.takeWhile p, cs.dropWhile p, List.takeWhile_append_dropWhile.symm,
    fun c hc => List.all_eq_true.1 List.all_takeWhile c hc, head_dropWhile p cs⟩

/-- No character of the class stands at the ends of the text. -/
def Bare (p : Char → Bool) (cs : List Char) : Prop :=
  (∀ c ∈ cs.head?, p c = false) ∧ ∀ c ∈ cs.getLast?, p c = false

/-- The text without the characters of the class at its two ends. -/
def trimBy (p : Char → Bool) (cs : List Char) : List Char := ((cs.dropWhile p).reverse.dropWhile p).reverse

theorem trim_eq_trimBy (cs : List Char) : trim cs = trimBy isBlank cs := rfl

/-- Trimming takes away characters at the two ends. -/
theorem exists_trimBy_append (p : Char → Bool) (cs : List Char) : ∃ front back,
    cs = front ++ trimBy p cs ++ back ∧ (∀ c ∈ front, p c = true) ∧ ∀ c ∈ back, p c = true := by
  let middle := cs.dropWhile p
  have hfront : cs.takeWhile p ++ middle = cs := List.takeWhile_append_dropWhile
  have hback : (middle.reverse.takeWhile p ++ middle.reverse.dropWhile p).reverse = middle := by
    rw [List.takeWhile_append_dropWhile, List.reverse_reverse]
  rw [List.reverse_append] at hback
  refine ⟨cs.takeWhile p, (middle.reverse.takeWhile p).reverse, ?_, fun c hc => ?_, fun c hc => ?_⟩
  · rw [List.append_assoc, trimBy, hback, hfront]
  · exact List.all_eq_true.1 List.all_takeWhile c hc
  · exact List.all_eq_true.1 List.all_takeWhile c (List.mem_reverse.1 hc)

/-- What trimming leaves is bare. -/
theorem bare_trimBy (p : Char → Bool) (cs : List Char) : Bare p (trimBy p cs) := by
  constructor
  · intro c hc
    -- trimming the end keeps the first character
    have hprefix : trimBy p cs <+: cs.dropWhile p := by
      have hsuffix := List.dropWhile_suffix p (l := (cs.dropWhile p).reverse)
      have hreverse := List.reverse_prefix.2 hsuffix
      rwa [List.reverse_reverse] at hreverse
    obtain ⟨rest, hrest⟩ := hprefix
    refine head_dropWhile p cs c ?_
    rw [← hrest, List.head?_append, Option.mem_def.1 hc]
    rfl
  · intro c hc
    rw [trimBy, List.getLast?_reverse] at hc
    exact head_dropWhile p _ c hc

theorem trimBy_append (hfront : ∀ c ∈ front, p c = true) (h : Bare p cs) (hback : ∀ c ∈ back, p c = true)
    (hne : cs ≠ []) : trimBy p (front ++ cs ++ back) = cs := by
  have hhead : ∀ c ∈ (cs ++ back).head?, p c = false := by
    obtain ⟨d, ds, rfl⟩ := List.exists_cons_of_ne_nil hne
    exact h.1
  have hlast : ∀ c ∈ cs.reverse.head?, p c = false := by
    rw [List.head?_reverse]
    exact h.2
  have hends : ∀ c ∈ back.reverse, p c = true := fun c hc => hback c (List.mem_reverse.1 hc)
  rw [trimBy, List.append_assoc, (takeWhile_append_stop hfront hhead).2, List.reverse_append,
    (takeWhile_append_stop hends hlast).2, List.reverse_reverse]

/-- Trimming leaves the bare texts as they are. -/
theorem trimBy_eq_self_iff : trimBy p cs = cs ↔ Bare p cs := by
  constructor
  · intro h
    rw [← h]
    exact bare_trimBy p cs
  · intro h
    by_cases hne : cs = []
    · subst hne
      rfl
    · have hends : trimBy p ([] ++ cs ++ []) = cs := trimBy_append nofun h nofun hne
      simpa using hends

end Ends

theorem mem_trim {c : Char} {cs : List Char} (h : c ∈ trim cs) : c ∈ cs := by
  obtain ⟨front, back, hcs, -, -⟩ := exists_trimBy_append isBlank cs
  rw [hcs]
  exact List.mem_append_left _ (List.mem_append_right _ h)

theorem countP_dropWhile {p q : Char → Bool} (hpq : ∀ c, p c = true → q c = false) (cs : List Char) :
    (cs.dropWhile q).countP p = cs.countP p := by
  induction cs with
  | nil => rfl
  | cons c cs ih =>
    by_cases hq : q c = true
    · have hp : p c = false := by
        cases hp : p c with
        | false => rfl
        | true => rw [hpq c hp] at hq; cases hq
      rw [List.dropWhile_cons_of_pos hq, ih]
      simp [hp]
    · rw [List.dropWhile_cons_of_neg hq]

/-- Trimming keeps every character that is not a blank. -/
theorem countP_trim {p : Char → Bool} (hp : ∀ c, p c = true → isBlank c = false) (cs : List Char) :
    (trim cs).countP p = cs.countP p := by
  rw [trim, trimEnd, List.countP_reverse, countP_dropWhile hp, List.countP_reverse, countP_dropWhile hp]

/-- A text with a character that is not a blank is not trimmed away. -/
theorem trim_ne_nil {c : Char} {cs : List Char} (hc : c ∈ cs) (hb : isBlank c = false) : trim cs ≠ [] := by
  intro h
  have hcount := countP_trim (p := fun d => !isBlank d) (fun d hd => by simpa using hd) cs
  rw [h, List.countP_nil, eq_comm, List.countP_eq_zero] at hcount
  simpa [hb] using hcount c hc

/-! ### Joining -/

/-- What is joined is made of the separator and of the pieces. -/
theorem mem_intercalate {c : Char} {sep : List Char} {ws : List (List Char)} (h : c ∈ sep.intercalate ws) :
    c ∈ sep ∨ ∃ w ∈ ws, c ∈ w := by
  induction ws with
  | nil => cases h
  | cons w ws ih =>
    by_cases hnil : ws = []
    · subst hnil
      exact Or.inr ⟨w, by simp, by simpa using h⟩
    · rw [List.intercalate_cons_of_ne_nil hnil, List.mem_append, List.mem_append] at h
      rcases h with (h | h) | h
      · exact Or.inr ⟨w, by simp, h⟩
      · exact Or.inl h
      · rcases ih h with h | ⟨v, hv, hc⟩
        · exact Or.inl h
        · exact Or.inr ⟨v, List.mem_cons_of_mem _ hv, hc⟩

/-! ### Beginnings -/

theorem beginsWith_iff {start text : String} : beginsWith start text = true ↔ start.toList <+: text.toList :=
  List.isPrefixOf_iff_prefix

/-! ### Parts -/

theorem contains_iff {inner cs : List Char} : contains inner cs = true ↔ inner <:+: cs := by
  induction cs with
  | nil => simp [contains, List.isEmpty_iff]
  | cons c cs ih => rw [contains, Bool.or_eq_true, ih, List.isPrefixOf_iff_prefix, List.infix_cons_iff]

theorem hasPart_iff {inner text : String} : hasPart inner text = true ↔ inner.toList <:+: text.toList := contains_iff

end CrudScaffold.Text
