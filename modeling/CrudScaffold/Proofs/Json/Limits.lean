import CrudScaffold.Json.Reader
import Mathlib.Data.List.TakeWhile

/-!
# CrudScaffold.Proofs.Json.Limits — the texts in JSON that are well-formed and stand for no value

Each reader hands on an end of the text that it is given, and refuses what is well-formed for two reasons only: a whole
number in it has too many digits, or it opens more lists and maps than may be nested (`Within`).  The readers of texts,
numbers and words are gone through one by one; values, lists and maps call each other, so these three are taken
together, by induction on the fuel (`allWithin`).
-/

namespace CrudScaffold.Json

open CrudScaffold.Data CrudScaffold.Text

variable {α β : Type} {nesting : Nat} {cs ds r : List Char}

/-- The text holds this many digits in a row. -/
def HasDigits (n : Nat) (cs : List Char) : Prop := ∃ ds, ds.length = n ∧ (∀ d ∈ ds, d.isDigit = true) ∧ ds <:+: cs

/-- The fault is a whole number in the text with too many digits. -/
def Excess (cs : List Char) (fault : ValueFault) : Prop :=
  ∃ n, fault = .tooManyDigits n ∧ digitLimit < n ∧ HasDigits n cs

theorem Excess.of_suffix {fault : ValueFault} (h : Excess ds fault) (hs : ds <:+ cs) : Excess cs fault := by
  obtain ⟨n, hfault, hlimit, digits, hlen, hdigits, hin⟩ := h
  exact ⟨n, hfault, hlimit, digits, hlen, hdigits, hin.trans hs.isInfix⟩

/-- The character may open a list or a map. -/
def isOpening (c : Char) : Bool := c == '[' || c == '\x7b'

/-- The fault is a list or a map behind more openings than may be nested. -/
def TooDeep (nesting : Nat) (cs : List Char) (fault : ValueFault) : Prop :=
  ∃ container, fault = .tooDeep container ∧ nesting < cs.countP isOpening

theorem TooDeep.of_suffix {fault : ValueFault} (h : TooDeep nesting ds fault) (hs : ds <:+ cs) :
    TooDeep nesting cs fault := by
  obtain ⟨container, hfault, hlt⟩ := h
  exact ⟨container, hfault, Nat.lt_of_lt_of_le hlt (hs.sublist.countP_le)⟩

theorem TooDeep.of_opening {fault : ValueFault} {c : Char} (hc : isOpening c = true) (h : TooDeep nesting ds fault) :
    TooDeep (nesting + 1) (c :: ds) fault := by
  obtain ⟨container, hfault, hlt⟩ := h
  exact ⟨container, hfault, by rw [List.countP_cons_of_pos hc]; exact Nat.succ_lt_succ hlt⟩

theorem tooDeep_zero {c : Char} (hc : isOpening c = true) (ds : List Char) (container : String) :
    TooDeep 0 (c :: ds) (.tooDeep container) :=
  ⟨container, rfl, by rw [List.countP_cons_of_pos hc]; exact Nat.succ_pos _⟩

/-- A reading of the text `cs`: what follows is an end of it, and only too many digits or openings make it fail without
a fault in the form. -/
structure Within (nesting : Nat) (cs : List Char) (x : Read α) : Prop where
  rest : ∀ a r, x = .ok (a, r) → r <:+ cs
  fault : ∀ fault, x = .error (.value fault) → Excess cs fault ∨ TooDeep nesting cs fault
  raised : ∀ found, x ≠ .error (.raised found)

namespace Within

theorem ok {a : α} (h : r <:+ cs) : Within nesting cs (.ok (a, r)) :=
  ⟨fun _ _ heq => by cases heq; exact h, nofun, nofun⟩

theorem malformed : Within nesting cs (.error .malformed : Read α) := ⟨nofun, nofun, nofun⟩

theorem of_suffix {x : Read α} (h : Within nesting ds x) (hs : ds <:+ cs) : Within nesting cs x :=
  ⟨fun a r hx => (h.rest a r hx).trans hs,
    fun fault hx => (h.fault fault hx).imp (·.of_suffix hs) (·.of_suffix hs), h.raised⟩

theorem of_opening {x : Read α} {c : Char} (hc : isOpening c = true) (h : Within nesting ds x) :
    Within (nesting + 1) (c :: ds) x :=
  ⟨fun a r hx => (h.rest a r hx).trans (List.suffix_cons c ds),
    fun fault hx => (h.fault fault hx).imp (·.of_suffix (List.suffix_cons c ds)) (·.of_opening hc), h.raised⟩

theorem tooDeep {c : Char} (hc : isOpening c = true) (container : String) :
    Within 0 (c :: ds) (.error (.value (.tooDeep container)) : Read α) :=
  ⟨nofun, fun _ heq => by cases heq; exact Or.inr (tooDeep_zero hc ds container), nofun⟩

/-- What is made of a value that has been read does not matter. -/
theorem map {x : Read α} (h : Within nesting cs x) {f : α × List Char → β × List Char} (hf : ∀ p, (f p).2 = p.2) :
    Within nesting cs (x.map f) := by
  rcases x with e | ⟨a, r⟩
  · refine ⟨nofun, fun fault heq => h.fault fault (by cases heq; rfl), fun found heq => ?_⟩
    exact h.raised found (by cases heq; rfl)
  · refine ⟨fun b r' heq => ?_, nofun, nofun⟩
    have hend : r = r' := (hf (a, r)).symm.trans (congrArg Prod.snd (Except.ok.inj heq))
    exact hend ▸ h.rest a r rfl

/-- A reading that goes on where another one has stopped. -/
theorem bind {x : Read α} (h : Within nesting cs x) {f : α × List Char → Read β}
    (hf : ∀ a r, r <:+ cs → Within nesting cs (f (a, r))) : Within nesting cs (x.bind f) := by
  rcases x with e | ⟨a, r⟩
  · refine ⟨nofun, fun fault heq => h.fault fault (by cases heq; rfl), fun found heq => ?_⟩
    exact h.raised found (by cases heq; rfl)
  · exact hf a r (h.rest a r rfl)

end Within

theorem skipSpace_suffix (cs : List Char) : skipSpace cs <:+ cs := List.dropWhile_suffix _

theorem suffix_of_skipSpace {c : Char} (h : skipSpace cs = c :: r) : r <:+ cs :=
  (List.suffix_cons c r).trans (h ▸ skipSpace_suffix cs)

/-! ### Texts and numbers -/

theorem within_readText (pending : Option Nat) (cs : List Char) : Within nesting cs (readText pending cs) := by
  fun_induction readText pending cs with
  | case1 => exact .malformed
  | case2 => exact .ok (List.suffix_cons _ _)
  | case3 => exact .malformed
  | case4 a b c d rest n hn high hlow ih => exact (ih.of_suffix ⟨['\\', 'u', a, b, c, d], rfl⟩).map fun _ => rfl
  | case5 a b c d rest n hn high _ hhigh ih => exact (ih.of_suffix ⟨['\\', 'u', a, b, c, d], rfl⟩).map fun _ => rfl
  | case6 a b c d rest n hn high _ hhigh ih => exact (ih.of_suffix ⟨['\\', 'u', a, b, c, d], rfl⟩).map fun _ => rfl
  | case7 a b c d rest n hn hhigh ih => exact ih.of_suffix ⟨['\\', 'u', a, b, c, d], rfl⟩
  | case8 a b c d rest n hn hhigh ih => exact (ih.of_suffix ⟨['\\', 'u', a, b, c, d], rfl⟩).map fun _ => rfl
  | case9 => exact .malformed
  | case10 pending c rest _ e he ih => exact (ih.of_suffix ⟨['\\', c], rfl⟩).map fun _ => rfl
  | case11 => exact .malformed
  | case12 pending c rest _ _ hno hplain ih => exact (ih.of_suffix (List.suffix_cons c rest)).map fun _ => rfl

theorem suffix_of_readFraction {digits : List Char} (h : readFraction cs = some (digits, r)) : r <:+ cs := by
  unfold readFraction at h
  split at h
  · rename_i rest
    simp only at h
    split at h
    · cases h
    · cases h
      exact (List.dropWhile_suffix _).trans (List.suffix_cons _ rest)
  · cases h

theorem suffix_of_readExponent {n : Int} (h : readExponent cs = some (n, r)) : r <:+ cs := by
  rcases cs with _ | ⟨e, rest⟩
  · cases h
  obtain ⟨-, h⟩ := Option.ite_none_right_eq_some.1 (h : (if e = 'e' ∨ e = 'E' then _ else none) = some (n, r))
  -- behind the sign only digits are taken
  have hend : ∀ negative body, body <:+ rest → (if (body.takeWhile Char.isDigit).isEmpty = true then none
      else some (if negative = true then -(digitsValue (body.takeWhile Char.isDigit) : Int)
        else digitsValue (body.takeWhile Char.isDigit), body.dropWhile Char.isDigit)) = some (n, r) →
      r <:+ e :: rest := by
    intro negative body hbody hread
    split at hread
    · cases hread
    · obtain ⟨-, rfl⟩ := Prod.mk.inj (Option.some.inj hread)
      exact (List.dropWhile_suffix _).trans (hbody.trans (List.suffix_cons e rest))
  split at h
  · exact hend true _ (List.suffix_cons _ _) h
  · exact hend false _ (List.suffix_cons _ _) h
  · exact hend false _ (List.suffix_refl _) h

/-- Of a number only the whole part is limited, and only where no fraction or exponent follows. -/
theorem within_readNumber (negative : Bool) (cs : List Char) : Within nesting cs (readNumber negative cs) := by
  unfold readNumber
  extract_lets digits whole rest fraction afterFraction exponent afterExponent n places power
  -- the whole part is one zero, or all the digits
  have hwhole : whole <+: cs ∧ ∀ d ∈ whole, d.isDigit = true := by
    have hdigits : digits <+: cs := List.takeWhile_prefix _
    rcases hhead : digits with _ | ⟨d, ds⟩
    · have hnone : whole = [] := by simp [whole, hhead]
      rw [hnone]
      exact ⟨List.nil_prefix, by simp⟩
    · by_cases hzero : d = '0'
      · have hone : whole = ['0'] := by simp [whole, hhead, hzero]
        rw [hone]
        exact ⟨List.IsPrefix.trans ⟨ds, by rw [hhead, hzero]; rfl⟩ hdigits, List.forall_mem_singleton.2 rfl⟩
      · have hall : whole = digits := by simp [whole, hhead, hzero]
        rw [hall]
        exact ⟨hdigits, fun d hd => List.mem_takeWhile_imp hd⟩
  -- the parts of a number stand one behind the other
  have hrest : rest <:+ cs := List.drop_suffix _ _
  have hfraction : afterFraction <:+ cs := by
    show (fraction.map (·.2)).getD rest <:+ cs
    cases hread : fraction with
    | none => exact hrest
    | some found => exact (suffix_of_readFraction hread).trans hrest
  have hexponent : afterExponent <:+ cs := by
    show (exponent.map (·.2)).getD afterFraction <:+ cs
    cases hread : exponent with
    | none => exact hfraction
    | some found => exact (suffix_of_readExponent hread).trans hfraction
  -- a number without digits, a whole number, or one with a fraction or an exponent
  split
  · exact .malformed
  split
  · split
    · rename_i hlimit
      refine ⟨nofun, fun fault heq => ?_, nofun⟩
      cases heq
      exact Or.inl ⟨_, rfl, hlimit, whole, rfl, hwhole.2, hwhole.1.isInfix⟩
    · exact .ok hrest
  · exact .ok hexponent

theorem within_readScalar (cs : List Char) : Within nesting cs (readScalar cs) := by
  unfold readScalar
  extract_lets words
  split
  · -- a word, or a number with or without a sign
    rename_i found hfound
    obtain ⟨word, -, hword⟩ := List.exists_of_findSome?_eq_some hfound
    obtain ⟨rest, hrest, rfl⟩ := Option.map_eq_some_iff.1 hword
    unfold expect at hrest
    split at hrest
    · cases hrest
      exact .ok (List.drop_suffix _ _)
    · cases hrest
  · split
    · rename_i rest _
      exact (within_readNumber true rest).of_suffix (List.suffix_cons '-' rest)
    · exact within_readNumber false cs

/-! ### Values, lists and maps -/

/-- What the readers of values, lists and maps keep, with this fuel. -/
structure AllWithin (depth : Nat) : Prop where
  value : ∀ nesting cs, Within nesting cs (readValue nesting depth cs)
  items : ∀ nesting cs, Within nesting cs (readItems nesting depth cs)
  entries : ∀ nesting cs, Within nesting cs (readEntries nesting depth cs)

theorem AllWithin.value_succ {depth : Nat} (ih : AllWithin depth) (nesting : Nat) (cs : List Char) :
    Within nesting cs (readValue nesting (depth + 1) cs) := by
  unfold readValue
  -- a text, a list, a map or a scalar; the nesting goes down at each opening
  split
  · rename_i rest
    exact ((within_readText none rest).of_suffix (List.suffix_cons _ rest)).map fun _ => rfl
  · rename_i rest
    cases nesting with
    | zero => exact .tooDeep rfl _
    | succ nesting =>
      refine .of_opening rfl ?_
      simp only
      split
      · rename_i r hspace
        exact .ok (suffix_of_skipSpace hspace)
      · exact ((ih.items nesting _).of_suffix (skipSpace_suffix rest)).map fun _ => rfl
  · rename_i rest
    cases nesting with
    | zero => exact .tooDeep rfl _
    | succ nesting =>
      refine .of_opening rfl ?_
      simp only
      split
      · rename_i r hspace
        exact .ok (suffix_of_skipSpace hspace)
      · exact ((ih.entries nesting _).of_suffix (skipSpace_suffix rest)).map fun _ => rfl
  · exact within_readScalar cs

theorem AllWithin.items_succ {depth : Nat} (ih : AllWithin depth) (nesting : Nat) (cs : List Char) :
    Within nesting cs (readItems nesting (depth + 1) cs) := by
  unfold readItems
  -- behind an item comes a comma, or the end of the list
  refine (ih.value nesting cs).bind fun v r hr => ?_
  simp only
  split
  · rename_i r' hcomma
    have hnext := (skipSpace_suffix r').trans ((suffix_of_skipSpace hcomma).trans hr)
    exact ((ih.items nesting _).of_suffix hnext).map fun _ => rfl
  · rename_i r' hclose
    exact .ok ((suffix_of_skipSpace hclose).trans hr)
  · exact .malformed

theorem AllWithin.entries_succ {depth : Nat} (ih : AllWithin depth) (nesting : Nat) (cs : List Char) :
    Within nesting cs (readEntries nesting (depth + 1) cs) := by
  unfold readEntries
  -- an entry is a key, a colon and a value
  split
  · rename_i rest
    refine ((within_readText none rest).of_suffix (List.suffix_cons _ rest)).bind fun key r hr => ?_
    simp only
    split
    · rename_i r' hcolon
      have hafter := (skipSpace_suffix r').trans ((suffix_of_skipSpace hcolon).trans hr)
      refine ((ih.value nesting _).of_suffix hafter).bind fun v s hs => ?_
      simp only
      split
      · rename_i s' hcomma
        have hnext := (skipSpace_suffix s').trans ((suffix_of_skipSpace hcomma).trans hs)
        exact ((ih.entries nesting _).of_suffix hnext).map fun _ => rfl
      · rename_i s' hclose
        exact .ok ((suffix_of_skipSpace hclose).trans hs)
      · exact .malformed
    · exact .malformed
  · exact .malformed

theorem allWithin (depth : Nat) : AllWithin depth := by
  induction depth with
  | zero => exact ⟨fun _ _ => .malformed, fun _ _ => .malformed, fun _ _ => .malformed⟩
  | succ depth ih => exact ⟨ih.value_succ, ih.items_succ, ih.entries_succ⟩

/-- A JSON text that is well-formed is a value, unless a whole number in it has too many digits, or it opens too many
lists and maps. -/
theorem excess_or_tooDeep_of_read {s : String} {fault : ValueFault} (h : read nesting s = .error (.value fault)) :
    Excess s.toList fault ∨ TooDeep nesting s.toList fault := by
  unfold read at h
  simp only at h
  split at h
  · rename_i e hread
    obtain rfl := Except.error.inj h
    have hwithin := (allWithin (s.toList.length + 2)).value nesting (skipSpace s.toList)
    exact (hwithin.of_suffix (skipSpace_suffix _)).fault fault hread
  · split at h <;> cases h

/-- The reader of JSON has no errors but its own. -/
theorem read_ne_raised (nesting : Nat) (s : String) (found : Raised) : read nesting s ≠ .error (.raised found) := by
  intro h
  unfold read at h
  simp only at h
  split at h
  · rename_i e hread
    obtain rfl := Except.error.inj h
    exact ((allWithin _).value _ _).raised found hread
  · split at h <;> cases h

end CrudScaffold.Json
