import CrudScaffold.Proofs.Code.Reading
import Mathlib.Data.List.Infix

/-!
# CrudScaffold.Proofs.Code.Verbatim — texts that stand between quotes as they are

The rules of a form request and the keys of a join table are put between two quotes without being escaped.  The literal
that comes of it has the text for its value only if the text is `Verbatim`: it has no quote, no two backslashes side by
side, and no backslash at its end.  A quote in it ends the literal too early and each escape shortens its value; a
backslash at the end lets the literal run on over its closing quote, and then it ends in the code behind it
(`misread_of_not_verbatim`).  Where that code has no backslash, the reading succeeds for verbatim texts and for no
others (`verbatim_of_read_literal`).
-/

namespace CrudScaffold.Code

/-- A text that means itself between single quotes. -/
structure Verbatim (cs : List Char) : Prop where
  noQuote : '\'' ∉ cs
  /-- Of two backslashes the first one escapes the second. -/
  noDouble : ¬ ['\\', '\\'] <:+: cs
  noEnd : cs.getLast? ≠ some '\\'

instance (cs : List Char) : Decidable (Verbatim cs) :=
  decidable_of_iff ('\'' ∉ cs ∧ ¬ ['\\', '\\'] <:+: cs ∧ cs.getLast? ≠ some '\\')
    ⟨fun ⟨hquote, hdouble, hend⟩ => ⟨hquote, hdouble, hend⟩, fun h => ⟨h.noQuote, h.noDouble, h.noEnd⟩⟩

/-! ### Verbatim texts -/

section

variable {c : Char} {cs front : List Char}

theorem verbatim_of_notMem (hquote : '\'' ∉ cs) (hbackslash : '\\' ∉ cs) : Verbatim cs where
  noQuote := hquote
  noDouble h := hbackslash (h.subset List.mem_cons_self)
  noEnd h := hbackslash (List.mem_of_getLast? h)

/-- In front of a text, a backslash needs another character behind it. -/
theorem verbatim_cons_iff : Verbatim (c :: cs) ↔
    c ≠ '\'' ∧ (c = '\\' → ∃ d, cs.head? = some d ∧ d ≠ '\\') ∧ Verbatim cs := by
  constructor
  · rintro ⟨hquote, hdouble, hend⟩
    rw [List.mem_cons, not_or] at hquote
    rw [List.infix_cons_iff, not_or] at hdouble
    refine ⟨Ne.symm hquote.1, fun hc => ?_, hquote.2, hdouble.2, fun h => hend ?_⟩
    · -- a backslash at the end, or in front of another one, is not verbatim
      cases cs with
      | nil => exact absurd (congrArg some hc) hend
      | cons d cs =>
        refine ⟨d, rfl, fun hd => hdouble.1 ?_⟩
        rw [hc, hd]
        exact ⟨cs, rfl⟩
    · rw [List.getLast?_cons, h, Option.getD_some]
  · rintro ⟨hquote, hc, ⟨hquotes, hdouble, hend⟩⟩
    refine ⟨?_, ?_, fun h => ?_⟩
    · rw [List.mem_cons, not_or]
      exact ⟨Ne.symm hquote, hquotes⟩
    · rw [List.infix_cons_iff, not_or]
      -- two backslashes in front would be a backslash with one behind it
      refine ⟨fun hfront => ?_, hdouble⟩
      obtain ⟨rfl, hrest⟩ := List.cons_prefix_cons.1 hfront
      obtain ⟨d, hd, hne⟩ := hc rfl
      obtain ⟨rest, rfl⟩ := hrest
      exact hne (Option.some.inj hd).symm
    · rw [List.getLast?_cons] at h
      cases hlast : cs.getLast? with
      | none =>
        rw [List.getLast?_eq_none_iff] at hlast
        subst hlast
        obtain ⟨d, hd, -⟩ := hc (Option.some.inj h)
        cases hd
      | some d =>
        rw [hlast] at h hend
        exact hend h

/-- What has neither quotes nor backslashes changes nothing in front of a text. -/
theorem verbatim_append_iff (hquote : '\'' ∉ front) (hbackslash : '\\' ∉ front) :
    Verbatim (front ++ cs) ↔ Verbatim cs := by
  induction front with
  | nil => rfl
  | cons c front ih =>
    rw [List.mem_cons, not_or] at hquote hbackslash
    rw [List.cons_append, verbatim_cons_iff, ih hquote.2 hbackslash.2]
    exact ⟨fun h => h.2.2, fun h => ⟨Ne.symm hquote.1, fun hc => absurd hc.symm hbackslash.1, h⟩⟩

end

/-! ### Reading a text that has not been escaped -/

section

variable {cs tail : List Char}

theorem readBody_escape {c : Char} (hc : c = '\\' ∨ c = '\'') (cs : List Char) :
    readBody '\'' ('\\' :: c :: cs) = (readBody '\'' cs).map fun (text, rest) => (c :: text, rest) := by
  rw [readBody, if_pos hc]

theorem readBody_cons {c : Char} (hquote : c ≠ '\'') (hbackslash : c ≠ '\\') (cs : List Char) :
    readBody '\'' (c :: cs) = (readBody '\'' cs).map fun (text, rest) => (c :: text, rest) := by
  rw [readBody, if_neg hquote]
  exact fun _ _ h => absurd h hbackslash

theorem readBody_backslash {c : Char} (hquote : c ≠ '\'') (hbackslash : c ≠ '\\') (cs : List Char) :
    readBody '\'' ('\\' :: c :: cs) = (readBody '\'' (c :: cs)).map fun (text, rest) => ('\\' :: text, rest) := by
  rw [readBody, if_neg (not_or.2 ⟨hbackslash, hquote⟩)]

theorem readBody_quote (cs : List Char) : readBody '\'' ('\'' :: cs) = some ([], cs) := by
  rw [readBody, if_pos rfl]
  exact fun _ _ h => absurd h (by decide)

/-- A verbatim text is read as it stands. -/
theorem readBody_verbatim (h : Verbatim cs) (tail : List Char) :
    readBody '\'' (cs ++ '\'' :: tail) = some (cs, tail) := by
  induction cs with
  | nil => exact readBody_quote tail
  | cons c cs ih =>
    obtain ⟨hquote, hbehind, hrest⟩ := verbatim_cons_iff.1 h
    by_cases hc : c = '\\'
    · obtain ⟨d, hd, hne⟩ := hbehind hc
      obtain ⟨rest, rfl⟩ := List.head?_eq_some_iff.1 hd
      have hd : d ≠ '\'' := (verbatim_cons_iff.1 hrest).1
      have ih := ih hrest
      rw [List.cons_append] at ih
      rw [hc, List.cons_append, List.cons_append, readBody_backslash hd hne, ih, Option.map_some]
    · rw [List.cons_append, readBody_cons hquote hc, ih hrest, Option.map_some]

/-- How the text is misread when it stands between quotes: as a shorter one, or, if it ends in a backslash, with its
closing quote as a part of the value. -/
def Misread (cs tail : List Char) : Prop :=
  (∃ text rest, readBody '\'' (cs ++ '\'' :: tail) = some (text, rest) ∧ text.length < cs.length) ∨
  (cs.getLast? = some '\\' ∧ ∃ front, readBody '\'' (cs ++ '\'' :: tail) =
    (readBody '\'' tail).map fun (text, rest) => (front ++ '\'' :: text, rest))

/-- A misread text is misread also behind characters that are read as one. -/
theorem Misread.behind (front : List Char) {c : Char} (h : Misread cs tail) (hfront : front ≠ [])
    (hread : readBody '\'' (front ++ (cs ++ '\'' :: tail)) =
      (readBody '\'' (cs ++ '\'' :: tail)).map fun (text, rest) => (c :: text, rest)) : Misread (front ++ cs) tail := by
  have hpos : 0 < front.length := List.length_pos_iff.2 hfront
  rw [← List.append_assoc] at hread
  rcases h with ⟨text, rest, htext, hlength⟩ | ⟨hlast, text, htext⟩
  · refine Or.inl ⟨c :: text, rest, by rw [hread, htext, Option.map_some], ?_⟩
    rw [List.length_cons, List.length_append]
    omega
  · refine Or.inr ⟨by rw [List.getLast?_append, hlast, Option.some_or], c :: text, ?_⟩
    rw [hread, htext, Option.map_map]
    rfl

/-- Every text that is not verbatim is misread.  The induction is on the length, since an escape takes two characters
at once. -/
theorem misread_of_not_verbatim (h : ¬ Verbatim cs) (tail : List Char) : Misread cs tail := by
  -- the induction is on the length: an escape takes two characters at once
  induction hlength : cs.length using Nat.strongRecOn generalizing cs with
  | ind n ih =>
    cases cs with
    | nil => exact absurd (verbatim_of_notMem List.not_mem_nil List.not_mem_nil) h
    | cons c cs =>
      rw [List.length_cons] at hlength
      by_cases hquote : c = '\''
      · subst hquote
        -- a quote inside the text ends it early
        exact Or.inl ⟨[], cs ++ '\'' :: tail, readBody_quote _, Nat.succ_pos _⟩
      by_cases hbackslash : c = '\\'
      · subst hbackslash
        cases cs with
        | nil => exact Or.inr ⟨rfl, [], readBody_escape (Or.inr rfl) tail⟩
        | cons d cs =>
          rw [List.length_cons] at hlength
          -- an escaped character loses its backslash, whatever stands behind it
          by_cases hescape : d = '\\' ∨ d = '\''
          · have hread := readBody_escape hescape (cs ++ '\'' :: tail)
            by_cases hrest : Verbatim cs
            · refine Or.inl ⟨d :: cs, tail, ?_, Nat.lt_succ_self _⟩
              rw [List.cons_append, List.cons_append, hread, readBody_verbatim hrest, Option.map_some]
            · exact Misread.behind ['\\', d] (ih cs.length (by omega) hrest rfl) (List.cons_ne_nil _ _) hread
          · -- any other backslash stands for itself, so the rest is at fault
            obtain ⟨hnobackslash, hnoquote⟩ := not_or.1 hescape
            have hrest : ¬ Verbatim (d :: cs) := fun hrest =>
              h (verbatim_cons_iff.2 ⟨by decide, fun _ => ⟨d, rfl, hnobackslash⟩, hrest⟩)
            have hread := readBody_backslash hnoquote hnobackslash (cs ++ '\'' :: tail)
            exact Misread.behind ['\\'] (ih (d :: cs).length (by simp; omega) hrest rfl)
              (List.cons_ne_nil _ _) hread
      · have hrest : ¬ Verbatim cs := fun hrest =>
          h (verbatim_cons_iff.2 ⟨hquote, fun hc => absurd hc hbackslash, hrest⟩)
        have hread := readBody_cons hquote hbackslash (cs ++ '\'' :: tail)
        exact Misread.behind [c] (ih cs.length (by omega) hrest rfl) (List.cons_ne_nil _ _) hread

/-- What is read from the code behind a text, as if it went on with the literal, does not end in a backslash. -/
def Calm (tail : List Char) : Prop :=
  ∀ text rest, readBody '\'' tail = some (text, rest) → text.getLast? ≠ some '\\'

theorem calm_nil : Calm [] := fun _ _ h => by cases h

theorem calm_of_notMem {code : List Char} (hquote : '\'' ∉ code) (hbackslash : '\\' ∉ code) (rest : List Char) :
    Calm (code ++ '\'' :: rest) := by
  intro text rest' h
  rw [readBody_verbatim (verbatim_of_notMem hquote hbackslash)] at h
  cases h
  exact (verbatim_of_notMem hquote hbackslash).noEnd

/-- In front of such code a text between quotes is read as itself exactly if it is verbatim. -/
theorem readBody_eq_self_iff (htail : Calm tail) {rest : List Char} :
    readBody '\'' (cs ++ '\'' :: tail) = some (cs, rest) ↔ Verbatim cs ∧ rest = tail := by
  constructor
  · intro h
    by_cases hcs : Verbatim cs
    · rw [readBody_verbatim hcs] at h
      cases h
      exact ⟨hcs, rfl⟩
    · -- a text that is misread comes out shorter, or runs on into the code behind it
      rcases misread_of_not_verbatim hcs tail with ⟨text, rest', hread, hlength⟩ | ⟨hlast, front, hread⟩
      · rw [hread] at h
        cases h
        exact absurd hlength (Nat.lt_irrefl _)
      · rw [hread, Option.map_eq_some_iff] at h
        obtain ⟨⟨text, rest'⟩, htext, h⟩ := h
        cases h
        rw [List.getLast?_append, List.getLast?_cons, Option.some_or] at hlast
        cases hend : text.getLast? with
        | none =>
          rw [hend] at hlast
          cases hlast
        | some d =>
          rw [hend] at hlast
          exact absurd (hend.trans hlast) (htail text _ htext)
  · rintro ⟨hcs, rfl⟩
    exact readBody_verbatim hcs rest

/-- A text between quotes, as it stands. -/
def between (s : String) (rest : List Char) : List Char := '\'' :: (s.toList ++ '\'' :: rest)

theorem read_literal_verbatim {s : String} (h : Verbatim s.toList) (tail : List Char) :
    (literal '\'').read (between s tail) = some (s, tail) := by
  show (readBody '\'' (s.toList ++ '\'' :: tail)).map _ = _
  rw [readBody_verbatim h, Option.map_some]
  simp only [String.ofList_toList]

theorem verbatim_of_read_literal {s : String} {rest : List Char} (htail : Calm tail)
    (h : (literal '\'').read (between s tail) = some (s, rest)) : Verbatim s.toList ∧ rest = tail := by
  obtain ⟨⟨text, rest'⟩, hread, h⟩ := Option.map_eq_some_iff.1 h
  cases h
  rw [between, String.toList_ofList] at hread
  rw [String.toList_ofList]
  exact (readBody_eq_self_iff htail).1 hread

end

end CrudScaffold.Code
