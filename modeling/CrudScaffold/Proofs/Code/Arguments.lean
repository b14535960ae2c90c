import CrudScaffold.Proofs.Code.Verbatim

/-!
# CrudScaffold.Proofs.Code.Arguments — the literals that a method is called with

`argumentsOf` goes through code from its beginning and collects the single-quoted literals that stand among the
arguments of the calls of one method.  It tells code from literals on the way, so what it takes for code depends on
where the literals before it end.  Code that has been put together from pieces without quotes and texts between quotes
is read as it was put together, if the texts are verbatim (`argumentsFrom_pieces`).  The first text of an argument that
is not verbatim is read as another one (`verbatim_of_argumentsFrom`).
-/

namespace CrudScaffold.Code

/-! ### Reading arguments -/

/-- The reader stands among the arguments of a call, once it has passed the first character of the text: `opening` has
opened them, or they were open and have not been closed. -/
def opened (opening : List Char) (inside : Bool) (cs : List Char) : Bool :=
  opening.isPrefixOf cs || inside && cs.head? != some ')'

/-- The literals among the arguments of the calls that begin with `opening`.  None if a literal does not end. -/
def argumentsFrom (opening : List Char) (inside : Bool) (cs : List Char) : Option (List String) :=
  match cs with
  | [] => some []
  | c :: rest =>
    if c = '\'' then
      match _hread : (literal '\'').read (c :: rest) with
      | none => none
      | some (text, behind) => (argumentsFrom opening inside behind).map (if inside then (text :: ·) else id)
    else argumentsFrom opening (opened opening inside cs) rest
termination_by cs.length
decreasing_by
  · exact (literal '\'').shorter _hread
  · exact Nat.lt_succ_self _

/-- The single-quoted literals among the arguments of all calls of a method, in their order. -/
def argumentsOf (method code : String) : Option (List String) :=
  argumentsFrom ("->" ++ method ++ "(").toList false code.toList

/-! ### Code without literals -/

section

variable {opening code : List Char} {inside : Bool}

/-- Where the reader stands behind code without literals. -/
def openedBehind (opening : List Char) (inside : Bool) : List Char → Bool
  | [] => inside
  | c :: cs => openedBehind opening (opened opening inside (c :: cs)) cs

theorem argumentsFrom_cons {c : Char} (hc : c ≠ '\'') (cs : List Char) :
    argumentsFrom opening inside (c :: cs) = argumentsFrom opening (opened opening inside (c :: cs)) cs := by
  rw [argumentsFrom, if_neg hc]

theorem argumentsFrom_of_notMem (h : '\'' ∉ code) : argumentsFrom opening inside code = some [] := by
  induction code generalizing inside with
  | nil => rw [argumentsFrom]
  | cons c code ih =>
    rw [List.mem_cons, not_or] at h
    rw [argumentsFrom_cons (Ne.symm h.1), ih h.2]

/-- What stands behind a quote opens nothing in front of it. -/
theorem opened_append (hopening : '\'' ∉ opening) (hne : code ≠ []) (rest : List Char) :
    opened opening inside (code ++ '\'' :: rest) = opened opening inside code := by
  have hprefix : opening.isPrefixOf (code ++ '\'' :: rest) = opening.isPrefixOf code := by
    rw [Bool.eq_iff_iff, List.isPrefixOf_iff_prefix, List.isPrefixOf_iff_prefix]
    refine ⟨fun h => ?_, fun h => h.trans (List.prefix_append _ _)⟩
    rcases List.prefix_or_prefix_of_prefix h (List.prefix_append code _) with h' | ⟨between, hbetween⟩
    · exact h'
    · -- the opening ends in front of the quote, which it does not have in it
      cases between with
      | nil => exact ⟨[], by rw [← hbetween, List.append_nil, List.append_nil]⟩
      | cons c between =>
        rw [← hbetween, List.prefix_append_right_inj] at h
        obtain ⟨rfl, -⟩ := List.cons_prefix_cons.1 h
        exact absurd (hbetween ▸ List.mem_append_right _ List.mem_cons_self) hopening
  have hhead : (code ++ '\'' :: rest).head? = code.head? := by
    cases code with
    | nil => exact absurd rfl hne
    | cons c code => rfl
  rw [opened, opened, hprefix, hhead]

theorem argumentsFrom_code (hopening : '\'' ∉ opening) (h : '\'' ∉ code) (s : String) (rest : List Char) :
    argumentsFrom opening inside (code ++ between s rest) =
      argumentsFrom opening (openedBehind opening inside code) (between s rest) := by
  induction code generalizing inside with
  | nil => rfl
  | cons c code ih =>
    have hstate : opened opening inside (c :: (code ++ between s rest)) = opened opening inside (c :: code) :=
      opened_append hopening (List.cons_ne_nil c code) _
    rw [List.mem_cons, not_or] at h
    rw [List.cons_append, argumentsFrom_cons (Ne.symm h.1), hstate, ih h.2]
    rfl

end

/-! ### Texts between quotes -/

section

variable {opening tail : List Char} {inside : Bool} {s : String}

theorem argumentsFrom_between (s : String) (tail : List Char) : argumentsFrom opening inside (between s tail) =
    ((literal '\'').read (between s tail)).bind fun (text, behind) =>
      (argumentsFrom opening inside behind).map (if inside then (text :: ·) else id) := by
  rw [between, argumentsFrom, if_pos rfl]
  split
  · rename_i h
    rw [h, Option.bind_none]
  · rename_i h
    rw [h, Option.bind_some]

theorem argumentsFrom_verbatim (h : Verbatim s.toList) (tail : List Char) :
    argumentsFrom opening inside (between s tail) =
      (argumentsFrom opening inside tail).map (if inside then (s :: ·) else id) := by
  rw [argumentsFrom_between, read_literal_verbatim h, Option.bind_some]

/-- An argument that is read as itself is verbatim. -/
theorem verbatim_of_argumentsFrom (htail : Calm tail) {more : List String}
    (h : argumentsFrom opening true (between s tail) = some (s :: more)) :
    Verbatim s.toList ∧ argumentsFrom opening true tail = some more := by
  rw [argumentsFrom_between, Option.bind_eq_some_iff] at h
  obtain ⟨⟨text, behind⟩, hread, h⟩ := h
  obtain ⟨texts, htexts, h⟩ := Option.map_eq_some_iff.1 h
  obtain ⟨rfl, rfl⟩ := List.cons.inj h
  obtain ⟨hverbatim, rfl⟩ := verbatim_of_read_literal htail hread
  exact ⟨hverbatim, htexts⟩

/-- Where the reader stands at each of the literals behind these pieces of code. -/
def openedAt (opening : List Char) (inside : Bool) : List (List Char) → List Bool
  | [] => []
  | code :: codes => openedBehind opening inside code :: openedAt opening (openedBehind opening inside code) codes

/-- Pieces of code, each with a text between quotes behind it. -/
def writtenPieces (pieces : List (List Char × String)) (rest : List Char) : List Char :=
  pieces.foldr (fun (code, s) rest => code ++ between s rest) rest

theorem argumentsFrom_writtenPieces (hopening : '\'' ∉ opening) {piece : List Char × String}
    (hcode : '\'' ∉ piece.1) (pieces : List (List Char × String)) (rest : List Char) :
    argumentsFrom opening inside (writtenPieces (piece :: pieces) rest) =
      argumentsFrom opening (openedBehind opening inside piece.1) (between piece.2 (writtenPieces pieces rest)) :=
  argumentsFrom_code hopening hcode piece.2 (writtenPieces pieces rest)

/-- Code with verbatim texts between quotes is read as it was put together. -/
theorem argumentsFrom_pieces (hopening : '\'' ∉ opening) {pieces : List (List Char × String)}
    (hcode : ∀ piece ∈ pieces, '\'' ∉ piece.1) (hverbatim : ∀ piece ∈ pieces, Verbatim piece.2.toList)
    {rest : List Char} (hrest : '\'' ∉ rest) : argumentsFrom opening inside (writtenPieces pieces rest) =
      some (((openedAt opening inside (pieces.map Prod.fst)).zip (pieces.map Prod.snd)).filterMap fun (inside, s) =>
        if inside then some s else none) := by
  induction pieces generalizing inside with
  | nil => exact argumentsFrom_of_notMem hrest
  | cons piece pieces ih =>
    obtain ⟨hfirst, hcode⟩ := List.forall_mem_cons.1 hcode
    obtain ⟨htext, hverbatim⟩ := List.forall_mem_cons.1 hverbatim
    rw [argumentsFrom_writtenPieces hopening hfirst, argumentsFrom_verbatim htext, ih hcode hverbatim, Option.map_some,
      List.map_cons, List.map_cons, openedAt, List.zip_cons_cons]
    cases hstate : openedBehind opening inside piece.1 <;> simp

theorem verbatim_of_writtenPieces (hopening : '\'' ∉ opening) {piece next : List Char × String}
    (hcode : '\'' ∉ piece.1) (hopened : openedBehind opening inside piece.1 = true) (hquote : '\'' ∉ next.1)
    (hbackslash : '\\' ∉ next.1) {pieces : List (List Char × String)} {rest : List Char} {more : List String}
    (h : argumentsFrom opening inside (writtenPieces (piece :: next :: pieces) rest) = some (piece.2 :: more)) :
    Verbatim piece.2.toList ∧ argumentsFrom opening true (writtenPieces (next :: pieces) rest) = some more := by
  rw [argumentsFrom_writtenPieces hopening hcode, hopened] at h
  exact verbatim_of_argumentsFrom (calm_of_notMem hquote hbackslash _) h

end

end CrudScaffold.Code
