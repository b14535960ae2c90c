import CrudScaffold.Naming.Words
import CrudScaffold.Proofs.Text.Characters

/-!
# CrudScaffold.Proofs.Naming.Blocks — where a text is cut into blocks

Blocks are made of the characters that are kept; the others only stand between them, so a text without kept characters
has no blocks (`blocks_eq_nil_iff`), and blanks around a text make no difference (`blocks_trim`).  Blocks in which no cut
rule applies are found again when they are joined by a character that is not kept (`blocks_intercalate`).

The words of a name are blocks of letters and digits, with one of two cut rules.  `caseCut` cuts `userProfile` before
the capital and `HTTPResponse` before the last capital of the run; `kindCut` also cuts between a letter and a digit.
-/

namespace CrudScaffold.Naming

open CrudScaffold.Text

/-- A word boundary shown by letter case: a capital after a lowercase letter or a digit, or the last capital of a
run in front of a lowercase letter. -/
def caseCut (x y : Char) (next : Option Char) : Bool :=
  y.isUpper && (x.isLower || x.isDigit || (x.isUpper && next.any Char.isLower))

/-- A word boundary shown by letter case or by a change between letters and digits. -/
def kindCut (x y : Char) (next : Option Char) : Bool :=
  caseCut x y next || (x.isAlpha && y.isDigit) || (x.isDigit && y.isAlpha)

/-- The words that underscores separate in the snake-case form. -/
def snakeWords (cs : List Char) : List (List Char) := blocks Char.isAlphanum caseCut cs

variable {keep : Char → Bool} {cut : Char → Char → Option Char → Bool}

theorem blocks_cons_of_neg {c : Char} (h : keep c = false) (cs : List Char) :
    blocks keep cut (c :: cs) = blocks keep cut cs := by
  rw [blocks.eq_def]
  simp only [h, Bool.false_eq_true, if_false]

theorem blocks_singleton {c : Char} (h : keep c = true) : blocks keep cut [c] = [[c]] := by
  rw [blocks.eq_def]
  simp only [h, if_true]
  rfl

/-- A character that is kept goes to the block behind it, if one starts there and there is no cut. -/
theorem blocks_cons_cons {c : Char} (h : keep c = true) (d : Char) (after : List Char) :
    blocks keep cut (c :: d :: after) = match blocks keep cut (d :: after) with
      | [] => [[c]]
      | w :: ws => if keep d && !cut c d after.head? then (c :: w) :: ws else [c] :: w :: ws := by
  rw [blocks.eq_def keep cut (c :: d :: after)]
  simp only [h, if_true]
  cases blocks keep cut (d :: after) <;> rfl

theorem blocks_eq_nil_iff {cs : List Char} : blocks keep cut cs = [] ↔ ∀ c ∈ cs, keep c = false := by
  have hfilter := flatten_blocks keep cut cs
  constructor
  · intro h c hc
    rw [h, List.flatten_nil, eq_comm, List.filter_eq_nil_iff] at hfilter
    simpa using hfilter c hc
  · intro h
    have hnone : cs.filter keep = [] := List.filter_eq_nil_iff.2 fun c hc => by simp [h c hc]
    rw [hnone, List.flatten_eq_nil_iff] at hfilter
    exact List.eq_nil_iff_forall_not_mem.2 fun w hw => ne_nil_of_mem_blocks hw (hfilter w hw)

/-! ### What stands around a text -/

theorem blocks_append_of_neg {front : List Char} (h : ∀ c ∈ front, keep c = false) (cs : List Char) :
    blocks keep cut (front ++ cs) = blocks keep cut cs := by
  induction front with
  | nil => rfl
  | cons c front ih =>
    rw [List.cons_append, blocks_cons_of_neg (h c List.mem_cons_self)]
    exact ih fun d hd => h d (List.mem_cons_of_mem _ hd)

/-- The cut rule does not tell a character that is not kept from the end of the text. -/
def IgnoresRest (keep : Char → Bool) (cut : Char → Char → Option Char → Bool) : Prop :=
  ∀ x y z, keep z = false → cut x y (some z) = cut x y none

theorem blocks_append_of_neg_right (hcut : IgnoresRest keep cut) (cs : List Char) {back : List Char}
    (h : ∀ c ∈ back, keep c = false) : blocks keep cut (cs ++ back) = blocks keep cut cs := by
  -- the induction is on the text; a block ends behind `c`, or it goes on with what follows
  induction cs with
  | nil => exact blocks_eq_nil_iff.2 h
  | cons c cs ih =>
    by_cases hc : keep c = true
    case neg =>
      have hc := Bool.eq_false_iff.2 hc
      rw [List.cons_append, blocks_cons_of_neg hc, blocks_cons_of_neg hc, ih]
    cases cs with
    | nil =>
      cases back with
      | nil => rfl
      | cons z back =>
        rw [List.cons_append, List.nil_append, blocks_cons_cons hc, blocks_eq_nil_iff.2 h, blocks_singleton hc]
    | cons d after =>
      -- whether the block goes on is decided by the next character, and that is the same one
      have hnext : cut c d (after ++ back).head? = cut c d after.head? := by
        cases after with
        | cons e after => rfl
        | nil =>
          cases back with
          | nil => rfl
          | cons z back => exact hcut c d z (h z List.mem_cons_self)
      rw [List.cons_append] at ih
      rw [List.cons_append, List.cons_append, blocks_cons_cons hc, blocks_cons_cons hc, ih, hnext]

/-- The blocks in front of a character that is not kept, and those behind it. -/
theorem blocks_append_cons (hcut : IgnoresRest keep cut) (front : List Char) {sep : Char} (hsep : keep sep = false)
    (cs : List Char) : blocks keep cut (front ++ sep :: cs) = blocks keep cut front ++ blocks keep cut cs := by
  induction front with
  | nil => exact blocks_cons_of_neg hsep cs
  | cons c front ih =>
    by_cases hc : keep c = true
    case neg =>
      have hc := Bool.eq_false_iff.2 hc
      rw [List.cons_append, blocks_cons_of_neg hc, blocks_cons_of_neg hc, ih]
    cases front with
    | nil =>
      rw [List.cons_append, List.nil_append, blocks_cons_cons hc, blocks_cons_of_neg hsep, blocks_singleton hc]
      cases blocks keep cut cs <;> simp [hsep]
    | cons d after =>
      -- the separator ends a block as the end of the text does
      have hnext : cut c d (after ++ sep :: cs).head? = cut c d after.head? := by
        cases after with
        | cons e after => rfl
        | nil => exact hcut c d sep hsep
      rw [List.cons_append] at ih
      rw [List.cons_append, List.cons_append, blocks_cons_cons hc, blocks_cons_cons hc, ih, hnext]
      cases hws : blocks keep cut (d :: after) with
      | nil =>
        have hd := blocks_eq_nil_iff.1 hws d List.mem_cons_self
        cases blocks keep cut cs <;> simp [hd]
      | cons w ws => cases keep d && !cut c d after.head? <;> simp

/-- Blanks around a text are in no block of it. -/
theorem blocks_trim (hblank : ∀ c, keep c = true → isBlank c = false) (hcut : IgnoresRest keep cut) (cs : List Char) :
    blocks keep cut (trim cs) = blocks keep cut cs := by
  have hdropped : ∀ c, isBlank c = true → keep c = false := fun c hc =>
    Bool.eq_false_iff.2 fun hk => by simp [hblank c hk] at hc
  obtain ⟨front, back, hcs, hfront, hback⟩ := exists_trimBy_append isBlank cs
  rw [← trim_eq_trimBy] at hcs
  symm
  calc blocks keep cut cs
    _ = blocks keep cut (front ++ (trim cs ++ back)) := by rw [← List.append_assoc, ← hcs]
    _ = blocks keep cut (trim cs ++ back) := blocks_append_of_neg (fun c hc => hdropped c (hfront c hc)) _
    _ = blocks keep cut (trim cs) := blocks_append_of_neg_right hcut _ fun c hc => hdropped c (hback c hc)

/-! ### Changed characters -/

/-- A change of the characters that are not kept changes no block, if the cut rule does not see it. -/
theorem blocks_map {f : Char → Char} (hkeep : ∀ c, keep (f c) = keep c) (hfix : ∀ c, keep c = true → f c = c)
    (hcut : ∀ x y next, keep x = true → keep y = true → cut x y (next.map f) = cut x y next) (cs : List Char) :
    blocks keep cut (cs.map f) = blocks keep cut cs := by
  induction cs with
  | nil => rfl
  | cons c cs ih =>
    by_cases hc : keep c = true
    case neg =>
      have hc := Bool.eq_false_iff.2 hc
      rw [List.map_cons, blocks_cons_of_neg ((hkeep c).trans hc), blocks_cons_of_neg hc, ih]
    -- behind a kept character the block goes on, or stops
    cases cs with
    | nil => rw [List.map_cons, List.map_nil, hfix c hc]
    | cons d after =>
      rw [List.map_cons] at ih
      rw [List.map_cons, List.map_cons, hfix c hc, blocks_cons_cons hc, blocks_cons_cons hc, ih, List.head?_map, hkeep]
      by_cases hd : keep d = true
      · rw [hfix d hd, hcut c d _ hc hd]
      · simp only [hd, Bool.false_and]

/-! ### Joined blocks -/

/-- A block in which the cut rule does not apply. -/
structure Uncut (keep : Char → Bool) (cut : Char → Char → Option Char → Bool) (w : List Char) : Prop where
  ne_nil : w ≠ []
  kept : ∀ c ∈ w, keep c = true
  whole : ∀ x, ∀ y ∈ w, ∀ next, cut x y next = false

theorem Uncut.tail {c d : Char} {w : List Char} (h : Uncut keep cut (c :: d :: w)) : Uncut keep cut (d :: w) :=
  ⟨List.cons_ne_nil _ _, fun e he => h.kept e (List.mem_cons_of_mem _ he),
    fun x y hy => h.whole x y (List.mem_cons_of_mem _ hy)⟩

theorem blocks_of_uncut {w : List Char} (h : Uncut keep cut w) : blocks keep cut w = [w] := by
  induction w with
  | nil => exact absurd rfl h.ne_nil
  | cons c w ih =>
    have hc := h.kept c List.mem_cons_self
    cases w with
    | nil => exact blocks_singleton hc
    | cons d w =>
      have hd := h.kept d (by simp)
      have hwhole := h.whole c d (by simp) w.head?
      rw [blocks_cons_cons hc, ih h.tail]
      simp [hd, hwhole]

theorem blocks_append_sep {w : List Char} (h : Uncut keep cut w) {sep : Char} (hsep : keep sep = false)
    (cs : List Char) : blocks keep cut (w ++ sep :: cs) = w :: blocks keep cut cs := by
  induction w with
  | nil => exact absurd rfl h.ne_nil
  | cons c w ih =>
    have hc := h.kept c List.mem_cons_self
    cases w with
    | nil =>
      rw [List.cons_append, List.nil_append, blocks_cons_cons hc, blocks_cons_of_neg hsep]
      cases blocks keep cut cs <;> simp [hsep]
    | cons d w =>
      have hd := h.kept d (by simp)
      -- nothing cuts the word, whatever stands behind it
      have hwhole := h.whole c d (by simp) (w ++ sep :: cs).head?
      have ih := ih h.tail
      rw [List.cons_append] at ih
      rw [List.cons_append, List.cons_append, blocks_cons_cons hc, ih, hwhole]
      simp [hd]

/-- Joined blocks are found again. -/
theorem blocks_intercalate {ws : List (List Char)} (h : ∀ w ∈ ws, Uncut keep cut w) {sep : Char}
    (hsep : keep sep = false) : blocks keep cut ([sep].intercalate ws) = ws := by
  induction ws with
  | nil => rfl
  | cons w ws ih =>
    have hw := h w List.mem_cons_self
    have ih := ih fun v hv => h v (List.mem_cons_of_mem _ hv)
    by_cases hnil : ws = []
    · subst hnil
      rw [List.intercalate_singleton]
      exact blocks_of_uncut hw
    · rw [List.intercalate_cons_of_ne_nil hnil, List.append_assoc, List.singleton_append, blocks_append_sep hw hsep, ih]

end CrudScaffold.Naming
