import CrudScaffold.Text.Blank
import CrudScaffold.Text.Pattern

/-!
# CrudScaffold.Naming.Words — the words of an identifier

A name written in any style is made of words of ASCII letters and digits.

* `underscored` puts underscores between the words, pass after pass: one pattern is replaced in the whole text before
  the next one is looked for.
* `camelWords` finds the words one after the other, each by the first alternative of a pattern that fits.
* `blocks` and `splitLastWord` cut a text at separators, and in front of its last word.
-/

namespace CrudScaffold.Naming

open CrudScaffold.Text

/-- A character of a lowercase tail word. -/
def isLowerOrDigit (c : Char) : Bool := c.isLower || c.isDigit

/-! ### Words by passes -/

/-- Capitals, and a capital with a small letter behind it: the end of an acronym and the start of a word. -/
def acronymEnd : Pattern := .seq (.group (.plus Char.isUpper)) (.group (.seq (.one Char.isUpper) (.one Char.isLower)))

/-- A small letter or a digit, and a capital. -/
def wordEnd : Pattern := .seq (.group (.one isLowerOrDigit)) (.group (.one Char.isUpper))

/-- Anything but a letter or a digit. -/
def foreign : Pattern := .one fun c => !c.isAlphanum

def isUnderscore (c : Char) : Bool := c == '_'

/-- Two underscores or more. -/
def manyUnderscores : Pattern := .seq (.one isUnderscore) (.plus isUnderscore)

/-- Underscores at the start or at the end of a text. -/
def outerUnderscores : Pattern :=
  .either (.seq .start (.plus isUnderscore)) (.seq (.plus isUnderscore) .finish)

/-- The remembered parts of a match, with an underscore between them. -/
def parted (groups : List (List Char)) : List Char := ['_'].intercalate groups

/-- The words of a text with underscores between them. -/
def underscored (cs : List Char) : List Char :=
  let cs := acronymEnd.replace parted cs
  let cs := wordEnd.replace parted cs
  let cs := foreign.replace (fun _ => ['_']) cs
  let cs := manyUnderscores.replace (fun _ => ['_']) cs
  outerUnderscores.replace (fun _ => []) cs

/-! ### Words one after the other -/

/-- A character that does not end a word.  The text that is searched has no letters beyond ASCII. -/
def isWordChar (c : Char) : Bool := c.isAlphanum || c == '_'

/-- Small letters, with a capital in front of them or not. -/
def smallWord : Pattern := .seq (.maybe (.one Char.isUpper)) (.plus Char.isLower)

/-- Capitals in front of the start of a word, of a digit, or of the end of all letters and digits. -/
def acronym : Pattern :=
  .seq (.plus Char.isUpper)
    (.ahead (.either (.seq (.one Char.isUpper) (.one Char.isLower)) (.either (.one Char.isDigit) (.edge isWordChar))))

/-- A word. -/
def wordPattern : Pattern :=
  .either smallWord (.either acronym (.either (.one Char.isUpper) (.plus Char.isDigit)))

/-- The words of a text, with blanks for what is neither a letter nor a digit. -/
def camelWords (cs : List Char) : List (List Char) := wordPattern.findAll (foreign.replace (fun _ => [' ']) cs)

/-! ### Blocks -/

/-- The maximal blocks of characters that satisfy `keep`, cut further where `cut x y next` holds of two neighbours
and the character after them. -/
def blocks (keep : Char → Bool) (cut : Char → Char → Option Char → Bool) : List Char → List (List Char)
  | [] => []
  | c :: cs =>
    if keep c then
      match cs, blocks keep cut cs with
      | d :: after, w :: ws => if keep d && !cut c d after.head? then (c :: w) :: ws else [c] :: w :: ws
      | _, ws => [c] :: ws
    else blocks keep cut cs

/-- The words together are the kept characters, in their order. -/
theorem flatten_blocks (keep : Char → Bool) (cut : Char → Char → Option Char → Bool) (cs : List Char) :
    (blocks keep cut cs).flatten = cs.filter keep := by
  induction cs with
  | nil => rfl
  | cons c cs ih =>
    unfold blocks
    by_cases hc : keep c = true
    · simp only [hc, if_true, List.filter_cons_of_pos]
      rw [← ih]
      split
      · split <;> simp_all
      · simp
    · simp [hc, ih]

/-- No word is empty. -/
theorem ne_nil_of_mem_blocks {keep : Char → Bool} {cut : Char → Char → Option Char → Bool} {cs w : List Char}
    (h : w ∈ blocks keep cut cs) : w ≠ [] := by
  induction cs generalizing w with
  | nil => simp [blocks] at h
  | cons c cs ih =>
    unfold blocks at h
    split at h
    · -- the character stands alone, or goes to the first block of the rest
      split at h
      · rename_i heq
        split at h
        · rcases List.mem_cons.1 h with rfl | h
          · simp
          · exact ih (heq ▸ List.mem_cons_of_mem _ h)
        · rcases List.mem_cons.1 h with rfl | h
          · simp
          · exact ih (heq ▸ h)
      · rcases List.mem_cons.1 h with rfl | h
        · simp
        · exact ih h
    · exact ih h

/-- A word is made of kept characters of the text. -/
theorem mem_of_mem_blocks {keep : Char → Bool} {cut : Char → Char → Option Char → Bool} {cs w : List Char}
    (h : w ∈ blocks keep cut cs) {c : Char} (hc : c ∈ w) : c ∈ cs ∧ keep c = true := by
  have hflat : c ∈ (blocks keep cut cs).flatten := List.mem_flatten.2 ⟨w, h, hc⟩
  rw [flatten_blocks] at hflat
  exact List.mem_filter.1 hflat

/-- A separator between the segments of a qualified name. -/
def isSeparator (c : Char) : Bool := c == '/' || c == '\\'

/-- The non-empty segments of a qualified name. -/
def segments (cs : List Char) : List (List Char) := blocks (fun c => !isSeparator c) (fun _ _ _ => false) cs

/-- A lowercase word with its first letter raised. -/
def capitalize : List Char → List Char
  | [] => []
  | c :: cs => c.toUpper :: cs

/-- What stands before the last word, and the last word: the longest ending made of an optional capital and
lowercase letters or digits, or else of capitals.  A name without such an ending is one word. -/
def splitLastWord (cs : List Char) : List Char × List Char :=
  let back := cs.reverse
  let low := back.takeWhile isLowerOrDigit
  let size :=
    if low.isEmpty then (back.takeWhile Char.isUpper).length
    else low.length + if (back.drop low.length).head?.any Char.isUpper then 1 else 0
  if size = 0 then ([], cs) else (cs.take (cs.length - size), cs.drop (cs.length - size))

end CrudScaffold.Naming
