import CrudScaffold.Text.CaseTable

/-!
# CrudScaffold.Text.Case — lower case, upper case and the test for upper case

Full case mapping of the Unicode standard: one character may become several, and a capital sigma at the end of a
word becomes a final sigma.  ASCII characters never reach the tables, so the laws about ASCII names need none of
them.
-/

namespace CrudScaffold.Text

/-- `n` lies in one of the class runs. -/
def inRuns (runs : List (Nat × Nat × Nat)) (n : Nat) : Bool :=
  runs.any fun (first, last, step) => first ≤ n && n ≤ last && (n - first) % step == 0

/-- The image of `n` under the first mapping run that holds it. -/
def mapByRuns (runs : List (Nat × Nat × Nat × Int)) (n : Nat) : Option Nat :=
  (runs.find? fun (first, last, step, _) => first ≤ n && n ≤ last && (n - first) % step == 0).map
    fun (_, _, _, shift) => (Int.ofNat n + shift).toNat

/-- The case of one character from the two tables of a direction, `c` itself if neither names it. -/
def mapChar (special : List (Nat × List Nat)) (runs : List (Nat × Nat × Nat × Int)) (c : Char) : List Char :=
  match special.lookup c.toNat with
  | some image => image.map Char.ofNat
  | none => match mapByRuns runs c.toNat with
    | some n => [Char.ofNat n]
    | none => [c]

/-- Lower case of a character other than the capital sigma. -/
def lowerChar (c : Char) : List Char :=
  if c.toNat < 128 then [c.toLower] else mapChar CaseTable.lowerSpecial CaseTable.lowerRuns c

/-- Upper case of a character. -/
def upperChar (c : Char) : List Char :=
  if c.toNat < 128 then [c.toUpper] else mapChar CaseTable.upperSpecial CaseTable.upperRuns c

/-- An uppercase character. -/
def isUpperChar (c : Char) : Bool :=
  if c.toNat < 128 then c.isUpper else inRuns CaseTable.uppercase c.toNat

/-- A lowercase character. -/
def isLowerChar (c : Char) : Bool :=
  if c.toNat < 128 then c.isLower else inRuns CaseTable.lowercase c.toNat

/-- A titlecase character, such as the digraph U+01C5. -/
def isTitleChar (c : Char) : Bool := inRuns CaseTable.titlecase c.toNat

/-- A character that has a case at all. -/
def isCased (c : Char) : Bool := isUpperChar c || isLowerChar c || isTitleChar c

/-- A character that does not separate a sigma from its neighbours. -/
def isCaseIgnorable (c : Char) : Bool := inRuns CaseTable.caseIgnorable c.toNat

/-- A capital sigma is final when a cased character stands before it and none after it. -/
def isFinalSigma (before after : List Char) : Bool :=
  ((before.dropWhile isCaseIgnorable).head?.any isCased) &&
    !((after.dropWhile isCaseIgnorable).head?.any isCased)

/-- Lower case of a text whose preceding characters, nearest first, are `before`. -/
def lowerAfter (before : List Char) : List Char → List Char
  | [] => []
  | c :: rest =>
    (if c.toNat = 0x3a3 then [Char.ofNat (if isFinalSigma before rest then 0x3c2 else 0x3c3)] else lowerChar c)
      ++ lowerAfter (c :: before) rest

/-- Lower case of a text. -/
def lowerChars (cs : List Char) : List Char := lowerAfter [] cs

/-- Upper case of a text. -/
def upperChars (cs : List Char) : List Char := cs.flatMap upperChar

/-- Lower case of a text. -/
def lower (s : String) : String := String.ofList (lowerChars s.toList)

/-- Upper case of a text. -/
def upper (s : String) : String := String.ofList (upperChars s.toList)

/-- An uppercase text has an uppercase character and none that is lowercase or titlecase. -/
def isUpperText (cs : List Char) : Bool :=
  cs.any isUpperChar && cs.all fun c => !(isLowerChar c || isTitleChar c)

end CrudScaffold.Text
