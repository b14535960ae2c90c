import CrudScaffold.Number.Binary

/-!
# CrudScaffold.Number.Written — numbers as text

* `shortest`: the fewest digits that read back, positional from `0.0001` to below `10 ^ 16`, always with a point or
  an exponent.
* `general`: at most six significant digits, without trailing zeros.
* `fixed3`: three places after the point.
* `grouped`: a whole number with a comma before every third digit from the right.

Rounding is exact on the binary value; a tie goes to the even digit.
-/

namespace CrudScaffold.Number

/-- A ratio `m · 2 ^ q` as numerator and denominator. -/
def ratio (m : Nat) (q : Int) : Nat × Nat := scaleByTwo m 1 q

/-- `num / den · 10 ^ shift` as numerator and denominator. -/
def scaleByTen (num den : Nat) (shift : Int) : Nat × Nat :=
  if 0 ≤ shift then (num * tenTo shift.toNat, den) else (num, den * tenTo (-shift).toNat)

/-- The decimal digits of a whole number. -/
def digitsOf (n : Nat) : List Char := Nat.toDigits 10 n

/-- The `k` with `10 ^ (k - 1) ≤ num / den < 10 ^ k`. -/
def pointPosition (num den : Nat) : Int :=
  let guess : Int := ((digitsOf num).length : Int) - (digitsOf den).length
  let (n, d) := scaleByTen num den (-guess)
  if n < d then guess else guess + 1

/-- A positive value rounded to `count` significant digits: the digits, and the position of the point after the
first of them. -/
def significant (num den count : Nat) : Nat × Int :=
  let k := pointPosition num den
  let (n, d) := scaleByTen num den (count - k)
  let r := roundDiv n d
  if r = tenTo count then (tenTo (count - 1), k + 1) else (r, k)

/-- The candidates with `count` significant digits next to the value `num / den` that read back as the number with
bit pattern `bits`, the nearer first. -/
def readsBack (bits num den count : Nat) : Option (Nat × Int) :=
  let k := pointPosition num den
  let (n, d) := scaleByTen num den (count - k)
  let low := n / d
  let rounded := roundDiv n d
  let other := if rounded = low then low + 1 else low
  let ok (digits : Nat) : Bool :=
    let (a, b) := scaleByTen digits 1 (k - count)
    nearestBits a b == bits
  if ok rounded then some (rounded, k) else if ok other then some (other, k) else none

/-- Digits without trailing zeros. -/
def trimZeros (cs : List Char) : List Char := (cs.reverse.dropWhile (· == '0')).reverse

/-- The shortest digits that read back as the number `m · 2 ^ q`, and the position of the point. -/
def shortestDigits (m : Nat) (q : Int) : List Char × Int :=
  let (num, den) := ratio m q
  let bits := nearestBits num den
  let (digits, k, count) := ((List.range 17).findSome? fun i =>
    (readsBack bits num den (i + 1)).map fun (d, k) => (d, k, i + 1)).getD (0, 0, 1)
  let cs := digitsOf digits
  (trimZeros cs, k + cs.length - count)

/-- An exponent with its sign and at least two digits. -/
def exponentText (e : Int) : List Char :=
  let digits := digitsOf e.natAbs
  'e' :: (if e < 0 then '-' else '+') :: (List.replicate (2 - digits.length) '0' ++ digits)

/-- Digits with the point after the first `k` of them; positional if `-4 < k` and `k ≤ limit`. -/
def layOut (digits : List Char) (k : Int) (limit : Int) (pointZero : Bool) : List Char :=
  if -4 < k ∧ k ≤ limit then
    if k ≤ 0 then '0' :: '.' :: List.replicate (-k).toNat '0' ++ digits
    else if (digits.length : Int) ≤ k then
      digits ++ List.replicate (k.toNat - digits.length) '0' ++ if pointZero then ['.', '0'] else []
    else digits.take k.toNat ++ '.' :: digits.drop k.toNat
  else
    (match digits with
      | [] => []
      | [d] => [d]
      | d :: more => d :: '.' :: more) ++ exponentText (k - 1)

/-- A sign in front of a negative number. -/
def signed (negative : Bool) (cs : List Char) : String := String.ofList (if negative then '-' :: cs else cs)

/-- The fewest digits that read back. -/
def shortest (x : Float) : String :=
  match Reading.of x with
  | .nan => "nan"
  | .infinite negative => signed negative ['i', 'n', 'f']
  | .finite negative m q =>
    if m = 0 then signed negative ['0', '.', '0'] else
    let (digits, k) := shortestDigits m q
    signed negative (layOut digits k 16 true)

/-- At most six significant digits, without trailing zeros. -/
def general (x : Float) : String :=
  match Reading.of x with
  | .nan => "nan"
  | .infinite negative => signed negative ['i', 'n', 'f']
  | .finite negative m q =>
    if m = 0 then signed negative ['0'] else
    let (num, den) := ratio m q
    let (digits, k) := significant num den 6
    signed negative (layOut (trimZeros (digitsOf digits)) k 6 false)

/-- Three places after the point. -/
def fixed3 (x : Float) : String :=
  match Reading.of x with
  | .nan => "nan"
  | .infinite negative => signed negative ['i', 'n', 'f']
  | .finite negative m q =>
    let (num, den) := ratio m q
    let thousandths := roundDiv (1000 * num) den
    let places := digitsOf (thousandths % 1000)
    signed negative (digitsOf (thousandths / 1000) ++ '.' :: List.replicate (3 - places.length) '0' ++ places)

/-- Digits, the last first, with a comma after every third. -/
def groupReversed : List Char → List Char
  | a :: b :: c :: d :: rest => a :: b :: c :: ',' :: groupReversed (d :: rest)
  | short => short

/-- A whole number with a comma before every third digit from the right. -/
def grouped (n : Int) : String := signed (n < 0) (groupReversed (digitsOf n.natAbs).reverse).reverse

end CrudScaffold.Number
