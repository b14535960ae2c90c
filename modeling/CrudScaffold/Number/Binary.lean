/-!
# CrudScaffold.Number.Binary — binary floating-point numbers as exact ratios

A finite `Float` is `± m · 2 ^ q`.  `Reading.of` takes a number apart, `nearest` rounds an exact ratio to the
nearest number (a tie goes to the even neighbour), so that decimal texts can be read and written without error.
-/

namespace CrudScaffold.Number

/-- A power of two. -/
def twoTo (n : Nat) : Nat := Nat.pow 2 n

/-- A power of ten. -/
def tenTo (n : Nat) : Nat := Nat.pow 10 n

/-- A floating-point number taken apart. -/
inductive Reading where
  | nan
  | infinite (negative : Bool)
  | finite (negative : Bool) (m : Nat) (q : Int)
  deriving DecidableEq, Repr

/-- Takes a number apart. -/
def Reading.of (x : Float) : Reading :=
  let bits := x.toBits.toNat
  let negative := bits / twoTo 63 == 1
  let exponent : Nat := bits / twoTo 52 % twoTo 11
  let fraction : Nat := bits % twoTo 52
  if exponent = 2047 then (if fraction = 0 then .infinite negative else .nan)
  else if exponent = 0 then .finite negative fraction (-1074)
  else .finite negative (fraction + twoTo 52) (exponent - 1075)

/-- A number has exactly the value of a whole number. -/
def isWhole (x : Float) (n : Int) : Bool :=
  match Reading.of x with
  | .finite negative m q =>
    let size := if 0 ≤ q then m * twoTo q.toNat else m / twoTo (-q).toNat
    let exact := decide (0 ≤ q) || m % twoTo (-q).toNat == 0
    exact && (if negative then -(size : Int) else size) == n
  | _ => false

/-- `num / den` rounded to a whole number, a tie going to the even one. -/
def roundDiv (num den : Nat) : Nat :=
  let low := num / den
  let twice := 2 * (num % den)
  if twice < den then low else if den < twice then low + 1 else low + low % 2

/-- `num · 2 ^ shift / den` as a pair of a numerator and a denominator. -/
def scaleByTwo (num den : Nat) (shift : Int) : Nat × Nat :=
  if 0 ≤ shift then (num * twoTo shift.toNat, den) else (num, den * twoTo (-shift).toNat)

/-- The bit pattern of the nearest non-negative number to `num / den`. -/
def nearestBits (num den : Nat) : Nat :=
  if num = 0 then 0 else
  let guess : Int := (num.log2 : Int) - den.log2
  let (n, d) := scaleByTwo num den (-guess)
  let magnitude := if n < d then guess - 1 else guess
  let q := max (magnitude - 52) (-1074)
  let (n, d) := scaleByTwo num den (-q)
  let m := roundDiv n d
  let (m, q) := if m = twoTo 53 then (twoTo 52, q + 1) else (m, q)
  if 971 < q then 2047 * twoTo 52
  else if m < twoTo 52 then m
  else (q + 1075).toNat * twoTo 52 + (m - twoTo 52)

/-- The nearest number to `± num / den`. -/
def nearest (negative : Bool) (num den : Nat) : Float :=
  Float.ofBits (nearestBits num den + if negative then twoTo 63 else 0).toUInt64

/-- The nearest number to a whole one. -/
def ofWhole (n : Int) : Float := nearest (n < 0) n.natAbs 1

/-- Positive infinity. -/
def infinity : Float := Float.ofBits 0x7ff0000000000000

/-- A value that is no number. -/
def notANumber : Float := Float.ofBits 0x7ff8000000000000

/-- The nearest number to `± digits · 10 ^ exponent`.  Magnitudes beyond every number are cut off first, so that the
work stays in proportion to the text. -/
def ofDecimal (negative : Bool) (digits : Nat) (exponent : Int) : Float :=
  let size : Int := ((Nat.toDigits 10 digits).length : Int) + exponent
  if digits = 0 ∨ size < -400 then nearest negative 0 1
  else if 400 < size then Float.ofBits (if negative then 0xfff0000000000000 else 0x7ff0000000000000)
  else if 0 ≤ exponent then nearest negative (digits * tenTo exponent.toNat) 1
  else nearest negative digits (tenTo (-exponent).toNat)

end CrudScaffold.Number
