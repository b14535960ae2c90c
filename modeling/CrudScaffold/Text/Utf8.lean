/-!
# CrudScaffold.Text.Utf8 — characters as bytes and as two halves

`decode` reads a byte string as UTF-8 text, or says where and why it is none.  The fault named is the first one from
the left: a byte that starts no sequence, a sequence that breaks off before the end of the data, or one that the end
of the data cuts short.

A character beyond U+FFFF may also be written as two numbers, a high and a low surrogate.  A half without the other one
stands for the replacement character.
-/

namespace CrudScaffold.Text

/-- The number is the first half of a character. -/
def isHighSurrogate (n : Nat) : Bool := 0xd800 ≤ n && n < 0xdc00

/-- The number is the second half of a character. -/
def isLowSurrogate (n : Nat) : Bool := 0xdc00 ≤ n && n < 0xe000

/-- The character of two halves. -/
def joinSurrogates (high low : Nat) : Char := Char.ofNat (0x10000 + (high - 0xd800) * 0x400 + (low - 0xdc00))

/-- What stands for a half without the other one. -/
def replacement : Char := Char.ofNat 0xfffd

/-- The character with a number, the replacement for a half. -/
def charOfNumber (n : Nat) : Char := if isHighSurrogate n || isLowSurrogate n then replacement else Char.ofNat n

namespace Utf8

/-- Why a byte string is not UTF-8. -/
inductive Reason where
  | invalidStart
  | invalidContinuation
  | unexpectedEnd
  deriving DecidableEq, Repr

/-- The first fault of a byte string: the bytes from `first` on, `width` of them, of which the first is `byte`. -/
structure Fault where
  first : Nat
  width : Nat
  byte : UInt8
  reason : Reason
  deriving DecidableEq, Repr

/-- A byte that may continue a sequence. -/
def isContinuation (b : UInt8) : Bool := 0x80 ≤ b && b < 0xc0

/-- A byte that may follow the start `lead`: overlong forms, surrogates and values past U+10FFFF are excluded. -/
def mayFollow (lead b : UInt8) : Bool :=
  isContinuation b &&
    (lead != 0xe0 || 0xa0 ≤ b) && (lead != 0xed || b < 0xa0) && (lead != 0xf0 || 0x90 ≤ b) && (lead != 0xf4 || b < 0x90)

/-- How many bytes must follow a start byte above ASCII, none if it starts no sequence. -/
def following (lead : UInt8) : Nat :=
  if lead < 0xc2 then 0 else if lead < 0xe0 then 1 else if lead < 0xf0 then 2 else if lead < 0xf5 then 3 else 0

/-- How many of the `need` bytes after `lead` are present and allowed. -/
def allowedAfter (lead : UInt8) (need : Nat) (rest : List UInt8) : Nat :=
  match rest.take need with
  | [] => 0
  | b :: more => if mayFollow lead b then 1 + (more.takeWhile isContinuation).length else 0

/-- The first fault of `bytes`, which stand from offset `at_` on. -/
def firstFault (at_ : Nat) : List UInt8 → Option Fault
  | [] => none
  | b :: rest =>
    if b < 0x80 then firstFault (at_ + 1) rest
    else
      let need := following b
      let got := allowedAfter b need rest
      if need = 0 then some ⟨at_, 1, b, .invalidStart⟩
      else if got = need then firstFault (at_ + 1 + need) (rest.drop need)
      else if rest.length = got then some ⟨at_, 1 + got, b, .unexpectedEnd⟩
      else some ⟨at_, 1 + got, b, .invalidContinuation⟩
termination_by bytes => bytes.length
decreasing_by all_goals simp only [List.length_cons, List.length_drop]; omega

/-- Reads a byte string as UTF-8. -/
def decode (bytes : ByteArray) : Except Fault String :=
  match String.fromUTF8? bytes with
  | some s => .ok s
  | none => .error ((firstFault 0 bytes.data.toList).getD ⟨0, 0, 0, .unexpectedEnd⟩)

/-- The wording of a reason. -/
def Reason.message : Reason → String
  | .invalidStart => "invalid start byte"
  | .invalidContinuation => "invalid continuation byte"
  | .unexpectedEnd => "unexpected end of data"

/-- The wording of a fault. -/
def Fault.message (f : Fault) : String :=
  let hex := Nat.toDigits 16 f.byte.toNat
  let byte := String.ofList (List.replicate (2 - hex.length) '0' ++ hex)
  let place :=
    if f.width = 1 then s!"byte 0x{byte} in position {f.first}"
    else s!"bytes in position {f.first}-{f.first + f.width - 1}"
  s!"'utf-8' codec can't decode {place}: {f.reason.message}"

end Utf8

end CrudScaffold.Text
