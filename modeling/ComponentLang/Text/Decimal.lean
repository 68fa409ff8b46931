import ComponentLang.Text.Run

/-!
# Decimal numbers

Numbers are written with the digits 0 to 9 and read with the decimal digits of every script.

* `zeros` : the digit zero of each script; its other nine digits follow it;
* `digit?`, `isDigit` : the value of a digit;
* `ofNat`, `ofInt` : writing; `value` : the number that a run of digits denotes;
* `maxDigits`, `read`, `isWritable` : numbers that come from outside or go there have a limited
  number of digits;
* `padded` : writing flush right.
-/

namespace ComponentLang.Text

/-- The digit zero of each script. -/
def zeros : List Nat := [
  0x30, 0x660, 0x6F0, 0x7C0, 0x966, 0x9E6, 0xA66, 0xAE6, 0xB66, 0xBE6, 0xC66, 0xCE6, 0xD66, 0xDE6,
  0xE50, 0xED0, 0xF20, 0x1040, 0x1090, 0x17E0, 0x1810, 0x1946, 0x19D0, 0x1A80, 0x1A90, 0x1B50,
  0x1BB0, 0x1C40, 0x1C50, 0xA620, 0xA8D0, 0xA900, 0xA9D0, 0xA9F0, 0xAA50, 0xABF0, 0xFF10, 0x104A0,
  0x10D30, 0x11066, 0x110F0, 0x11136, 0x111D0, 0x112F0, 0x11450, 0x114D0, 0x11650, 0x116C0, 0x11730,
  0x118E0, 0x11950, 0x11C50, 0x11D50, 0x11DA0, 0x16A60, 0x16AC0, 0x16B50, 0x1D7CE, 0x1D7D8, 0x1D7E2,
  0x1D7EC, 0x1D7F6, 0x1E140, 0x1E2F0, 0x1E950, 0x1FBF0]

/-- The value of a decimal digit. -/
def digit? (c : Char) : Option Nat :=
  (zeros.find? fun z => z ≤ c.toNat && c.toNat < z + 10).map (c.toNat - ·)

/-- A decimal digit of any script. -/
def isDigit (c : Char) : Bool := (digit? c).isSome

/-- The number that a run of decimal digits denotes. -/
def value (t : Text) : Nat := t.foldl (fun n c => 10 * n + (digit? c).getD 0) 0

/-- The most digits of a number that is read or written. -/
def maxDigits : Nat := 4300

/-- Why digits are not read as a number. -/
inductive NumberError where
  /-- There are more of them than `maxDigits`. -/
  | tooManyDigits
deriving DecidableEq, Repr

/-- The number that a run of decimal digits denotes, if it is not too long. Zeros in front count
as digits. -/
def read (t : Text) : Except NumberError Nat :=
  if t.length ≤ maxDigits then .ok (value t) else .error .tooManyDigits

/-- A natural number in decimal digits. -/
def ofNat (n : Nat) : Text := Nat.toDigits 10 n

/-- An integer in decimal digits, with a minus sign if it is negative. -/
def ofInt : Int → Text
  | .ofNat n => ofNat n
  | .negSucc n => '-' :: ofNat (n + 1)

/-- The number has no more than `maxDigits` digits. -/
def isWritable (i : Int) : Bool := (ofNat i.natAbs).length ≤ maxDigits

/-- The text moved to the right until it is `width` wide, with `fill` before it. -/
def padded (width : Nat) (fill : Char) (t : Text) : Text :=
  List.replicate (width - t.length) fill ++ t

end ComponentLang.Text
