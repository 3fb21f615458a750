import Resumable.Text.Blank

/-!
# Numerals

Numbers as texts: the value of a row of digits in a base, the limit on the digits of
a decimal numeral, and the integers as they may be written by a person.
-/

namespace Resumable.Text

/-- The value of an ASCII digit, up to fifteen; letters count in either case. -/
def digitValue (c : Char) : Nat :=
  if c.isDigit then c.toNat - 0x30
  else if 'a' ≤ c ∧ c ≤ 'f' then c.toNat - 0x57
  else if 'A' ≤ c ∧ c ≤ 'F' then c.toNat - 0x37
  else 0

/-- The number that a row of digits denotes in a base. -/
def numeralValue (base : Nat) (digits : List Char) : Nat :=
  digits.foldl (fun value digit => value * base + digitValue digit) 0

/-! ## Long numerals -/

/-- The most digits with which a decimal numeral is read and shown, if there is a limit.
Zeros at the front count, a sign does not. Numerals in another base have no limit. It is
for source texts, for what they are compiled to and for arguments: numbers in a description
or in the continuation-passing representation are shown whatever their length. -/
abbrev DigitLimit := Option Nat

/-- A decimal numeral is longer than the limit. -/
inductive Overlong where
  /-- A numeral with so many digits is not read. -/
  | numeral (most digits : Nat)
  /-- The numeral of a number is not shown. -/
  | number (most : Nat)
  deriving Repr, DecidableEq

/-- What is said about a numeral that is too long, in the words of the early releases
of 3.11; later ones add a word. -/
def Overlong.message (overlong : Overlong) : String :=
  let exceeded := fun most : Nat =>
    "Exceeds the limit (" ++ most.repr ++ ") for integer string conversion"
  let advice := "; use sys.set_int_max_str_digits() to increase the limit"
  match overlong with
  | .numeral most digits => exceeded most ++ ": value has " ++ digits.repr ++ " digits" ++ advice
  | .number most => exceeded most ++ advice

namespace DigitLimit

/-- The limit that holds unless another one is set. -/
def standard : DigitLimit := some 4300

/-- What is wrong with reading a decimal numeral of so many digits, if anything is. -/
def reading? : DigitLimit → Nat → Option Overlong
  | none, _ => none
  | some most, digits => if digits ≤ most then none else some (.numeral most digits)

/-- The decimal numeral of an integer. -/
def shown : DigitLimit → Int → Except Overlong String
  | none, value => .ok value.repr
  | some most, value =>
      if value.natAbs.repr.length ≤ most then .ok value.repr else .error (.number most)

end DigitLimit

/-! ## Integers written by a person -/

/-- The code points of the decimal zeros of Unicode 14.0. The other nine digits
follow each of them. -/
def decimalZeros : List Nat :=
  [0x30, 0x660, 0x6F0, 0x7C0, 0x966, 0x9E6, 0xA66, 0xAE6, 0xB66, 0xBE6, 0xC66, 0xCE6, 0xD66,
   0xDE6, 0xE50, 0xED0, 0xF20, 0x1040, 0x1090, 0x17E0, 0x1810, 0x1946, 0x19D0, 0x1A80, 0x1A90,
   0x1B50, 0x1BB0, 0x1C40, 0x1C50, 0xA620, 0xA8D0, 0xA900, 0xA9D0, 0xA9F0, 0xAA50, 0xABF0,
   0xFF10, 0x104A0, 0x10D30, 0x11066, 0x110F0, 0x11136, 0x111D0, 0x112F0, 0x11450, 0x114D0,
   0x11650, 0x116C0, 0x11730, 0x118E0, 0x11950, 0x11C50, 0x11D50, 0x11DA0, 0x16A60, 0x16AC0,
   0x16B50, 0x1D7CE, 0x1D7D8, 0x1D7E2, 0x1D7EC, 0x1D7F6, 0x1E140, 0x1E2F0, 0x1E950, 0x1FBF0]

/-- The value of a decimal digit of any script. -/
def decimalDigit? (c : Char) : Option Nat :=
  decimalZeros.findSome? fun start =>
    if start ≤ c.toNat ∧ c.toNat < start + 10 then some (c.toNat - start) else none

/-- Decimal digits after `value` has been read, with single underscores between
digits allowed. -/
def readDigits (value : Nat) : List Char → Option Nat
  | [] => some value
  | '_' :: c :: cs => do readDigits (value * 10 + (← decimalDigit? c)) cs
  | c :: cs => do readDigits (value * 10 + (← decimalDigit? c)) cs

/-- A natural number: one digit at least. -/
def readNat? : List Char → Option Nat
  | [] => none
  | c :: cs => do readDigits (← decimalDigit? c) cs

/-- A natural number that is not too long. -/
def readNatWithin? (limit : DigitLimit) (cs : List Char) : Option Nat :=
  match limit.reading? (cs.filter (· ≠ '_')).length with
  | none => readNat? cs
  | some _ => none

/-- An integer, with blanks around it and a sign before it allowed. -/
def readInt? (limit : DigitLimit) (text : String) : Option Int :=
  match trimBlanks text.toList with
  | '-' :: cs => (readNatWithin? limit cs).map fun n => -(n : Int)
  | '+' :: cs => (readNatWithin? limit cs).map Int.ofNat
  | cs => (readNatWithin? limit cs).map Int.ofNat

end Resumable.Text
