/-!
# Digits

The numbers that digits write in a base, and the characters that are named by such a number.
-/

namespace NamespaceControl.Text

/-- A hexadecimal digit. -/
def isHex (c : Char) : Bool := c.isDigit || ('a' ≤ c && c ≤ 'f') || ('A' ≤ c && c ≤ 'F')

/-- The number that a digit of any base up to sixteen stands for. -/
def digitValue (c : Char) : Nat :=
  if c.isDigit then c.toNat - '0'.toNat
  else if 'a' ≤ c ∧ c ≤ 'f' then c.toNat - 'a'.toNat + 10
  else c.toNat - 'A'.toNat + 10

/-- The number that digits write in a base. -/
def digitsValue (base : Nat) (digits : List Char) : Nat :=
  digits.foldl (fun n c => n * base + digitValue c) 0

/-- The character with the code point that `count` hexadecimal digits write. -/
def codePoint? (count : Nat) (s : List Char) : Option (Char × List Char) :=
  let digits := s.take count
  let code := digitsValue 16 digits
  if digits.length = count ∧ digits.all isHex ∧ code.isValidChar then
    some (Char.ofNat code, s.drop count)
  else none

end NamespaceControl.Text
