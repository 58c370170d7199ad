import NamespaceControl.Toml.Scan

/-!
# Numbers and dates in TOML

Which texts are integers, floating-point numbers, dates and times. No setting takes one, so a
reader only says what follows it; but a number that is out of range, or a date with a month or a
day out of range, is no value at all, and the text that holds it does not fit.

Integers have 64 bits. A floating-point number must not be as large as to round to infinity.
-/

namespace NamespaceControl.Toml

open Text

/-! ## Digits -/

/-- Digits of a class with single underscores between them, behind a first digit: the digits, and
what follows. -/
def moreDigits (inClass : Char → Bool) : List Char → List Char × List Char
  | '_' :: c :: rest =>
    if inClass c then
      let (digits, left) := moreDigits inClass rest
      (c :: digits, left)
    else ([], '_' :: c :: rest)
  | c :: rest =>
    if inClass c then
      let (digits, left) := moreDigits inClass rest
      (c :: digits, left)
    else ([], c :: rest)
  | [] => ([], [])

/-- One or more digits of a class with single underscores between them. -/
def digits? (inClass : Char → Bool) : Scan (List Char)
  | c :: rest =>
    if inClass c then
      let (digits, left) := moreDigits inClass rest
      some (c :: digits, left)
    else none
  | [] => none

/-- A number of exactly `count` decimal digits that lies between two bounds. -/
def fixed? (count low high : Nat) : Scan Nat := fun s =>
  let digits := s.take count
  let n := digitsValue 10 digits
  if digits.length = count ∧ digits.all isDecimal ∧ low ≤ n ∧ n ≤ high then some (n, s.drop count)
  else none

/-! ## Dates and times -/

/-- What follows a date. Every month may have 31 days. -/
def afterDate? (s : List Char) : Option (List Char) := do
  let (_, s) ← fixed? 4 0 9999 s
  let s ← after? '-' s
  let (_, s) ← fixed? 2 1 12 s
  let s ← after? '-' s
  let (_, s) ← fixed? 2 1 31 s
  return s

/-- What follows the fraction of a second, if there is one. -/
def skipFraction (s : List Char) : List Char :=
  match s with
  | '.' :: c :: rest => if isDecimal c then rest.dropWhile isDecimal else s
  | _ => s

/-- What follows a time of day. -/
def afterTime? (s : List Char) : Option (List Char) := do
  let (_, s) ← fixed? 2 0 23 s
  let s ← after? ':' s
  let (_, s) ← fixed? 2 0 59 s
  let s ← after? ':' s
  let (_, s) ← fixed? 2 0 60 s
  return skipFraction s

/-- What follows a distance from universal time. -/
def afterOffset? (s : List Char) : Option (List Char) :=
  match s with
  | 'Z' :: rest => some rest
  | 'z' :: rest => some rest
  | c :: rest =>
    if c = '+' ∨ c = '-' then do
      let (_, s) ← fixed? 2 0 23 rest
      let s ← after? ':' s
      let (_, s) ← fixed? 2 0 59 s
      return s
    else none
  | [] => none

/-- What follows a time behind a date, if there is one. -/
def skipTimeOfDate (s : List Char) : List Char :=
  match s with
  | c :: rest =>
    if c = 'T' ∨ c = 't' ∨ c = ' ' then
      match afterTime? rest with
      | some left => (afterOffset? left).getD left
      | none => s
    else s
  | [] => s

/-- What follows a date, a time of day, or both. -/
def afterDateTime? (s : List Char) : Option (List Char) :=
  match afterDate? s with
  | some rest => some (skipTimeOfDate rest)
  | none => afterTime? s

/-! ## Numbers -/

/-- Whether there is a minus sign, and what follows the sign, if there is one. -/
def skipSign : List Char → Bool × List Char
  | '+' :: rest => (false, rest)
  | '-' :: rest => (true, rest)
  | s => (false, s)

/-- What follows a given word. -/
def afterWord? (word : List Char) (s : List Char) : Option (List Char) :=
  if word.isPrefixOf s then some (s.drop word.length) else none

/-- The digits of a decimal integer, which has no superfluous zero in front. -/
def wholeDigits? : Scan (List Char)
  | '0' :: rest => some (['0'], rest)
  | s => digits? isDecimal s

/-- The digits of a fraction, if there is one. -/
def fraction? (s : List Char) : Option (List Char × List Char) := do
  digits? isDecimal (← after? '.' s)

/-- An exponent, if there is one. -/
def exponent? : Scan Int
  | c :: rest =>
    if c = 'e' ∨ c = 'E' then do
      let (negative, s) := skipSign rest
      let (digits, s) ← digits? isDecimal s
      let n : Int := digitsValue 10 digits
      return (if negative then -n else n, s)
    else none
  | [] => none

/-- Integers lie below this bound, and not below its negative. -/
def integerBound : Nat := Nat.pow 2 63

/-- The least integers that round to infinity start here: half a unit above the largest number of
the format. -/
def infinityBound : Nat := Nat.pow 2 1024 - Nat.pow 2 970

/-- True if the number with the given digits, scaled by a power of ten, rounds to infinity. -/
def roundsToInfinity (digits : List Char) (exponent : Int) : Bool :=
  let n := digitsValue 10 digits
  if n = 0 ∨ digits.length + exponent ≤ 308 then false
  else if exponent > 308 then true
  else if exponent < 0 then infinityBound * Nat.pow 10 exponent.natAbs ≤ n
  else infinityBound ≤ n * Nat.pow 10 exponent.natAbs

/-- What follows a decimal number. -/
def afterDecimal? (s : List Char) : Option (List Char) := do
  let (negative, s) := skipSign s
  let (whole, s) ← wholeDigits? s
  let (places, afterFraction) := (fraction? s).getD ([], s)
  let (exponent, rest) := (exponent? afterFraction).getD (0, afterFraction)
  if rest.length = s.length then
    let n := digitsValue 10 whole
    if n < integerBound ∨ (negative ∧ n = integerBound) then return s else none
  else if !negative && roundsToInfinity (whole ++ places) (exponent - places.length) then none
  else return rest

/-- What follows an integer in a base that is named in front of it. -/
def afterBased? (s : List Char) : Option (List Char) :=
  let ofBase (base : Nat) (inClass : Char → Bool) (rest : List Char) := do
    let (digits, left) ← digits? inClass rest
    if digitsValue base digits < integerBound then some left else none
  match s with
  | '0' :: 'x' :: rest => ofBase 16 isHex rest
  | '0' :: 'o' :: rest => ofBase 8 (fun c => '0' ≤ c && c ≤ '7') rest
  | '0' :: 'b' :: rest => ofBase 2 (fun c => c == '0' || c == '1') rest
  | _ => none

/-- What follows a number that has a name, with its sign. -/
def afterNamed? (s : List Char) : Option (List Char) :=
  let unsigned := (skipSign s).2
  (afterWord? ['i', 'n', 'f'] unsigned).or (afterWord? ['n', 'a', 'n'] unsigned)

/-- What follows a number, a date or a time. -/
def afterNumber? (s : List Char) : Option (List Char) :=
  (afterDateTime? s).or <| (afterNamed? s).or <| (afterBased? s).or (afterDecimal? s)

end NamespaceControl.Toml
