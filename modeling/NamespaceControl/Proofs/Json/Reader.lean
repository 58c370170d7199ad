import NamespaceControl.Text.Json
import NamespaceControl.Toml.Scan

/-!
# Reading JSON

What a text of JSON says, read by the grammar of the format and not by how this library writes it:
spaces may stand between any two tokens, and a string may have every escape there is, also that of
a character beyond U+FFFF as two halves. Numbers and `null` are not read, since no line of output
has them, and neither is a text that is no JSON.
-/

namespace NamespaceControl.Text.Json

open Toml (Scan after? separated)

/-- A value that a text of JSON writes. -/
inductive Value where
  /-- A string. -/
  | string (text : String)
  /-- A truth value. -/
  | boolean (b : Bool)
  /-- A list. -/
  | list (items : List Value)
  /-- An object, with its members as they stand. -/
  | object (members : List (String × Value))

namespace Value

/-- The string that a value is. -/
def text? : Value → Option String
  | string text => some text
  | _ => none

/-- The truth value that a value is. -/
def truth? : Value → Option Bool
  | boolean b => some b
  | _ => none

/-- The strings that a value lists. -/
def texts? : Value → Option (List String)
  | list items => items.mapM text?
  | _ => none

/-- The strings of a list of strings. -/
theorem texts?_strings (items : List String) : texts? (.list (items.map .string)) = some items := by
  induction items with
  | nil => rfl
  | cons item items ih =>
    simp only [texts?, List.map_cons, List.mapM_cons, text?] at ih ⊢
    rw [ih]
    rfl

end Value

/-! ## Strings -/

/-- The number that four hexadecimal digits write. -/
def unit? : Scan Nat
  | a :: b :: c :: d :: rest =>
    if [a, b, c, d].all isHex then some (digitsValue 16 [a, b, c, d], rest) else none
  | _ => none

/-- The character that is named by its code point, or by two halves of it if it lies beyond
U+FFFF. -/
def named? : Scan Char := fun s => do
  let (unit, s) ← unit? s
  if 0xD800 ≤ unit ∧ unit < 0xDC00 then
    let (low, s) ← unit? (← after? 'u' (← after? '\\' s))
    if 0xDC00 ≤ low ∧ low < 0xE000 then
      return (Char.ofNat (0x10000 + (unit - 0xD800) * 0x400 + (low - 0xDC00)), s)
    else none
  else if unit.isValidChar then return (Char.ofNat unit, s) else none

/-- The character that an escape stands for, after its backslash. -/
def escaped? : Scan Char
  | '"' :: rest => some ('"', rest)
  | '\\' :: rest => some ('\\', rest)
  | '/' :: rest => some ('/', rest)
  | 'b' :: rest => some ('\x08', rest)
  | 'f' :: rest => some ('\x0c', rest)
  | 'n' :: rest => some ('\n', rest)
  | 'r' :: rest => some ('\r', rest)
  | 't' :: rest => some ('\t', rest)
  | 'u' :: rest => named? rest
  | _ => none

/-- The rest of a string behind its opening mark, and what follows its closing mark. An escape never
leaves more to read than there was behind its backslash. -/
def body? (s : List Char) : Option (List Char × List Char) :=
  match s with
  | [] => none
  | c :: rest =>
    if c = '"' then some ([], rest)
    else if c = '\\' then
      match escaped? rest with
      | some (e, left) =>
        if left.length ≤ rest.length then (body? left).map fun (text, end') => (e :: text, end')
        else none
      | none => none
    else if 0x20 ≤ c.toNat then (body? rest).map fun (text, end') => (c :: text, end')
    else none
termination_by s.length

/-- A string. -/
def string? : Scan String := fun s => do
  let (text, rest) ← body? (← after? '"' s)
  return (String.ofList text, rest)

/-! ## Values -/

/-- A character that may stand between tokens. -/
def isSpace (c : Char) : Bool := c == ' ' || c == '\t' || c == '\n' || c == '\r'

/-- What follows spaces. -/
def skipSpaces (s : List Char) : List Char := s.dropWhile isSpace

/-- A thing with the spaces around it. -/
def spaced? {α : Type} (thing : Scan α) : Scan α := fun s =>
  (thing (skipSpaces s)).map fun (a, rest) => (a, skipSpaces rest)

/-- Things with commas between them up to a closing mark, and what follows it. -/
def listed? {α : Type} (close : Char) (thing : Scan α) : Scan (List α) := fun s =>
  match after? close (skipSpaces s) with
  | some rest => some ([], rest)
  | none => do
    let (things, rest) ← separated ',' thing s
    return (things, ← after? close rest)

/-- A member of an object: its key and its value. -/
def member? (value : Scan Value) : Scan (String × Value) := fun s => do
  let (key, s) ← spaced? string? s
  let (v, s) ← spaced? value (← after? ':' s)
  return ((key, v), s)

/-- A value with at most `depth` levels, of which a string or a truth value is one by itself. -/
def value? : (depth : Nat) → Scan Value
  | 0, _ => none
  | depth + 1, s =>
    match s with
    | '[' :: rest =>
      (listed? ']' (spaced? (value? depth)) rest).map fun (items, left) => (.list items, left)
    | '\x7b' :: rest =>
      (listed? '\x7d' (member? (value? depth)) rest).map fun (members, left) =>
        (.object members, left)
    | 't' :: 'r' :: 'u' :: 'e' :: rest => some (.boolean true, rest)
    | 'f' :: 'a' :: 'l' :: 's' :: 'e' :: rest => some (.boolean false, rest)
    | _ => (string? s).map fun (text, rest) => (.string text, rest)

/-- The number of levels that values can have. -/
def depthLimit : Nat := 128

/-- The value that a text writes. -/
def parse? (text : String) : Option Value :=
  match spaced? (value? depthLimit) text.toList with
  | some (v, []) => some v
  | _ => none

end NamespaceControl.Text.Json
