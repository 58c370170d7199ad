/-!
# Strings in JSON

The written form of a string in a line of JSON: a quote, a backslash and every character below
U+0020 are escaped, with the short escape where there is one, and all else stands as it is. So a
written string never holds a line break.
-/

namespace NamespaceControl.Text.Json

/-- The lower-case hexadecimal digit of a number below sixteen. -/
def hexDigit (n : Nat) : Char := Nat.digitChar n

/-- The written form of one character inside a string. -/
def escape (c : Char) : List Char :=
  match c with
  | '"' => ['\\', '"']
  | '\\' => ['\\', '\\']
  | '\x08' => ['\\', 'b']
  | '\t' => ['\\', 't']
  | '\n' => ['\\', 'n']
  | '\x0c' => ['\\', 'f']
  | '\r' => ['\\', 'r']
  | c =>
    if c.toNat < 0x20 then
      ['\\', 'u', '0', '0', hexDigit (c.toNat / 16), hexDigit (c.toNat % 16)]
    else [c]

/-- The written form of a string, with its quotes. -/
def quote (text : String) : String :=
  String.ofList ('"' :: text.toList.flatMap escape ++ ['"'])

/-- The members of an object or the items of a list, separated by commas. -/
def commaSeparated (parts : List String) : String := ",".intercalate parts

/-- An object with the given members, whose values are written already. -/
def object (members : List (String × String)) : String :=
  "\x7b" ++ commaSeparated (members.map fun (key, value) => quote key ++ ":" ++ value) ++ "\x7d"

/-- A list of strings. -/
def strings (items : List String) : String := "[" ++ commaSeparated (items.map quote) ++ "]"

/-- A truth value. -/
def boolean (b : Bool) : String := if b then "true" else "false"

end NamespaceControl.Text.Json
