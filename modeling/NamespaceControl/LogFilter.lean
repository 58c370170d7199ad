import NamespaceControl.LogFilter.Pattern
import NamespaceControl.Text.Pieces
import NamespaceControl.Text.Utf8

/-!
# Log filters

Which texts say what to log. A filter is directives with commas between them, and empty ones are
passed over. A directive is a level, or a target, or a span in brackets with or without a target in
front; behind a target or a span there may be an equals sign and a level, but what stands alone may
as well be a target as a level. A span may have a field in braces, with or without a value. Names
may hold nearly all characters; only the first one of a target must be one of a name.

Blanks around a directive do not matter to its form. But its parts are taken out of the text with
the blanks, at the bytes where they are in the text without them. So a level behind an equals sign
is read only where there are no blanks; and with blanks in front, a part may begin or end inside of
a character, which breaks the reading off.

`check` says which texts are filters, and what is wrong with the others.
-/

namespace NamespaceControl.LogFilter

open Text

/-! ## Levels -/

/-- The names of the levels. -/
def levelNames : List String := ["off", "error", "warn", "info", "debug", "trace"]

/-- The greatest number of a level. -/
def greatestLevel : Nat := 5

/-- True for the number of a level, with or without a plus sign. -/
def isLevelNumber (text : List Char) : Bool :=
  let digits :=
    match text with
    | '+' :: rest => rest
    | _ => text
  digits != [] && digits.all Char.isDigit && digitsValue 10 digits ≤ greatestLevel

/-- True for what may stand behind an equals sign: the number of a level, its name, in capitals or
not, or nothing. -/
def isLevel (text : List Char) : Bool :=
  text == [] || isLevelNumber text || levelNames.contains (String.ofList (text.map Char.toLower))

/-! ## Fields -/

/-- True for the end of a number in decimal notation: nothing, or an exponent. -/
def isExponent : List Char → Bool
  | [] => true
  | c :: rest =>
    let digits :=
      match rest with
      | '+' :: digits => digits
      | '-' :: digits => digits
      | _ => rest
    (c == 'e' || c == 'E') && digits != [] && digits.all Char.isDigit

/-- True for a number in decimal notation, without a sign. -/
def isDecimalNumber (text : List Char) : Bool :=
  let whole := text.takeWhile Char.isDigit
  match text.dropWhile Char.isDigit with
  | '.' :: rest =>
    (whole != [] || rest.head?.any Char.isDigit) && isExponent (rest.dropWhile Char.isDigit)
  | rest => whole != [] && isExponent rest

/-- The names of what is written like a number and is none. -/
def numberNames : List String := ["inf", "infinity", "nan"]

/-- True for the value of a field: a truth value, a number or a pattern. A truth value and a number
without a plus sign are patterns, too. -/
def isValue (text : List Char) : Bool :=
  Pattern.isPattern text ||
    match text with
    | '+' :: rest =>
      isDecimalNumber rest || numberNames.contains (String.ofList (rest.map Char.toLower))
    | _ => false

/-- True for a field: a name, and perhaps an equals sign and a value. A second equals sign ends the
value, and what is behind it does not matter. -/
def isField (text : List Char) : Bool :=
  text != [] &&
    match text.dropWhile (· != '=') with
    | _ :: value => isValue (value.takeWhile (· != '='))
    | [] => true

/-! ## Directives -/

/-- What keeps a text from being a filter. -/
inductive Fault where
  /-- It does not have the form of one. -/
  | malformed
  /-- A part of it would begin or end inside of a character. -/
  | brokenCharacter
  deriving DecidableEq, Repr

/-- A text that must have a form. -/
def require (holds : Bool) : Except Fault Unit := if holds then .ok () else .error .malformed

/-- The text of a directive, with the blanks around it and without. -/
structure Directive where
  /-- With the blanks. -/
  whole : List Char
  /-- Without the blanks. -/
  text : List Char

namespace Directive

/-- The directive with a text. -/
def ofText (whole : List Char) : Directive := ⟨whole, trim whole⟩

/-- The number of bytes before the end `rest` of the text without the blanks. -/
def place (d : Directive) (rest : List Char) : Nat := Utf8.size d.text - Utf8.size rest

/-- The part of the text with the blanks from one byte up to another. -/
def slice (d : Directive) (start stop : Nat) : Except Fault (List Char) :=
  match Utf8.slice? start stop d.whole with
  | some part => .ok part
  | none => .error .brokenCharacter

/-- Check what stands behind a target or a span: nothing, or an equals sign and a level. -/
def checkSuffix (d : Directive) : List Char → Except Fault Unit
  | [] => .ok ()
  | '=' :: level => do require (isLevel (← d.slice (d.place level) (Utf8.size d.whole)))
  | _ => .error .malformed

/-- Check a span behind its opening bracket, and what stands behind it. -/
def checkSpan (d : Directive) (span : List Char) : Except Fault Unit := do
  let behind := span.dropWhile fun c => c != ']' && c != '\x7b'
  require (behind != [])
  let _ ← d.slice (d.place span) (d.place behind)
  match behind with
  | '\x7b' :: field =>
    let ending := field.dropWhile (· != '\x7d')
    require (ending != [])
    require (isField (← d.slice (d.place field) (d.place ending)))
    match ending with
    | _ :: ']' :: rest => d.checkSuffix rest
    | _ => .error .malformed
  | _ => d.checkSuffix behind.tail

/-- A character with which a directive can begin. -/
def startsWell (c : Char) : Bool := ['[', '-', ':', '_'].contains c || isAlphanumeric c

/-- Check a directive. -/
def check (d : Directive) : Except Fault Unit := do
  require (d.text.head?.any startsWell)
  match d.text.dropWhile fun c => c != '[' && c != '=' with
  | [] => return ()
  | c :: rest =>
    let _ ← d.slice 0 (d.place (c :: rest))
    if c = '[' then d.checkSpan rest else d.checkSuffix (c :: rest)

end Directive

/-! ## Filters -/

/-- Check a filter, one directive after the other. -/
def check (text : String) : Except Fault Unit :=
  (pieces ',' text.toList).forM fun directive =>
    if directive = [] then .ok () else (Directive.ofText directive).check

end NamespaceControl.LogFilter
