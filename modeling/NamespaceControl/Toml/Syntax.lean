import NamespaceControl.Config.Data
import NamespaceControl.Toml.Number
import NamespaceControl.Toml.Quoted
import NamespaceControl.Toml.Tables

/-!
# The syntax of TOML

A document is a sequence of lines, each of them empty, a key with its value, or the header of a
table. A document is read as its sections: the pairs before the first header, and each header with
the pairs below it. How sections make up tables is not a matter of syntax.

Values nest at most 127 deep, and a key has at most 127 parts.
-/

namespace NamespaceControl.Toml

/-! ## Keys -/

/-- One part of a key. -/
def keyPart? : Scan String := fun s =>
  match s with
  | '"' :: rest => Quoting.basic.scan rest
  | '\'' :: rest => Quoting.literal.scan rest
  | _ =>
    let part := s.takeWhile isBareKeyChar
    if part = [] then none else some (String.ofList part, s.dropWhile isBareKeyChar)

/-- A part of a key with the spaces around it. -/
def spacedKeyPart? : Scan String := fun s =>
  (keyPart? (skipSpaces s)).map fun (part, rest) => (part, skipSpaces rest)

/-- The number of levels that values and keys can have. -/
def depthLimit : Nat := 127

/-- A key: its parts, with dots between them. -/
def key? : Scan (List String) := fun s =>
  match separated '.' spacedKeyPart? s with
  | some (parts, rest) => if parts.length ≤ depthLimit then some (parts, rest) else none
  | none => none

/-! ## Values -/

/-- A key with its value. -/
def pair? (value : Scan Data) : Scan (List String × Data) := fun s => do
  let (key, s) ← key? s
  let s ← after? '=' s
  let (d, s) ← value (skipSpaces s)
  return ((key, d), s)

/-- The items of a list behind its opening bracket, and what follows the closing one. There may be
a comma behind the last item. -/
def items? (value : Scan Data) (s : List Char) : Option (List Data × List Char) :=
  match skipTrivia s with
  | ']' :: rest => some ([], rest)
  | s' =>
    match value s' with
    | none => none
    | some (d, rest) =>
      match skipTrivia rest with
      | ']' :: left => some ([d], left)
      | ',' :: left =>
        if left.length < s.length then
          (items? value left).map fun (more, end') => (d :: more, end')
        else none
      | _ => none
termination_by s.length

/-- The pairs of an inline table behind its opening brace, and what follows the closing one. -/
def inlinePairs? (value : Scan Data) : Scan (List (List String × Data)) := fun s =>
  match after? '\x7d' (skipSpaces s) with
  | some rest => some ([], rest)
  | none => do
    let spaced : Scan (List String × Data) := fun s =>
      (pair? value s).map fun (pair, rest) => (pair, skipSpaces rest)
    let (pairs, rest) ← separated ',' spaced s
    return (pairs, ← after? '\x7d' rest)

/-- A value in which lists and inline tables nest at most `depth` deep. -/
def value? : (depth : Nat) → Scan Data
  | _, 't' :: rest => (afterWord? ['r', 'u', 'e'] rest).map (Data.flag true, ·)
  | _, 'f' :: rest => (afterWord? ['a', 'l', 's', 'e'] rest).map (Data.flag false, ·)
  | depth + 1, '[' :: rest => (items? (value? depth) rest).map fun (d, left) => (.list d, left)
  | depth + 1, '\x7b' :: rest => do
    let (pairs, left) ← inlinePairs? (value? depth) rest
    return (.table .inline (← fill .inline [] pairs), left)
  | _, s =>
    match quoted? s with
    | some (text, rest) => some (.text text, rest)
    | none => (afterNumber? s).map (Data.other, ·)

/-! ## Sections -/

/-- The header of a section. -/
inductive Header where
  /-- The header of a table. -/
  | table (path : List String)
  /-- The header of one more table in a list of tables. -/
  | element (path : List String)

/-- A line of a document. -/
inductive DocumentLine where
  /-- A line with nothing on it. -/
  | empty
  /-- A header. -/
  | header (h : Header)
  /-- A key with its value. -/
  | pair (p : List String × Data)

/-- What stands on a line, and what follows it on the line. -/
def lineContent? : Scan DocumentLine := fun s =>
  match s with
  | [] => some (.empty, s)
  | '#' :: _ => some (.empty, s)
  | '\n' :: _ => some (.empty, s)
  | '\r' :: _ => some (.empty, s)
  | '[' :: '[' :: rest => do
    let (path, s) ← key? rest
    return (.header (.element path), ← after? ']' (← after? ']' s))
  | '[' :: rest => do
    let (path, s) ← key? rest
    return (.header (.table path), ← after? ']' s)
  | _ => (pair? (value? depthLimit) s).map fun (pair, rest) => (.pair pair, rest)

/-- The lines of a document. -/
def lines? (s : List Char) : Option (List DocumentLine) :=
  if s = [] then some []
  else
    match lineContent? (skipSpaces s) with
    | none => none
    | some (line, rest) =>
      match afterLine? rest with
      | none => none
      | some left => if left.length < s.length then (lines? left).map (line :: ·) else none
termination_by s.length

/-- A header with the pairs below it. -/
structure Section where
  /-- The header. -/
  header : Header
  /-- The pairs. -/
  pairs : List (List String × Data)

/-- The pairs before the first header, and the sections. -/
def sections : List DocumentLine → List (List String × Data) × List Section
  | [] => ([], [])
  | .empty :: rest => sections rest
  | .header h :: rest =>
    let (pairs, more) := sections rest
    ([], ⟨h, pairs⟩ :: more)
  | .pair p :: rest =>
    let (pairs, more) := sections rest
    (p :: pairs, more)

end NamespaceControl.Toml
