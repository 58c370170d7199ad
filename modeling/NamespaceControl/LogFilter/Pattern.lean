import NamespaceControl.LogFilter.Pattern.Set
import NamespaceControl.Text.Alphanumeric

/-!
# Patterns in log filters

Which texts are patterns: regular expressions, as far as a log filter can hold them. A pattern ends
before the brace that closes its field, so no brace that is opened in it is closed again: there are
no counted repetitions and no names in braces, and an opening brace outside a set is never right.

No two groups may have one name, and parts are nested at most 250 deep: a group, a set, a
repetition, a row of more than one part and a choice between rows are one level each.

`isPattern` says which texts are patterns.
-/

namespace NamespaceControl.LogFilter.Pattern

open Text

/-! ## Groups -/

/-- What an opening parenthesis begins. -/
inductive Opening where
  /-- A group, its name, if it has one, and the modes in it. -/
  | group (name : Option (List Char)) (m : Modes)
  /-- A change of modes, closed already. -/
  | change (m : Modes)

/-- A character with which the name of a group can begin. -/
def startsName (c : Char) : Bool := c == '_' || isAlphabetic c

/-- Any other character of the name of a group. -/
def isNameChar (c : Char) : Bool := ['_', '.', '[', ']'].contains c || isAlphanumeric c

/-- The name of a group and what follows its closing mark. -/
def name? (s : List Char) : Option (List Char × List Char) :=
  let name := s.takeWhile (· != '>')
  match s.dropWhile (· != '>') with
  | _ :: rest =>
    if name.head?.any startsName && name.tail.all isNameChar then some (name, rest) else none
  | [] => none

/-- What an opening parenthesis begins, and what is left to read behind that. -/
def opening? (m : Modes) (s : List Char) : Option (Opening × List Char) :=
  match m.skip s with
  | '?' :: 'P' :: '<' :: rest => (name? rest).map fun (name, left) => (.group (some name) m, left)
  | '?' :: '<' :: rest => (name? rest).map fun (name, left) => (.group (some name) m, left)
  | '?' :: rest =>
    let isInside (c : Char) := c != ':' && c != ')'
    let text := rest.takeWhile isInside
    if Modes.isChange text then
      match rest.dropWhile isInside with
      | ':' :: left => some (.group none (m.change text), left)
      | ')' :: left => if text = [] then none else some (.change (m.change text), left)
      | _ => none
    else none
  | rest => some (.group none m, rest)

/-! ## Patterns -/

/-- A part of a row: how deep it is nested, and whether it can be repeated. -/
structure Part where
  /-- The depth. -/
  depth : Nat
  /-- True for all but a change of modes. -/
  repeatable : Bool
  deriving DecidableEq, Repr

/-- The depth of the content of a group, from the depths of the rows before its last one and the
parts of that. -/
def choiceDepth (rows : List Nat) (parts : List Part) : Nat :=
  let last := rowDepth (parts.map Part.depth)
  if rows = [] then last else (last :: rows).foldl max 0 + 1

/-- The names of groups that were read, and what is left to read. -/
structure Progress where
  /-- The names. -/
  names : List (List Char)
  /-- What is left. -/
  rest : List Char
  deriving DecidableEq, Repr

/-- The depth of the content of a group, and where its closing parenthesis or the end of the
pattern is. What is read already are rows, by their depths, and the parts of another row, the
latest first. -/
def content? :
    (fuel : Nat) → Modes → (rows : List Nat) → List Part → Progress → Option (Nat × Progress)
  | 0, _, _, _, _ => none
  | fuel + 1, m, rows, parts, progress =>
    let names := progress.names
    match m.skip progress.rest with
    | [] => some (choiceDepth rows parts, ⟨names, []⟩)
    | ')' :: rest => some (choiceDepth rows parts, ⟨names, ')' :: rest⟩)
    | '|' :: rest => content? fuel m (rowDepth (parts.map Part.depth) :: rows) [] ⟨names, rest⟩
    | '[' :: rest => do
      let (depth, left) ← set? m rest
      content? fuel m rows (⟨depth, true⟩ :: parts) ⟨names, left⟩
    | '(' :: rest => do
      match ← opening? m rest with
      | (.change changed, left) => content? fuel changed rows (⟨0, false⟩ :: parts) ⟨names, left⟩
      | (.group name inner, left) =>
        guard (!name.any names.contains)
        let (depth, ended) ← content? fuel inner [] [] ⟨name.toList ++ names, left⟩
        match ended.rest with
        | _ :: left' => content? fuel m rows (⟨depth + 1, true⟩ :: parts) ⟨ended.names, left'⟩
        | [] => none
    | c :: rest =>
      if ['*', '+', '?'].contains c then
        match parts with
        | ⟨depth, true⟩ :: before =>
          let left :=
            match rest with
            | '?' :: left => left
            | _ => rest
          content? fuel m rows (⟨depth + 1, true⟩ :: before) ⟨names, left⟩
        | _ => none
      else if c = '\x7b' then none
      else do
        let (atom, left) ← atom? m (c :: rest)
        guard (m.allows atom)
        content? fuel m rows (⟨0, true⟩ :: parts) ⟨names, left⟩

/-- The number of levels that patterns can have. -/
def depthLimit : Nat := 250

/-- True for a pattern. -/
def isPattern (text : List Char) : Bool :=
  match content? (text.length + 1) .initial [] [] ⟨[], text⟩ with
  | some (depth, ended) => ended.rest = [] && depth ≤ depthLimit
  | none => false

end NamespaceControl.LogFilter.Pattern
