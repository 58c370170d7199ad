import NamespaceControl.LogFilter.Pattern.Basic

/-!
# Sets in patterns

A set stands in brackets. Its members are characters, ranges, classes and other sets, and two rows
of members may be joined by an operation. Reading a set gives the depth to which it is nested: one
level for each set, for each row of more than one member, and for each operation. An operation
takes all that is left of it as its left side.
-/

namespace NamespaceControl.LogFilter.Pattern

/-- True if a set may hold an atom as a member or as an end of a range. -/
def Modes.allowsMember (m : Modes) : Atom → Bool
  | .char c => if m.unicode then !m.caseless else c.toNat < 0x80
  | .byte c => if m.unicode then !m.caseless else c.toNat < 0x80
  | .shorthand negated => m.allowsShorthand negated
  | _ => false

/-! ## Members -/

/-- An atom in a set, and what follows it. -/
def member? (m : Modes) : List Char → Option (Atom × List Char)
  | '\\' :: rest => escape? m rest
  | c :: rest => some (.char c, rest)
  | [] => none

/-- The next character that counts behind a dash. The hash of a comment does not count, but what is
behind it does, on the same line or not. -/
def peek? (m : Modes) (s : List Char) : Option Char :=
  if m.spaced then
    match s.dropWhile Text.isBlank with
    | '#' :: rest => (rest.dropWhile Text.isBlank).head?
    | rest => rest.head?
  else s.head?

/-- What follows a member of a set or a range between two characters. A dash in front of a closing
bracket or of another dash does not make a range. -/
def afterMember? (m : Modes) (s : List Char) : Option (List Char) := do
  let (first, rest) ← member? m s
  guard (m.allowsMember first)
  match m.skip rest with
  | '-' :: behind =>
    if peek? m behind = some ']' ∨ peek? m behind = some '-' then return '-' :: behind
    else
      let (last, left) ← member? m (m.skip behind)
      guard (m.allowsMember last)
      guard ((← first.char?) ≤ (← last.char?))
      return left
  | left => return left

/-- The names of classes in sets. -/
def classNames : List String :=
  ["alnum", "alpha", "ascii", "blank", "cntrl", "digit", "graph", "lower", "print", "punct",
    "space", "upper", "word", "xdigit"]

/-- Whether a named class is negated, behind its opening bracket, and what follows it. -/
def namedClass? : List Char → Option (Bool × List Char)
  | ':' :: s =>
    let negated := s.head? = some '^'
    let s := if negated then s.tail else s
    let name := s.takeWhile (· != ':')
    match s.dropWhile (· != ':') with
    | ':' :: ']' :: rest =>
      if classNames.contains (String.ofList name) then some (negated, rest) else none
    | _ => none
  | _ => none

/-- True if a set may hold a named class. -/
def Modes.allowsNamed (m : Modes) (negated : Bool) : Bool :=
  if m.unicode then !m.caseless else !negated

/-! ## Sets -/

/-- The number of dashes, and what follows them. -/
def dashes (m : Modes) : (fuel : Nat) → List Char → Nat × List Char
  | fuel + 1, '-' :: rest =>
    let (count, left) := dashes m fuel (m.skip rest)
    (count + 1, left)
  | _, s => (0, s)

/-- The members that are themselves where a set begins, by their depths, and what follows them:
dashes, or else a closing bracket. A caret may stand in front, and negates the set. -/
def openSet? (m : Modes) (s : List Char) : Option (List Nat × List Char) := do
  let s := m.skip s
  let negated := s.head? = some '^'
  guard (m.unicode || !negated)
  let s := if negated then m.skip s.tail else s
  let (count, rest) :=
    match dashes m s.length s with
    | (0, ']' :: rest) => (1, rest)
    | counted => counted
  guard (count = 0 || m.allowsMember (.char '-'))
  return (List.replicate count 0, rest)

/-- The depth of a row of members with what is left of its operation, if there is one. -/
def operand (left : Option Nat) (row : List Nat) : Nat :=
  match left with
  | none => rowDepth row
  | some depth => max depth (rowDepth row) + 1

/-- The depth of what is in a set, and what follows its closing bracket. What is read already is
the left side of an operation, if there is one, and a row of members. -/
def afterSet? (m : Modes) :
    (fuel : Nat) → (left : Option Nat) → (row : List Nat) → List Char → Option (Nat × List Char)
  | 0, _, _, _ => none
  | fuel + 1, left, row, s =>
    match m.skip s with
    | [] => none
    | ']' :: rest => some (operand left row, rest)
    | '&' :: '&' :: rest => afterSet? m fuel (some (operand left row)) [] rest
    | '-' :: '-' :: rest => afterSet? m fuel (some (operand left row)) [] rest
    | '~' :: '~' :: rest => afterSet? m fuel (some (operand left row)) [] rest
    | '[' :: inside =>
      match namedClass? inside with
      | some (negated, rest) =>
        if m.allowsNamed negated then afterSet? m fuel left (0 :: row) rest else none
      | none => do
        let (begun, body) ← openSet? m inside
        let (depth, rest) ← afterSet? m fuel none begun body
        afterSet? m fuel left ((depth + 1) :: row) rest
    | first :: behind => do
      let rest ← afterMember? m (first :: behind)
      afterSet? m fuel left (0 :: row) rest

/-- The depth of a set, behind its opening bracket, and what follows it. -/
def set? (m : Modes) (s : List Char) : Option (Nat × List Char) := do
  let (begun, body) ← openSet? m s
  let (depth, rest) ← afterSet? m (body.length + 1) none begun body
  return (depth + 1, rest)

end NamespaceControl.LogFilter.Pattern
