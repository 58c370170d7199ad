import NamespaceControl.Text.Blank
import NamespaceControl.Text.Digits

/-!
# Modes and atoms of patterns

A pattern is a regular expression. It is read in modes, which it may change for the rest of a
group, and its smallest parts are atoms: characters, classes of them, and places.

What characters there are in Unicode is known, but nothing about them: while Unicode is on, there
are no classes of letters, digits or blanks, no boundaries of words, and no character whose case is
ignored. While it is off, nothing may match a byte beyond ASCII by itself.
-/

namespace NamespaceControl.LogFilter.Pattern

open Text

/-! ## Modes -/

/-- The modes in which a pattern is read. -/
structure Modes where
  /-- Characters are those of Unicode. -/
  unicode : Bool
  /-- Case is ignored. -/
  caseless : Bool
  /-- Blanks and comments may stand between the parts of a pattern. -/
  spaced : Bool
  deriving DecidableEq, Repr

namespace Modes

/-- The modes in which a pattern begins. -/
def initial : Modes := ⟨true, false, false⟩

/-- The letters of the modes, and the dash behind which they are turned off. -/
def letters : List Char := ['i', 'm', 's', 'U', 'u', 'R', 'x', '-']

/-- True for a text that changes modes: no letter is there twice, and the dash is not the last. -/
def isChange (text : List Char) : Bool :=
  text.all letters.contains && decide text.Nodup && text.getLast? != some '-'

/-- The modes after a change. Only three of them decide what a pattern may hold. -/
def change (m : Modes) (text : List Char) : Modes :=
  let on := text.takeWhile (· != '-')
  let off := text.dropWhile (· != '-')
  ⟨(m.unicode || on.contains 'u') && !off.contains 'u',
    (m.caseless || on.contains 'i') && !off.contains 'i',
    (m.spaced || on.contains 'x') && !off.contains 'x'⟩

end Modes

/-- What follows blanks and comments. A comment goes from a hash to the end of its line. -/
def skipSpaced : (inComment : Bool) → List Char → List Char
  | _, [] => []
  | true, c :: rest => skipSpaced (c != '\n') rest
  | false, c :: rest =>
    if isBlank c then skipSpaced false rest
    else if c == '#' then skipSpaced true rest
    else c :: rest

/-- What follows all that may stand between two parts of a pattern. -/
def Modes.skip (m : Modes) (s : List Char) : List Char := if m.spaced then skipSpaced false s else s

/-! ## Atoms -/

/-- The smallest parts of a pattern. -/
inductive Atom where
  /-- A character. -/
  | char (c : Char)
  /-- The character of a single byte, written as that byte. -/
  | byte (c : Char)
  /-- Any character. -/
  | any
  /-- A class of letters, digits or blanks, or the class of all other characters. -/
  | shorthand (negated : Bool)
  /-- The start or the end of a line or of the text. -/
  | edge
  /-- A boundary of words. -/
  | boundary
  deriving DecidableEq, Repr

/-- The character that an atom stands for, if it is a single one. -/
def Atom.char? : Atom → Option Char
  | .char c => some c
  | .byte c => some c
  | _ => none

/-- True if a class of letters, digits or blanks may stand in a pattern. -/
def Modes.allowsShorthand (m : Modes) (negated : Bool) : Bool := !m.unicode && !negated

/-- True if an atom may stand in a pattern. -/
def Modes.allows (m : Modes) : Atom → Bool
  | .char _ => !(m.unicode && m.caseless)
  | .byte c => if m.unicode then !m.caseless else c.toNat < 0x80
  | .any => m.unicode
  | .shorthand negated => m.allowsShorthand negated
  | .edge => true
  | .boundary => !m.unicode

/-- As many hexadecimal digits as asked for, and what follows them. -/
def hexDigits? (m : Modes) : Nat → List Char → Option (List Char × List Char)
  | 0, s => some ([], s)
  | count + 1, s =>
    match m.skip s with
    | c :: rest =>
      if isHex c then (hexDigits? m count rest).map fun (digits, left) => (c :: digits, left)
      else none
    | [] => none

/-- The character whose code point as many hexadecimal digits write. -/
def hexChar? (m : Modes) (count : Nat) (s : List Char) : Option (Char × List Char) := do
  let (digits, rest) ← hexDigits? m count s
  let (c, _) ← codePoint? count digits
  return (c, rest)

/-- The control characters that have a letter of their own behind a backslash. -/
def controls : List (Char × Char) :=
  [('a', '\x07'), ('f', '\x0c'), ('t', '\t'), ('n', '\n'), ('r', '\r'), ('v', '\x0b')]

/-- The atom that an escape writes, behind its backslash, and what follows it. -/
def escape? (m : Modes) : List Char → Option (Atom × List Char)
  | 'x' :: rest => (hexChar? m 2 rest).map fun (c, left) => (.byte c, left)
  | 'u' :: rest => (hexChar? m 4 rest).map fun (c, left) => (.char c, left)
  | 'U' :: rest => (hexChar? m 8 rest).map fun (c, left) => (.char c, left)
  | c :: rest =>
    if ['d', 's', 'w'].contains c then some (.shorthand false, rest)
    else if ['D', 'S', 'W'].contains c then some (.shorthand true, rest)
    else if ['A', 'z'].contains c then some (.edge, rest)
    else if ['b', 'B', '<', '>'].contains c then some (.boundary, rest)
    else if c.toNat < 0x80 && !c.isAlphanum then some (.char c, rest)
    else (controls.lookup c).map fun control => (.char control, rest)
  | [] => none

/-- An atom outside a set, and what follows it. -/
def atom? (m : Modes) : List Char → Option (Atom × List Char)
  | '\\' :: rest => escape? m rest
  | '.' :: rest => some (.any, rest)
  | '^' :: rest => some (.edge, rest)
  | '$' :: rest => some (.edge, rest)
  | c :: rest => some (.char c, rest)
  | [] => none

/-! ## Nesting -/

/-- The depth of parts that stand in a row, from their depths. A single part is not nested in its
row. -/
def rowDepth : List Nat → Nat
  | [] => 0
  | [depth] => depth
  | depths => depths.foldl max 0 + 1

end NamespaceControl.LogFilter.Pattern
