import NamespaceControl.Command.Token
import NamespaceControl.Name
import NamespaceControl.Text.Blank

/-!
# Reading tokens from a text

A source is the part of a text that is not read yet, with the place where it begins. Words and
runs of blanks are read as far as they go. To see that a run goes no further, one character more
is looked at: if there is one it is not used up, but at the end of the text the look itself moves
the place on by one, and so does every further read there.
-/

namespace NamespaceControl.Command

/-! ## Places -/

/-- A place between two characters of a text: the line it is on, counted from one, and the number
of characters and of looks past the end that stand before it on that line. -/
structure Place where
  /-- The line. -/
  line : Nat
  /-- What stands before the place on the line. -/
  column : Nat
  deriving DecidableEq, Repr

namespace Place

/-- Where a text begins. -/
def start : Place := ⟨1, 0⟩

/-- The place after one more character; only a line feed begins a line. -/
def after (p : Place) (c : Char) : Place :=
  if c = '\n' then ⟨p.line + 1, 0⟩ else ⟨p.line, p.column + 1⟩

/-- The place after more characters. -/
def afterAll (p : Place) (text : List Char) : Place := text.foldl after p

/-- The place after a look past the end of the text. -/
def pastEnd (p : Place) : Place := ⟨p.line, p.column + 1⟩

/-- The position of the character that follows the place. -/
def next (p : Place) : Position := ⟨p.line, p.column + 1⟩

end Place

/-! ## Sources -/

/-- What is left to read of a text. -/
structure Source where
  /-- The characters that are not read yet. -/
  rest : List Char
  /-- Where they begin. -/
  place : Place
  deriving DecidableEq, Repr

namespace Source

/-- The whole of a text. -/
def ofText (text : String) : Source := ⟨text.toList, .start⟩

/-- The longest run of characters in a class, and what follows it. -/
def takeRun (s : Source) (inClass : Char → Bool) : String × Source :=
  let run := s.rest.takeWhile inClass
  let rest := s.rest.dropWhile inClass
  let place := s.place.afterAll run
  (String.ofList run, ⟨rest, if rest.isEmpty then place.pastEnd else place⟩)

/-- The token that a source begins with, and what follows it. -/
def next (s : Source) : Lexeme × Source :=
  match s.rest with
  | [] => (⟨.endOfInput, s.place.next⟩, ⟨[], s.place.pastEnd⟩)
  | c :: rest =>
    if Text.isBlank c then
      let (run, s') := s.takeRun Text.isBlank
      (⟨.blank run, s.place.next⟩, s')
    else if isWordChar c then
      let (run, s') := s.takeRun isWordChar
      (⟨.ofWord run, s.place.next⟩, s')
    else if c = '.' then (⟨.dot, s.place.next⟩, ⟨rest, s.place.after c⟩)
    else (⟨.illegal c, s.place.next⟩, ⟨rest, s.place.after c⟩)

/-- Dropping a run never makes a list longer. -/
theorem length_dropWhile_le (inClass : Char → Bool) (text : List Char) :
    (text.dropWhile inClass).length ≤ text.length :=
  (List.dropWhile_sublist inClass).length_le

/-- Only the end of the input leaves as much to read as there was. -/
theorem length_rest_next {s : Source} (h : s.rest ≠ []) : s.next.2.rest.length < s.rest.length := by
  obtain ⟨rest, place⟩ := s
  cases rest with
  | nil => exact absurd rfl h
  | cons c rest =>
    have hdrop (inClass : Char → Bool) : (rest.dropWhile inClass).length < rest.length + 1 :=
      Nat.lt_succ_of_le (length_dropWhile_le inClass rest)
    simp only [next]
    split
    · next hc => simpa [takeRun, hc] using hdrop Text.isBlank
    · split
      · next hc => simpa [takeRun, hc] using hdrop isWordChar
      · split <;> simp

/-- A read at the end of the text finds the end, and only such a read does. -/
theorem token_next_eq_endOfInput_iff {s : Source} :
    s.next.1.token = .endOfInput ↔ s.rest = [] := by
  obtain ⟨rest, place⟩ := s
  cases rest with
  | nil => simp [next]
  | cons c rest =>
    simp only [next, reduceCtorEq, iff_false]
    split
    · simp
    · split
      · simp only [Token.ofWord]
        split <;> simp
      · split <;> simp

/-- The lexemes up to the first end of the input, that one included, and what is left then. -/
def readAll (s : Source) : List Lexeme × Source :=
  if s.rest = [] then ([s.next.1], s.next.2)
  else
    let (more, s') := s.next.2.readAll
    (s.next.1 :: more, s')
termination_by s.rest.length
decreasing_by exact length_rest_next ‹_›

/-- The next `count` lexemes. -/
def read (s : Source) : Nat → List Lexeme
  | 0 => []
  | count + 1 => s.next.1 :: s.next.2.read count

end Source

end NamespaceControl.Command
