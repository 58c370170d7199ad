import NamespaceControl.Text.Digits

/-!
# Scanning TOML

Readers on a list of characters, the classes of characters of the format, and what stands between
its tokens: spaces, comments and line breaks. A line break is a line feed, with or without a
carriage return before it; a carriage return by itself is never allowed.
-/

namespace NamespaceControl.Toml

/-- A reader gives what it read and what is left, or nothing if the text does not fit. -/
abbrev Scan (α : Type) := List Char → Option (α × List Char)

/-! ## Characters -/

/-- A character that may stand in a comment: all but the control characters, of which only the
tab is allowed. -/
def isPlain (c : Char) : Bool := c == '\t' || (0x20 ≤ c.toNat && c.toNat != 0x7F)

/-- A space or a tab. -/
def isSpace (c : Char) : Bool := c == ' ' || c == '\t'

/-- A character of a key without quotes. -/
def isBareKeyChar (c : Char) : Bool := c.isAlphanum || c == '-' || c == '_'

/-- A decimal digit. -/
def isDecimal (c : Char) : Bool := c.isDigit

/-! ## Between tokens -/

/-- What follows a given character. -/
def after? (c : Char) : List Char → Option (List Char)
  | d :: rest => if d = c then some rest else none
  | [] => none

/-- What follows a line break. -/
def afterNewline? : List Char → Option (List Char)
  | '\n' :: rest => some rest
  | '\r' :: '\n' :: rest => some rest
  | _ => none

/-- What follows spaces. -/
def skipSpaces (s : List Char) : List Char := s.dropWhile isSpace

/-- What follows a comment, if there is one; the line break is left. -/
def skipComment (s : List Char) : List Char :=
  match s with
  | '#' :: rest => rest.dropWhile isPlain
  | _ => s

/-- What follows spaces and line breaks. -/
def skipSpaceLines : List Char → List Char
  | ' ' :: rest => skipSpaceLines rest
  | '\t' :: rest => skipSpaceLines rest
  | '\n' :: rest => skipSpaceLines rest
  | '\r' :: '\n' :: rest => skipSpaceLines rest
  | s => s

/-- What follows the end of a line: spaces, a comment, and a line break or the end of the text. -/
def afterLine? (s : List Char) : Option (List Char) :=
  match skipComment (skipSpaces s) with
  | [] => some []
  | s => afterNewline? s

/-- A break of a line leaves less to read. -/
theorem length_afterNewline? {s rest : List Char} (h : afterNewline? s = some rest) :
    rest.length < s.length := by
  unfold afterNewline? at h
  split at h
  · next rest' =>
    obtain rfl : rest' = rest := Option.some.inj h
    exact Nat.lt_succ_self _
  · next rest' =>
    obtain rfl : rest' = rest := Option.some.inj h
    exact Nat.lt_succ_of_lt (Nat.lt_succ_self _)
  · exact absurd h (by simp)

/-- Skipping never leaves more to read. -/
theorem length_skipSpaceLines (s : List Char) : (skipSpaceLines s).length ≤ s.length := by
  fun_induction skipSpaceLines s <;> simp_all only [List.length_cons, Nat.le_refl] <;> omega

/-- What follows spaces, comments and line breaks. -/
def skipTrivia (s : List Char) : List Char :=
  match _h : skipSpaceLines s with
  | '#' :: rest => skipTrivia (rest.dropWhile isPlain)
  | s' => s'
termination_by s.length
decreasing_by
  have hcomment := (List.dropWhile_sublist isPlain (l := rest)).length_le
  have hspace := length_skipSpaceLines s
  rw [_h, List.length_cons] at hspace
  omega

/-! ## Lists of things -/

/-- One or more things with a separator between any two. A thing that leaves no less to read than
there was is not gone on from. -/
def separated {α : Type} (sep : Char) (thing : Scan α) (s : List Char) :
    Option (List α × List Char) :=
  match thing s with
  | none => none
  | some (a, rest) =>
    match after? sep rest with
    | none => some ([a], rest)
    | some rest' =>
      if rest'.length < s.length then
        (separated sep thing rest').map fun (more, left) => (a :: more, left)
      else none
termination_by s.length

end NamespaceControl.Toml
