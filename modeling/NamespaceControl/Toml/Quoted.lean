import NamespaceControl.Toml.Scan

/-!
# Quoted texts in TOML

The four quoted forms of a text, and which of them a text is written in. Between quotation marks a
backslash escapes; between apostrophes everything stands for itself. With three marks on each side
the text may go over several lines: a line break right behind the opening marks does not count,
and up to two marks may stand before the closing ones.
-/

namespace NamespaceControl.Toml

open Text

/-! ## Reading -/

/-- One of the four quoted forms. -/
structure Quoting where
  /-- The mark on both sides. -/
  mark : Char
  /-- True if there are three marks on each side. -/
  multiline : Bool
  deriving DecidableEq, Repr

namespace Quoting

/-- On one line, with escapes. -/
def basic : Quoting := ⟨'"', false⟩

/-- On several lines, with escapes. -/
def multilineBasic : Quoting := ⟨'"', true⟩

/-- On one line, without escapes. -/
def literal : Quoting := ⟨'\'', false⟩

/-- On several lines, without escapes. -/
def multilineLiteral : Quoting := ⟨'\'', true⟩

/-- True if a backslash escapes. -/
def escapes (q : Quoting) : Bool := q.mark == '"'

end Quoting

/-- The character that an escape stands for, after its backslash. -/
def escaped? : Scan Char
  | 'b' :: rest => some ('\x08', rest)
  | 't' :: rest => some ('\t', rest)
  | 'n' :: rest => some ('\n', rest)
  | 'f' :: rest => some ('\x0c', rest)
  | 'r' :: rest => some ('\r', rest)
  | '"' :: rest => some ('"', rest)
  | '\\' :: rest => some ('\\', rest)
  | 'u' :: rest => codePoint? 4 rest
  | 'U' :: rest => codePoint? 8 rest
  | _ => none

/-- What follows a backslash that joins lines: it is the last on its line, and all spaces and line
breaks up to the next character go with it. -/
def afterJoin? (s : List Char) : Option (List Char) :=
  (afterNewline? (skipSpaces s)).map skipSpaceLines

/-- An escape leaves no more to read than there was behind its backslash. -/
theorem length_escaped? {s rest : List Char} {c : Char} (h : escaped? s = some (c, rest)) :
    rest.length ≤ s.length := by
  unfold escaped? at h
  have hcode (count : Nat) (s' : List Char) (h' : codePoint? count s' = some (c, rest)) :
      rest.length ≤ s'.length := by
    unfold codePoint? at h'
    simp only [Option.ite_none_right_eq_some, Option.some.injEq, Prod.mk.injEq] at h'
    rw [← h'.2.2, List.length_drop]
    omega
  split at h
  case h_8 rest' => exact Nat.le_succ_of_le (hcode 4 rest' h)
  case h_9 rest' => exact Nat.le_succ_of_le (hcode 8 rest' h)
  all_goals simp_all

/-- A join leaves no more to read than there was behind its backslash. -/
theorem length_afterJoin? {s rest : List Char} (h : afterJoin? s = some rest) :
    rest.length ≤ s.length := by
  obtain ⟨mid, hmid, rfl⟩ := Option.map_eq_some_iff.mp h
  have h1 := length_skipSpaceLines mid
  have h2 := length_afterNewline? hmid
  have h3 := (List.dropWhile_sublist isSpace (l := s)).length_le
  simp only [skipSpaces] at h2
  omega

/-- The rest of a quoted text behind its opening marks, and what follows its closing marks. -/
def Quoting.body (q : Quoting) (s : List Char) : Option (List Char × List Char) :=
  let push (c : Char) := Option.map fun (text, left) => (c :: text, left)
  match s with
  | [] => none
  | c :: rest =>
    if c = q.mark then
      if q.multiline = false then some ([], rest)
      else if rest.take 2 = [q.mark, q.mark] then
        let more := ((rest.drop 2).takeWhile (· = q.mark)).take 2
        some (more, rest.drop (2 + more.length))
      else push c (q.body rest)
    else if q.escapes ∧ c = '\\' then
      match _h : if q.multiline then afterJoin? rest else none with
      | some rest' => q.body rest'
      | none =>
        match _h : escaped? rest with
        | some (e, rest') => push e (q.body rest')
        | none => none
    else
      match _h : if q.multiline then afterNewline? (c :: rest) else none with
      | some rest' => push '\n' (q.body rest')
      | none => if isPlain c then push c (q.body rest) else none
termination_by s.length
decreasing_by
  · exact Nat.lt_succ_self _
  · split at _h
    · exact Nat.lt_succ_of_le (length_afterJoin? _h)
    · exact absurd _h (by simp)
  · exact Nat.lt_succ_of_le (length_escaped? _h)
  · split at _h
    · exact length_afterNewline? _h
    · exact absurd _h (by simp)
  · exact Nat.lt_succ_self _

/-- The text behind opening marks on one line. -/
def Quoting.scan (q : Quoting) : Scan String := fun s =>
  (q.body s).map fun (text, left) => (String.ofList text, left)

/-- The text behind opening marks, after a line break that does not count. -/
def Quoting.scanMultiline (q : Quoting) : Scan String := fun s =>
  q.scan ((afterNewline? s).getD s)

/-- A quoted text in any of its forms. -/
def quoted? : Scan String
  | '"' :: '"' :: '"' :: rest => Quoting.multilineBasic.scanMultiline rest
  | '"' :: rest => Quoting.basic.scan rest
  | '\'' :: '\'' :: '\'' :: rest => Quoting.multilineLiteral.scanMultiline rest
  | '\'' :: rest => Quoting.literal.scan rest
  | _ => none

/-! ## Writing -/

/-- The upper-case hexadecimal digit of a number below sixteen. -/
def upperHexDigit (n : Nat) : Char := (Nat.digitChar n).toUpper

/-- A control character. -/
def isControl (c : Char) : Bool := c.toNat < 0x20 || c.toNat == 0x7F

/-- The written form of a character between quotation marks on one line. -/
def escape (c : Char) : List Char :=
  match c with
  | '"' => ['\\', '"']
  | '\\' => ['\\', '\\']
  | '\x08' => ['\\', 'b']
  | '\t' => ['\\', 't']
  | '\n' => ['\\', 'n']
  | '\x0c' => ['\\', 'f']
  | '\r' => ['\\', 'r']
  | c =>
    if isControl c then
      ['\\', 'u', '0', '0', upperHexDigit (c.toNat / 16), upperHexDigit (c.toNat % 16)]
    else [c]

/-- The written form of a character between quotation marks on several lines. -/
def escapeMultiline (c : Char) : List Char := if c = '\n' then ['\n'] else escape c

/-- Three apostrophes. -/
def tripleApostrophe : List Char := ['\'', '\'', '\'']

/-- True if three apostrophes stand in a row. -/
def hasTripleApostrophe : List Char → Bool
  | [] => false
  | c :: rest => tripleApostrophe.isPrefixOf (c :: rest) || hasTripleApostrophe rest

/-- True if a text is written between apostrophes: it has a backslash to save from doubling, and
nothing that cannot stand there. -/
def prefersLiteral (text : List Char) : Bool :=
  text.contains '\\' &&
    text.all (fun c => c == '\t' || c == '\n' || !isControl c) &&
    !hasTripleApostrophe text &&
    text.getLast? != some '\''

/-- Three quotation marks. -/
def tripleQuote : List Char := ['"', '"', '"']

/-- The written form of a text between apostrophes: on several lines if it has a line break, and
with three marks also if it has an apostrophe. -/
def writeLiteral (text : List Char) : List Char :=
  if text.contains '\n' then tripleApostrophe ++ '\n' :: text ++ tripleApostrophe
  else if text.contains '\'' then tripleApostrophe ++ text ++ tripleApostrophe
  else '\'' :: text ++ ['\'']

/-- The written form of a text between quotation marks on one line. -/
def writeOneLine (text : List Char) : List Char := '"' :: text.flatMap escape ++ ['"']

/-- The written form of a text between quotation marks: on several lines if it has a line break. -/
def writeBasic (text : List Char) : List Char :=
  if text.contains '\n' then
    tripleQuote ++ '\n' :: text.flatMap escapeMultiline ++ tripleQuote
  else writeOneLine text

/-- The written form of a text. -/
def writeText (text : List Char) : List Char :=
  if prefersLiteral text then writeLiteral text else writeBasic text

/-- The written form of a key: without quotes if it can be. -/
def writeKey (key : List Char) : List Char :=
  if key ≠ [] ∧ key.all isBareKeyChar then key else writeOneLine key

end NamespaceControl.Toml
