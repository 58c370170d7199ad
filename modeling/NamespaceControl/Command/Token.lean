/-!
# Tokens

The tokens of the command language and the places they stand at. A run of blanks is a token of
its own and is not skipped: whether it may stand somewhere is up to the grammar.
-/

namespace NamespaceControl.Command

/-! ## Keywords -/

/-- The reserved words, which are written in capitals only. -/
inductive Keyword where
  /-- The word `USE`. -/
  | useKw
  /-- The word `CREATE`. -/
  | createKw
  /-- The word `NAMESPACE`. -/
  | namespaceKw
  /-- The word `NAMESPACES`. -/
  | namespacesKw
  /-- The word `SHOW`. -/
  | showKw
  /-- The word `DROP`. -/
  | dropKw
  deriving DecidableEq, Repr

namespace Keyword

/-- Every keyword. -/
def all : List Keyword := [useKw, createKw, namespaceKw, namespacesKw, showKw, dropKw]

/-- The written form of a keyword. -/
def text : Keyword → String
  | useKw => "USE"
  | createKw => "CREATE"
  | namespaceKw => "NAMESPACE"
  | namespacesKw => "NAMESPACES"
  | showKw => "SHOW"
  | dropKw => "DROP"

/-- The keyword that a word is, as a whole. -/
def ofText? (word : String) : Option Keyword := all.find? (·.text = word)

/-- The written form is that keyword's and no other's. -/
theorem ofText?_eq_some_iff {word : String} {k : Keyword} :
    ofText? word = some k ↔ word = k.text := by
  constructor
  · intro h
    have := List.find?_some h
    simpa [eq_comm] using this
  · rintro rfl
    cases k <;> rfl

end Keyword

/-! ## Tokens -/

/-- A token of the command language. -/
inductive Token where
  /-- A reserved word. -/
  | keyword (k : Keyword)
  /-- Any other word: one segment of a name. -/
  | identifier (text : String)
  /-- The dot between two segments. -/
  | dot
  /-- A run of blanks. -/
  | blank (text : String)
  /-- The end of the input. -/
  | endOfInput
  /-- A character that begins no token. -/
  | illegal (c : Char)
  deriving DecidableEq, Repr

namespace Token

/-- The token that a word is. -/
def ofWord (word : String) : Token :=
  match Keyword.ofText? word with
  | some k => keyword k
  | none => identifier word

/-- The part of the input that a token covers. -/
def source : Token → String
  | keyword k => k.text
  | identifier text => text
  | dot => "."
  | blank text => text
  | endOfInput => ""
  | illegal c => String.singleton c

/-- How a token is named in a diagnostic. -/
def literal : Token → String
  | keyword k => k.text
  | identifier text => text
  | dot => "."
  | blank _ => "WS"
  | endOfInput => "EOF"
  | illegal c => String.singleton c

/-- A word covers its own text, whether it is reserved or not. -/
@[simp] theorem source_ofWord (word : String) : (ofWord word).source = word := by
  unfold ofWord
  split
  · next k h => exact (Keyword.ofText?_eq_some_iff.mp h).symm
  · rfl

end Token

/-! ## Positions -/

/-- Where a token begins: its line and its character within the line, both counted from one. -/
structure Position where
  /-- The line. -/
  line : Nat
  /-- The character within the line. -/
  char : Nat
  deriving DecidableEq, Repr

/-- The wording of a position. -/
def Position.text (p : Position) : String :=
  "line " ++ toString p.line ++ ", char " ++ toString p.char

/-- A token with the position of its first character. -/
structure Lexeme where
  /-- The token. -/
  token : Token
  /-- Where it begins. -/
  position : Position
  deriving DecidableEq, Repr

end NamespaceControl.Command
