import NamespaceControl.Command.Source
import NamespaceControl.Command.Statement

/-!
# Parsing statements

The grammar, with blanks between the words and around the whole:

* `USE` path
* `CREATE` `NAMESPACE` path
* `DROP` `NAMESPACE` path
* `SHOW` `NAMESPACES`

A path is identifiers with dots between them, and no blanks inside. Whether a path goes on shows
only at the token after it, so a parser can hold back one lexeme. Parsing stops at the first
lexeme that does not fit, and that lexeme is used up: a parser that failed can be asked again and
goes on behind it.
-/

namespace NamespaceControl.Command

/-! ## Errors -/

/-- What the grammar asks for at a place. -/
inductive Expectation where
  /-- The first word of a statement. -/
  | statement
  /-- A certain keyword. -/
  | keyword (k : Keyword)
  /-- The first segment of a path. -/
  | path
  /-- A further segment of a path. -/
  | identifier
  /-- Nothing more. -/
  | endOfInput
  deriving DecidableEq, Repr

/-- The wording of an expectation. -/
def Expectation.text : Expectation → String
  | statement => "USE, CREATE, SHOW, DROP"
  | keyword k => k.text
  | path => "namespace"
  | identifier => "identifier"
  | endOfInput => "EOF"

/-- Why a text is no statement. -/
inductive ParseError where
  /-- A lexeme stands where the grammar asks for something else. -/
  | unexpected (found : Lexeme) (expected : Expectation)
  /-- The segments of a path make no name. -/
  | invalidName (reason : NameError)
  deriving DecidableEq, Repr

namespace ParseError

/-- The wording of a parse error. -/
def message : ParseError → String
  | unexpected found expected =>
    "found " ++ found.token.literal ++ ", expected " ++ expected.text ++ " at " ++
      found.position.text
  | invalidName reason => "invalid namespace: " ++ reason.message

/-- The position of the lexeme that does not fit, if the error is about one. -/
def position? : ParseError → Option Position
  | unexpected found _ => some found.position
  | invalidName _ => none

end ParseError

/-! ## Parsers -/

/-- A parser: what is left to read, and a lexeme that was read and put back. -/
structure Parser where
  /-- What is left to read. -/
  source : Source
  /-- The lexeme that was put back. -/
  held : Option Lexeme
  deriving DecidableEq, Repr

/-- The outcome of a step of parsing, and the parser after it. A step that fails leaves a parser
too. -/
abbrev Parsed (α : Type) := Except ParseError α × Parser

namespace Parsed

/-- Go on after a step that succeeded. -/
def andThen {α β : Type} (step : Parsed α) (go : α → Parser → Parsed β) : Parsed β :=
  match step with
  | (.ok a, p) => go a p
  | (.error e, p) => (.error e, p)

/-- Change the outcome of a step that succeeded. -/
def map {α β : Type} (f : α → β) (step : Parsed α) : Parsed β :=
  step.andThen fun a p => (.ok (f a), p)

end Parsed

namespace Parser

/-- A parser at the start of a text. -/
def ofText (text : String) : Parser := ⟨.ofText text, none⟩

/-- The next lexeme: the one that was put back, if there is one. -/
def scan (p : Parser) : Lexeme × Parser :=
  match p.held with
  | some lexeme => (lexeme, ⟨p.source, none⟩)
  | none => (p.source.next.1, ⟨p.source.next.2, none⟩)

/-- Put a lexeme back. -/
def unscan (p : Parser) (lexeme : Lexeme) : Parser := ⟨p.source, some lexeme⟩

/-- The next lexeme after a run of blanks, if one stands here. -/
def scanPastBlank (p : Parser) : Lexeme × Parser :=
  match p.scan with
  | (⟨.blank _, _⟩, q) => q.scan
  | (lexeme, q) => (lexeme, q)

/-- How much a parser can still read before it only finds the end of the input. -/
def size (p : Parser) : Nat :=
  p.source.rest.length + match p.held with
    | some lexeme => if lexeme.token = .endOfInput then 0 else 1
    | none => 0

/-- Nothing is held after a scan. -/
@[simp] theorem held_scan (p : Parser) : p.scan.2.held = none := by
  unfold scan
  split <;> rfl

/-- A scan that does not find the end of the input leaves less to read. -/
theorem size_scan_lt {p : Parser} (h : p.scan.1.token ≠ .endOfInput) : p.scan.2.size < p.size := by
  obtain ⟨source, held⟩ := p
  cases held with
  | some lexeme => simp_all [scan, size]
  | none =>
    simp only [scan] at h
    have hrest : source.rest ≠ [] := fun h0 => h (Source.token_next_eq_endOfInput_iff.mpr h0)
    simpa [scan, size] using Source.length_rest_next hrest

/-- A scan never leaves more to read. -/
theorem size_scan_le (p : Parser) : p.scan.2.size ≤ p.size := by
  by_cases h : p.scan.1.token = .endOfInput
  · obtain ⟨source, held⟩ := p
    cases held with
    | some lexeme => simp [scan, size]
    | none =>
      simp only [scan] at h
      have hrest := Source.token_next_eq_endOfInput_iff.mp h
      simp [scan, size, Source.next, hrest]
  · exact Nat.le_of_lt (size_scan_lt h)

/-! ## Parts of statements -/

/-- The segments of a path after its first: as long as a dot follows, an identifier must come
right behind it. -/
def moreSegments (p : Parser) : Parsed (List String) :=
  if _h : p.scan.1.token = .dot then
    match p.scan.2.scan with
    | (⟨.identifier segment, _⟩, _) =>
      p.scan.2.scan.2.moreSegments.map (segment :: ·)
    | (lexeme, q) => (.error (.unexpected lexeme .identifier), q)
  else (.ok [], p.scan.2.unscan p.scan.1)
termination_by p.size
decreasing_by
  have hdot : p.scan.2.size < p.size := size_scan_lt (by simp [_h])
  exact Nat.lt_of_le_of_lt (size_scan_le p.scan.2) hdot

/-- A path, after the blanks before it. -/
def path (p : Parser) : Parsed Name :=
  match p.scanPastBlank with
  | (⟨.identifier segment, _⟩, q) =>
    q.moreSegments.andThen fun segments r =>
      ((Name.ofSegments (segment :: segments)).mapError .invalidName, r)
  | (lexeme, q) => (.error (.unexpected lexeme .path), q)

/-- A certain token, after the blanks before it. -/
def expect (p : Parser) (token : Token) (expected : Expectation) : Parsed Unit :=
  let (lexeme, q) := p.scanPastBlank
  if lexeme.token = token then (.ok (), q) else (.error (.unexpected lexeme expected), q)

/-- A certain keyword, after the blanks before it. -/
def expectKeyword (p : Parser) (k : Keyword) : Parsed Unit := p.expect (.keyword k) (.keyword k)

/-- The end of the input, after the blanks before it. -/
def expectEnd (p : Parser) : Parsed Unit := p.expect .endOfInput .endOfInput

/-- What follows the first word of a statement. -/
def body (first : Lexeme) (p : Parser) : Parsed Statement :=
  match first.token with
  | .keyword .useKw => p.path.map .useNamespace
  | .keyword .createKw =>
    (p.expectKeyword .namespaceKw).andThen fun _ q => q.path.map .createNamespace
  | .keyword .dropKw =>
    (p.expectKeyword .namespaceKw).andThen fun _ q => q.path.map .dropNamespace
  | .keyword .showKw => (p.expectKeyword .namespacesKw).map fun _ => .showNamespaces
  | _ => (.error (.unexpected first .statement), p)

/-- A statement with nothing after it. -/
def statement (p : Parser) : Parsed Statement :=
  let (first, q) := p.scanPastBlank
  (body first q).andThen fun s r => r.expectEnd.map fun _ => s

/-- The outcomes of asking one parser for a statement `count` times. -/
def statements (p : Parser) : Nat → List (Except ParseError Statement)
  | 0 => []
  | count + 1 =>
    let (outcome, q) := p.statement
    outcome :: q.statements count

end Parser

/-- The statement that a text writes. -/
def Statement.parse (text : String) : Except ParseError Statement :=
  (Parser.ofText text).statement.1

end NamespaceControl.Command
