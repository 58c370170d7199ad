import NamespaceControl.Command.Parser
import NamespaceControl.Execution
import NamespaceControl.Text.Utf8

/-!
# The console

A console reads lines for one session, runs a statement for each and writes the responses. Blank
lines do nothing, comments are repeated, and a line that asks to leave ends the run. Output goes
to a sink that may take only so many bytes; when it is full the run ends at once, and what was
executed before stays executed.
-/

namespace NamespaceControl

open Command (ParseError Statement)

/-! ## Lines -/

/-- What a line of input is. -/
inductive Line where
  /-- Nothing but blanks. -/
  | blank
  /-- A request to end the session. -/
  | leave
  /-- A comment, without the blanks around it. -/
  | comment (text : String)
  /-- A statement. -/
  | statement (s : Statement)
  /-- Anything else. -/
  | invalid (e : ParseError)

/-- What a line of text is, apart from the blanks around it. -/
def Line.ofText (text : String) : Line :=
  let trimmed := Text.trim text.toList
  let line := String.ofList trimmed
  if trimmed = [] then .blank
  else if line = "exit" ∨ line = "quit" then .leave
  else if ['/', '/'].isPrefixOf trimmed || ['-', '-'].isPrefixOf trimmed then .comment line
  else match Statement.parse line with
    | .ok s => .statement s
    | .error e => .invalid e

/-- The lines of an input, each without its line feed. What follows the last line feed is a line
unless it is empty. -/
def inputLines : List UInt8 → List (List UInt8)
  | [] => []
  | b :: rest =>
    if b = 10 then [] :: inputLines rest
    else match inputLines rest with
      | [] => [[b]]
      | line :: more => (b :: line) :: more

/-! ## Sinks -/

/-- Where output goes. -/
structure Sink where
  /-- The bytes that were taken. -/
  written : List UInt8
  /-- How many more will be taken, if that is limited. -/
  room : Option Nat

namespace Sink

/-- A sink that takes everything. -/
def unlimited : Sink := ⟨[], none⟩

/-- A sink that takes so many bytes in all. -/
def limited (room : Nat) : Sink := ⟨[], some room⟩

/-- Write bytes; false if not all of them were taken. Those that fit are. -/
def write (sink : Sink) (bytes : List UInt8) : Bool × Sink :=
  match sink.room with
  | none => (true, ⟨sink.written ++ bytes, none⟩)
  | some room =>
    (bytes.length ≤ room, ⟨sink.written ++ bytes.take room, some (room - bytes.length)⟩)

/-- Write a text. -/
def writeText (sink : Sink) (text : String) : Bool × Sink := sink.write (Text.Utf8.encode text)

/-- Write a text and then a line feed. -/
def writeLine (sink : Sink) (text : String) : Bool × Sink :=
  match sink.writeText text with
  | (true, sink') => sink'.writeText "\n"
  | (false, sink') => (false, sink')

end Sink

/-! ## Consoles -/

/-- How responses are written. -/
inductive Format where
  /-- As lines of text. -/
  | text
  /-- As lines of JSON. -/
  | json
  deriving DecidableEq, Repr

/-- The settings of a console. -/
structure Console where
  /-- What a prompt begins with. -/
  label : String
  /-- True if there is a prompt before every line. -/
  showPrompt : Bool
  /-- How responses are written. -/
  format : Format
  deriving DecidableEq, Repr

/-- Why a run ended. -/
inductive Ending where
  /-- The input was at its end, or a line asked to leave. -/
  | done
  /-- The output was full. -/
  | brokenPipe
  /-- A line of the input was not UTF-8. -/
  | invalidData
  deriving DecidableEq, Repr

/-- What a run leaves behind. -/
structure RunResult where
  /-- The store after it. -/
  store : Store
  /-- The session after it. -/
  session : Session
  /-- The output. -/
  sink : Sink
  /-- Why it ended. -/
  ending : Ending

namespace Console

/-- The prompt for a session. -/
def prompt (label : String) (session : Session) : String :=
  match session.selected with
  | some n => label ++ ": " ++ n.text ++ "> "
  | none => label ++ "> "

/-- The written form of a response. -/
def render (format : Format) (r : Response) : String :=
  match format with
  | .text => r.text
  | .json => r.json

/-- The written form of a parse error. -/
def renderError (format : Format) (e : ParseError) : String :=
  match format with
  | .text => e.message
  | .json => Text.Json.object [("error", Text.Json.quote e.message)]

/-- What one line of input leads to. -/
structure Reply where
  /-- The store after it. -/
  store : Store
  /-- The session after it. -/
  session : Session
  /-- The line of output for it, if there is one. -/
  output : Option String
  /-- Why the run ends with it, if it does. -/
  ending : Option Ending

/-- What a line leads to. -/
def replyTo (format : Format) (store : Store) (session : Session) (line : Line) : Reply :=
  match line with
  | .blank => ⟨store, session, none, none⟩
  | .leave => ⟨store, session, none, some .done⟩
  | .comment text => ⟨store, session, if format = .text then some text else none, none⟩
  | .invalid e => ⟨store, session, some (renderError format e), none⟩
  | .statement s =>
    let done := execute .none store session s
    ⟨done.store, done.session, some (render format done.response), none⟩

/-- What the bytes of a line lead to. -/
def reply (format : Format) (store : Store) (session : Session) (bytes : List UInt8) : Reply :=
  match Text.Utf8.decode? bytes with
  | none => ⟨store, session, none, some .invalidData⟩
  | some text => replyTo format store session (Line.ofText text)

/-- Write the prompt, if prompts are shown. -/
def writePrompt (console : Console) (session : Session) (sink : Sink) : Bool × Sink :=
  if console.showPrompt then sink.writeText (prompt console.label session) else (true, sink)

/-- Write a line of output, if there is one. -/
def writeAnswer (sink : Sink) : Option String → Bool × Sink
  | some text => sink.writeLine text
  | none => (true, sink)

/-- Run through the given lines. -/
def runLines (console : Console) (store : Store) (session : Session) (sink : Sink)
    (lines : List (List UInt8)) : RunResult :=
  match console.writePrompt session sink with
  | (false, sink) => ⟨store, session, sink, .brokenPipe⟩
  | (true, sink) =>
    match lines with
    | [] => ⟨store, session, sink, .done⟩
    | bytes :: rest =>
      let r := reply console.format store session bytes
      match writeAnswer sink r.output with
      | (false, sink) => ⟨r.store, r.session, sink, .brokenPipe⟩
      | (true, sink) =>
        match r.ending with
        | some ending => ⟨r.store, r.session, sink, ending⟩
        | none => console.runLines r.store r.session sink rest

/-- Run through an input. -/
def run (console : Console) (store : Store) (session : Session) (sink : Sink)
    (input : List UInt8) : RunResult :=
  console.runLines store session sink (inputLines input)

end Console

end NamespaceControl
