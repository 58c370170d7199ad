import NamespaceControl.Proofs.Console.Course
import NamespaceControl.Proofs.Console.Lines

/-!
# The effects of a script

What running through the lines of a script does can be said without a console (`effects`): which
store and session it leaves, and how its statements and the lines that are no statements are
answered, in their order. Only the lines that ask for something have effects
(`effects_map_ofText`), and each of them has one answer. Every console leaves the store and the
session of the effects (`Console.run_script`), since how answers are written and whether there is a
prompt decides nothing.
-/

namespace NamespaceControl

open Command (ParseError Statement)
open Text (Utf8.encode)

/-- How a line that asks for something is answered. -/
inductive Answer where
  /-- The response to a statement. -/
  | response (r : Response)
  /-- Why the line is no statement. -/
  | error (message : String)
  deriving DecidableEq, Repr

/-- The response that an answer is, if it is one. -/
def Answer.response? : Answer → Option Response
  | response r => some r
  | error _ => none

/-- What running through lines comes to. -/
structure Effects where
  /-- The store after it. -/
  store : Store
  /-- The session after it. -/
  session : Session
  /-- The answers, in their order. -/
  answers : List Answer

namespace Effects

/-- The effects with an answer before the others. -/
def behind (e : Effects) (a : Answer) : Effects := { e with answers := a :: e.answers }

/-- The responses to statements, in their order. -/
def responses (e : Effects) : List Response := e.answers.filterMap Answer.response?

end Effects

/-- Run through lines without showing anything, up to one that asks to leave. -/
def effects (store : Store) (session : Session) : List Line → Effects
  | [] => ⟨store, session, []⟩
  | .leave :: _ => ⟨store, session, []⟩
  | .blank :: rest => effects store session rest
  | .comment _ :: rest => effects store session rest
  | .invalid e :: rest => (effects store session rest).behind (.error e.message)
  | .statement s :: rest =>
    let done := execute .none store session s
    (effects done.store done.session rest).behind (.response done.response)

/-- The effects of a script. -/
def scriptEffects (store : Store) (session : Session) (script : String) : Effects :=
  effects store session ((scriptLines script).map Line.ofText)

/-! ## Lines that ask for something -/

/-- The lines up to one that asks to leave. -/
def heardLines (lines : List String) : List String :=
  lines.takeWhile fun line => ¬ AsksToLeave line

/-- The lines that ask for something, up to one that asks to leave. -/
def askingLines (lines : List String) : List String :=
  (heardLines lines).filter fun line => Asks line

/-- How a line that asks for something is answered in a state. -/
def answerTo (store : Store) (session : Session) (line : String) : Answer :=
  match Statement.parse (trimmed line) with
  | .ok s => .response (execute .none store session s).response
  | .error e => .error e.message

/-- The state which a line that asks for something leaves. -/
def stateBehind (store : Store) (session : Session) (line : String) : Store × Session :=
  match Statement.parse (trimmed line) with
  | .ok s =>
    let done := execute .none store session s
    (done.store, done.session)
  | .error _ => (store, session)

/-- What lines that ask for something lead to. -/
def answering (store : Store) (session : Session) : List String → Effects
  | [] => ⟨store, session, []⟩
  | line :: rest =>
    let left := stateBehind store session line
    (answering left.1 left.2 rest).behind (answerTo store session line)

variable {store : Store} {session : Session} {line : String}

/-- A statement is answered with its response. -/
theorem answerTo_of_ok {s : Statement} (hs : Statement.parse (trimmed line) = .ok s) :
    answerTo store session line = .response (execute .none store session s).response := by
  unfold answerTo
  rw [hs]

/-- A line that is no statement is answered with the reason. -/
theorem answerTo_of_error {e : ParseError} (he : Statement.parse (trimmed line) = .error e) :
    answerTo store session line = .error e.message := by
  unfold answerTo
  rw [he]

/-- A statement leaves what running it leaves. -/
theorem stateBehind_of_ok {s : Statement} (hs : Statement.parse (trimmed line) = .ok s) :
    let done := execute .none store session s
    stateBehind store session line = (done.store, done.session) := by
  unfold stateBehind
  rw [hs]

/-- A line that is no statement leaves all as it is. -/
theorem stateBehind_of_error {e : ParseError} (he : Statement.parse (trimmed line) = .error e) :
    stateBehind store session line = (store, session) := by
  unfold stateBehind
  rw [he]

/-- Behind a line that asks to leave nothing is heard. -/
theorem heardLines_of_leave (h : AsksToLeave line) (rest : List String) :
    heardLines (line :: rest) = [] := by
  simp [heardLines, h]

/-- Any other line is heard. -/
theorem heardLines_cons (h : ¬ AsksToLeave line) (rest : List String) :
    heardLines (line :: rest) = line :: heardLines rest := by
  simp [heardLines, h]

/-- A line that asks for something comes in front of those behind it. -/
theorem askingLines_of_asks (h : Asks line) (rest : List String) :
    askingLines (line :: rest) = line :: askingLines rest := by
  simp [askingLines, heardLines_cons h.2.1, h]

/-- A line that asks for nothing is left out. -/
theorem askingLines_of_not_asks (hleave : ¬ AsksToLeave line) (h : ¬ Asks line)
    (rest : List String) : askingLines (line :: rest) = askingLines rest := by
  simp [askingLines, heardLines_cons hleave, h]

/-- The effects of lines are those of the lines that ask for something. -/
theorem effects_map_ofText (store : Store) (session : Session) (lines : List String) :
    effects store session (lines.map Line.ofText) =
      answering store session (askingLines lines) := by
  induction lines generalizing store session with
  | nil => rfl
  | cons line rest ih =>
    rw [List.map_cons]
    have hclass := Line.isOf_ofText line
    generalize Line.ofText line = l at hclass ⊢
    cases hclass with
    | blank h =>
      rw [askingLines_of_not_asks (not_asksToLeave_of_blank h) fun hasks => hasks.1 h]
      exact ih store session
    | leave h =>
      rw [askingLines, heardLines_of_leave h]
      rfl
    | comment h =>
      rw [askingLines_of_not_asks h.not_asksToLeave fun hasks => hasks.2.2 h]
      exact ih store session
    | statement h hs =>
      rw [askingLines_of_asks h, answering, stateBehind_of_ok hs, answerTo_of_ok hs]
      exact congrArg (Effects.behind · _) (ih _ _)
    | invalid h he =>
      rw [askingLines_of_asks h, answering, stateBehind_of_error he, answerTo_of_error he]
      exact congrArg (Effects.behind · _) (ih store session)

/-- More lines that ask for something are answered from the state which the first ones leave. -/
theorem answering_append (store : Store) (session : Session) (first second : List String) :
    let e := answering store session first
    let e' := answering e.store e.session second
    answering store session (first ++ second) = { e' with answers := e.answers ++ e'.answers } := by
  induction first generalizing store session with
  | nil => rfl
  | cons line rest ih =>
    rw [List.cons_append, answering, answering]
    exact congrArg (Effects.behind · _) (ih _ _)

/-- Each line is answered in the state which the lines before it leave. -/
theorem getElem?_answering (store : Store) (session : Session) (lines : List String) (k : Nat) :
    (answering store session lines).answers[k]? =
      lines[k]?.map (answerTo (answering store session (lines.take k)).store
        (answering store session (lines.take k)).session) := by
  induction lines generalizing store session k with
  | nil => rfl
  | cons line rest ih =>
    cases k with
    | zero => rfl
    | succ k =>
      rw [List.take_succ_cons, answering, answering]
      exact ih _ _ k

/-- There is an answer to each line. -/
theorem length_answering (store : Store) (session : Session) (lines : List String) :
    (answering store session lines).answers.length = lines.length := by
  induction lines generalizing store session with
  | nil => rfl
  | cons line rest ih =>
    rw [answering]
    exact congrArg Nat.succ (ih _ _)

/-! ## Consoles -/

namespace Console

/-- A line that is a text leads to what the text leads to. -/
theorem reply_encode (format : Format) (store : Store) (session : Session) (line : String) :
    reply format store session (Utf8.encode line) =
      replyTo format store session (Line.ofText line) := by
  simp [reply]

/-- The bytes of an answer are those of its line, with the line feed behind it. -/
theorem Reply.bytes_writes (r : Reply) :
    r.writes.flatMap Write.bytes = r.output.elim [] fun text => Utf8.encode (text ++ "\n") := by
  unfold Reply.writes
  cases r.output with
  | none => rfl
  | some text =>
    show Utf8.encode text ++ (Utf8.encode "\n" ++ []) = Utf8.encode (text ++ "\n")
    rw [List.append_nil, Text.Utf8.encode_append]

/-- Without prompts the output for lines begins with the answer to the first. -/
theorem output_course_unprompted (label : String) (format : Format) (store : Store)
    (session : Session) (line : String) (rest : List String) {r : Reply}
    (hr : replyTo format store session (Line.ofText line) = r) :
    ((⟨label, false, format⟩ : Console).course store session
        ((line :: rest).map Utf8.encode)).output =
      (r.output.elim [] fun text => Utf8.encode (text ++ "\n")) ++
        (r.courseBehind ((⟨label, false, format⟩ : Console).course r.store r.session
          (rest.map Utf8.encode))).output := by
  have hprompt : (⟨label, false, format⟩ : Console).promptWrites store session = [] := rfl
  rw [List.map_cons, course_cons ((reply_encode format store session line).trans hr),
    Course.output_behind, Course.output_behind, hprompt, List.flatMap_nil, List.nil_append,
    Reply.bytes_writes]

/-- A run through lines that are texts leaves the store and the session of their effects. -/
theorem course_encode (console : Console) (store : Store) (session : Session)
    (lines : List String) :
    let c := console.course store session (lines.map Utf8.encode)
    let e := effects store session (lines.map Line.ofText)
    c.store = e.store ∧ c.session = e.session ∧ c.ending = .done := by
  induction lines generalizing store session with
  | nil => exact ⟨rfl, rfl, rfl⟩
  | cons line rest ih =>
    rw [List.map_cons, List.map_cons, course_cons (reply_encode console.format store session line)]
    cases Line.ofText line with
    | leave => exact ⟨rfl, rfl, rfl⟩
    | blank | comment _ | invalid _ => exact ih store session
    | statement s => exact ih _ _

/-- **Every console leaves the store and the session of the effects of a script**, and comes to
its end. -/
theorem run_script (console : Console) (store : Store) (session : Session) (script : String) :
    ∃ sink, console.run store session .unlimited (Utf8.encode script) =
      ⟨(scriptEffects store session script).store, (scriptEffects store session script).session,
        sink, .done⟩ := by
  obtain ⟨hstore, hsession, hending⟩ :=
    course_encode console store session (scriptLines script)
  rw [run, inputLines_encode, runLines_unlimited, hstore, hsession, hending]
  exact ⟨_, rfl⟩

/-- Scripts whose lines are the same but for the blanks around them have the same course. -/
theorem course_congr (console : Console) (store : Store) (session : Session)
    {lines lines' : List String} (h : lines.map Line.ofText = lines'.map Line.ofText) :
    console.course store session (lines.map Utf8.encode) =
      console.course store session (lines'.map Utf8.encode) := by
  induction lines generalizing lines' store session with
  | nil =>
    obtain rfl := List.map_eq_nil_iff.mp h.symm
    rfl
  | cons line rest ih =>
    obtain ⟨line', rest', rfl, hline, hrest⟩ := List.map_eq_cons_iff.mp h.symm
    rw [List.map_cons, List.map_cons, course_cons (reply_encode console.format store session line),
      course_cons (reply_encode console.format store session line'), hline,
      ih _ _ hrest.symm]

end Console

end NamespaceControl
