import NamespaceControl.Proofs.Console.Effects
import NamespaceControl.Proofs.Json.RoundTrip

/-!
# Answers are read back from the output

A console that writes JSON and shows no prompt writes one line for each line of its input that asks
for something, and nothing else. No such line has a character below U+0020, so the output is cut
where its line feeds are, and every line of it is an object from which the answer is read back: the
whole response, or why there was none (`Console.json_output_decodes`).
-/

namespace NamespaceControl

open Text (Utf8.encode Utf8.decode?)
open Text.Json (Value Reads IsPrintable)

/-! ## Answers as lines -/

namespace Response

/-- The response that the members of an object make up. A listing that is left out is empty. -/
def ofMembers? (members : List (String × Value)) : Option Response := do
  let status ← Status.ofText? (← (← members.lookup "status").text?)
  let message ← (← members.lookup "message").text?
  let success ← (← members.lookup "success").truth?
  let rows ← match members.lookup "rows" with
    | some rows => rows.texts?
    | none => some []
  return ⟨status, message, success, rows⟩

/-- The members of the object that a response is written as. -/
def members (r : Response) : List (String × Value) :=
  [("status", .string r.status.text), ("message", .string r.message),
      ("success", .boolean r.success)] ++
    if r.rows = [] then [] else [("rows", .list (r.rows.map .string))]

/-- The members make up the response again. -/
theorem ofMembers?_members (r : Response) : ofMembers? r.members = some r := by
  obtain ⟨status, message, success, rows⟩ := r
  by_cases hrows : rows = []
  · subst hrows
    simp [ofMembers?, members, List.lookup_cons, Value.text?, Value.truth?]
  · simp [ofMembers?, members, List.lookup_cons, Value.text?, Value.truth?, Value.texts?_strings,
      hrows]

/-- The line for a response is read as an object with its members. -/
theorem reads_json (r : Response) : Reads Text.Json.depthLimit r.json (.object r.members) := by
  refine Text.Json.reads_object (List.rel_append ?_ ?_)
  · exact .cons ⟨rfl, Text.Json.reads_quote _ _⟩ (.cons ⟨rfl, Text.Json.reads_quote _ _⟩
      (.cons ⟨rfl, Text.Json.reads_boolean _ _⟩ .nil))
  · split
    · exact .nil
    · exact .cons ⟨rfl, Text.Json.reads_strings _ _⟩ .nil

/-- The line for a response has no character below U+0020. -/
theorem isPrintable_json (r : Response) : IsPrintable r.json := by
  have hsuccess : IsPrintable (Text.Json.boolean r.success) := by
    cases r.success with
    | false => decide
    | true => decide
  refine Text.Json.isPrintable_object (List.forall_mem_append.mpr ⟨?_, ?_⟩)
  · simp only [List.forall_mem_cons]
    exact ⟨Text.Json.isPrintable_quote _, Text.Json.isPrintable_quote _, hsuccess, by simp⟩
  · split
    · simp
    · simpa using Text.Json.isPrintable_strings r.rows

end Response

namespace Answer

/-- The line of JSON for an answer. -/
def json : Answer → String
  | response r => r.json
  | error message => Text.Json.object [("error", Text.Json.quote message)]

/-- The answer that a line of JSON writes. An object with nothing but an error is one, and any other
is a response. -/
def ofLine? (line : String) : Option Answer := do
  match ← Text.Json.parse? line with
  | .object [("error", .string message)] => return error message
  | .object members => return response (← Response.ofMembers? members)
  | _ => none

/-- The answers that an output in JSON writes, one a line. -/
def ofOutput? (output : List UInt8) : Option (List Answer) :=
  (inputLines output).mapM fun line => do ofLine? (← Utf8.decode? line)

/-- The line for an answer has no line feed, nor any other character below U+0020. -/
theorem isPrintable_json (a : Answer) : IsPrintable a.json := by
  cases a with
  | response r => exact r.isPrintable_json
  | error message =>
    refine Text.Json.isPrintable_object ?_
    simpa using Text.Json.isPrintable_quote message

/-- **An answer is read back from its line.** -/
theorem ofLine?_json (a : Answer) : ofLine? a.json = some a := by
  cases a with
  | response r =>
    have hparse := Text.Json.parse?_of_reads r.reads_json
    have hmembers := r.ofMembers?_members
    have hstatus : r.members = ("status", .string r.status.text) :: r.members.tail := rfl
    simp only [json, ofLine?, hparse]
    rw [hstatus] at hmembers ⊢
    simp [hmembers]
  | error message =>
    have hreads : Reads Text.Json.depthLimit (error message).json
        (.object [("error", .string message)]) :=
      Text.Json.reads_object (.cons ⟨rfl, Text.Json.reads_quote _ _⟩ .nil)
    simp [ofLine?, Text.Json.parse?_of_reads hreads]

/-- The bytes of a line with an answer have no line feed. -/
theorem lineFeed_not_mem_json (a : Answer) : 10 ∉ Utf8.encode a.json := by
  intro h
  have hfeed := a.isPrintable_json '\n' (Text.Utf8.lineFeed_mem_encode.mp h)
  exact absurd hfeed (by decide)

/-- **Answers are read back from the output with their lines.** -/
theorem ofOutput?_flatMap (answers : List Answer) :
    ofOutput? (answers.flatMap fun a => Utf8.encode (a.json ++ "\n")) = some answers := by
  induction answers with
  | nil => rfl
  | cons a answers ih =>
    have hline : Utf8.encode (a.json ++ "\n") = Utf8.encode a.json ++ [10] :=
      Text.Utf8.encode_append _ _
    simp only [ofOutput?] at ih ⊢
    rw [List.flatMap_cons, hline, List.append_assoc, List.singleton_append,
      inputLines_line a.lineFeed_not_mem_json, List.mapM_cons, ih]
    simp [ofLine?_json]

end Answer

/-! ## Output -/

namespace Console

/-- A console that writes JSON and shows no prompt writes the answers, one a line. -/
theorem output_course_json (label : String) (store : Store) (session : Session)
    (lines : List String) :
    ((⟨label, false, .json⟩ : Console).course store session (lines.map Utf8.encode)).output =
      (effects store session (lines.map Line.ofText)).answers.flatMap
        fun a => Utf8.encode (a.json ++ "\n") := by
  induction lines generalizing store session with
  | nil => rfl
  | cons line rest ih =>
    rw [output_course_unprompted label .json store session line rest rfl, List.map_cons]
    cases Line.ofText line with
    | leave => rfl
    | blank | comment _ => exact ih store session
    | invalid e => exact congrArg (_ ++ ·) (ih store session)
    | statement s => exact congrArg (_ ++ ·) (ih _ _)

/-- **Output in JSON is read back.** Let a script be run from any state on a console that writes
JSON and shows no prompt, without a limit to the output. The output is one line for each answer, in
their order, and the answers are read back from it. There is one for each line that asks for
something, up to one that asks to leave, and it is the answer to that line in the state which the
lines before it leave; no other line has an effect. Any answer at all is written without characters
below U+0020 and is read back. -/
theorem json_output_decodes (label : String) (store : Store) (session : Session)
    (script : String) :
    let output := ((⟨label, false, .json⟩ : Console).run store session .unlimited
      (Utf8.encode script)).sink.written
    let e := scriptEffects store session script
    let asking := askingLines (scriptLines script)
    let before := fun k => answering store session (asking.take k)
    output = e.answers.flatMap (fun a => Utf8.encode (a.json ++ "\n")) ∧
    Answer.ofOutput? output = some e.answers ∧
    e = answering store session asking ∧
    e.answers.length = asking.length ∧
    (∀ k, e.answers[k]? = asking[k]?.map (answerTo (before k).store (before k).session)) ∧
    ∀ a : Answer, IsPrintable a.json ∧ Answer.ofLine? a.json = some a := by
  intro output e asking before
  have houtput : output = e.answers.flatMap fun a => Utf8.encode (a.json ++ "\n") := by
    simp only [output, run, inputLines_encode, runLines_unlimited, output_course_json]
    rfl
  have heffects : e = answering store session asking := effects_map_ofText store session _
  refine ⟨houtput, ?_, heffects, ?_, ?_, fun a => ⟨a.isPrintable_json, a.ofLine?_json⟩⟩
  · rw [houtput, Answer.ofOutput?_flatMap]
  · rw [heffects, length_answering]
  · intro k
    rw [heffects, getElem?_answering]

end Console

end NamespaceControl
