import NamespaceControl.Proofs.Command.Stage
import NamespaceControl.Proofs.Console.Decoding
import NamespaceControl.Proofs.Execution.Replies

/-!
# Output in text, line by line

A console that writes text and shows no prompt shows something for each line of its input
(`shownFor`): the headline and the rows of a response, a comment as it is, the reason why a line is
no statement, and nothing for a blank line. None of these has a line feed in it, an error not
even for what is found in the input (`Command.lineFeed_not_mem_message`). So the output is cut where
its line feeds are, and its lines are those that are shown, block by block
(`Console.text_output_lines`).
-/

namespace NamespaceControl

open Command (Expectation Position Source Stage Statement Token)
open Text (Utf8.encode)

/-! ## The line of an error -/

namespace Command

/-- A number is written in digits. -/
theorem lineFeed_not_mem_toString (n : Nat) : '\n' ∉ (toString n).toList := by
  intro h
  rw [Nat.toString_eq_repr, Nat.toList_repr] at h
  exact absurd (Nat.isDigit_of_mem_toDigits (by decide) (by decide) h) (by decide)

/-- A position is worded on one line. -/
theorem Position.lineFeed_not_mem_text (p : Position) : '\n' ∉ p.text.toList := by
  have hfirst : '\n' ∉ "line ".toList := by decide
  have hsecond : '\n' ∉ ", char ".toList := by decide
  simp only [text, String.toList_append, List.mem_append, hfirst, hsecond,
    lineFeed_not_mem_toString, or_self, not_false_eq_true]

/-- What is asked for is worded on one line. -/
theorem Expectation.lineFeed_not_mem_text (e : Expectation) : '\n' ∉ e.text.toList := by
  cases e with
  | keyword k => cases k <;> decide
  | statement | path | identifier | endOfInput => decide

/-- What stands in a text is named on one line, and so is the end: a line feed is a blank. -/
theorem Token.lineFeed_not_mem_literal {t : Token} (h : t = .endOfInput ∨ t.IsSpelled) :
    '\n' ∉ t.literal.toList := by
  cases t with
  | keyword k => cases k <;> decide
  | identifier word =>
    obtain ⟨hword, -⟩ := h.resolve_left (by simp)
    exact fun hfeed => absurd (hword.2 '\n' hfeed) (by decide)
  | dot | endOfInput => decide
  | blank run =>
    show '\n' ∉ "WS".toList
    decide
  | illegal c =>
    obtain ⟨hblank, -⟩ := h.resolve_left (by simp)
    intro hfeed
    obtain rfl : '\n' = c := by simpa [literal] using hfeed
    exact absurd hblank (by decide)

/-- Why a text is no statement is worded on one line. -/
theorem lineFeed_not_mem_message {input : String} {e : ParseError}
    (h : Statement.parse input = .error e) : '\n' ∉ e.message.toList := by
  obtain ⟨before, found, s, hfront, -, -, rfl⟩ :=
    Stage.exists_of_refusal_eq_some (parse_eq_error_iff_refusal.mp h)
  have hmem : found.token ∈ (Source.ofText input).tokens :=
    List.mem_map_of_mem (hfront.subset (by simp))
  have htoken : found.token = .endOfInput ∨ found.token.IsSpelled := by
    by_cases hend : found.token = .endOfInput
    · exact Or.inl hend
    · exact Or.inr ((Source.ofText input).cuts_tokens.isSpelled hmem hend)
  have hfirst : '\n' ∉ "found ".toList := by decide
  have hsecond : '\n' ∉ ", expected ".toList := by decide
  have hthird : '\n' ∉ " at ".toList := by decide
  show '\n' ∉ ("found " ++ found.token.literal ++ ", expected " ++ s.asks.text ++ " at " ++
    found.position.text).toList
  simp only [String.toList_append, List.mem_append, hfirst, hsecond, hthird,
    Token.lineFeed_not_mem_literal htoken, Expectation.lineFeed_not_mem_text,
    Position.lineFeed_not_mem_text, or_self, not_false_eq_true]

end Command

/-! ## What is shown for a line -/

/-- The lines of output for a line of input in a state. -/
def shownFor (store : Store) (session : Session) (line : String) : List String :=
  if trimmed line = "" ∨ AsksToLeave line then []
  else if IsComment line then [trimmed line]
  else match Statement.parse (trimmed line) with
    | .ok s =>
      let r := (execute .none store session s).response
      r.headline :: r.rows
    | .error e => [e.message]

/-- How many lines are shown for a line. -/
theorem length_shownFor (store : Store) (session : Session) (line : String) :
    (shownFor store session line).length =
      if trimmed line = "" ∨ AsksToLeave line then 0
      else if IsComment line then 1
      else match Statement.parse (trimmed line) with
        | .ok s => 1 + (execute .none store session s).response.rows.length
        | .error _ => 1 := by
  unfold shownFor
  split
  · rfl
  · split
    · rfl
    · split
      · exact Nat.add_comm _ 1
      · rfl

/-- The lines of output for what a line is. -/
def Line.shown (store : Store) (session : Session) : Line → List String
  | blank | leave => []
  | comment text => [text]
  | invalid e => [e.message]
  | statement s =>
    let r := (execute .none store session s).response
    r.headline :: r.rows

/-- The lines of output for each line of input, up to one that asks to leave. -/
def shownBlocks (store : Store) (session : Session) : List Line → List (List String)
  | [] => []
  | .leave :: _ => []
  | .statement s :: rest =>
    let done := execute .none store session s
    (Line.statement s).shown store session :: shownBlocks done.store done.session rest
  | line :: rest => line.shown store session :: shownBlocks store session rest

variable {store : Store} {session : Session} {lines : List String} {script : String}

/-- What is shown for a line is what is shown for that which it is. -/
theorem Line.IsOf.shown_eq {line : String} {l : Line} (h : IsOf line l) :
    l.shown store session = shownFor store session line := by
  cases h with
  | blank h => simp [shown, shownFor, h]
  | leave h => simp [shown, shownFor, h]
  | comment h =>
    have hne : trimmed line ≠ "" := fun hblank => by simp [IsComment, hblank] at h
    simp [shown, shownFor, h, hne, h.not_asksToLeave]
  | statement h hs => simp [shown, shownFor, h.1, h.2.1, h.2.2, hs]
  | invalid h he => simp [shown, shownFor, h.1, h.2.1, h.2.2, he]

/-- What is shown for a line is itself made of lines. -/
theorem lineFeed_not_mem_shownFor {line shown : String} (hline : '\n' ∉ line.toList)
    (h : shown ∈ shownFor store session line) : '\n' ∉ shown.toList := by
  have hclass := Line.isOf_ofText line
  rw [← hclass.shown_eq] at h
  generalize Line.ofText line = l at hclass h
  cases hclass with
  | blank _ | leave _ => cases h
  | comment _ =>
    obtain rfl := List.mem_singleton.mp h
    rw [trimmed, String.toList_ofList]
    exact mt Text.mem_of_mem_trim hline
  | @statement s _ _ =>
    exact (Execution.isReply_execute .none store session s).isPlain.forall_line shown h
  | invalid _ he =>
    obtain rfl := List.mem_singleton.mp h
    exact Command.lineFeed_not_mem_message he

/-- Behind a line that does not ask to leave, what is shown goes on from the state which it
leaves. -/
theorem shownBlocks_cons {line : String} (h : ¬ AsksToLeave line) (rest : List Line) :
    let after := answering store session ([line].filter fun line => Asks line)
    shownBlocks store session (Line.ofText line :: rest) =
      shownFor store session line :: shownBlocks after.store after.session rest := by
  have hclass := Line.isOf_ofText line
  rw [← hclass.shown_eq]
  generalize Line.ofText line = l at hclass
  cases hclass with
  | leave hleave => exact absurd hleave h
  | blank hblank =>
    have hasks : ¬ Asks line := fun hasks => hasks.1 hblank
    simp [hasks, answering, shownBlocks]
  | comment hcomment =>
    have hasks : ¬ Asks line := fun hasks => hasks.2.2 hcomment
    simp [hasks, answering, shownBlocks]
  | statement hasks hs => simp [hasks, answering, stateBehind_of_ok hs, shownBlocks, Effects.behind]
  | invalid hasks he => simp [hasks, answering, stateBehind_of_error he, shownBlocks, Effects.behind]

/-- Each line of input that is heard is shown in the state which the lines before it leave. -/
theorem getElem?_shownBlocks (store : Store) (session : Session) (lines : List String) (k : Nat) :
    let before :=
      answering store session (((heardLines lines).take k).filter fun line => Asks line)
    (shownBlocks store session (lines.map Line.ofText))[k]? =
      (heardLines lines)[k]?.map (shownFor before.store before.session) := by
  induction lines generalizing store session k with
  | nil => rfl
  | cons line rest ih =>
    by_cases hleave : AsksToLeave line
    · simp [heardLines_of_leave hleave, Line.ofText_eq_leave_iff.mpr hleave, shownBlocks]
    · rw [List.map_cons, shownBlocks_cons hleave, heardLines_cons hleave]
      cases k with
      | zero => rfl
      | succ k =>
        rw [List.take_succ_cons, ← List.singleton_append, List.filter_append, answering_append]
        exact ih _ _ k

/-- All that is shown is made of lines. -/
theorem lineFeed_not_mem_shownBlocks (hlines : ∀ line ∈ lines, '\n' ∉ line.toList) :
    ∀ shown ∈ (shownBlocks store session (lines.map Line.ofText)).flatten,
      '\n' ∉ shown.toList := by
  intro shown hshown
  obtain ⟨block, hblock, hmem⟩ := List.mem_flatten.mp hshown
  obtain ⟨k, hk⟩ := List.mem_iff_getElem?.mp hblock
  rw [getElem?_shownBlocks] at hk
  obtain ⟨line, hline, rfl⟩ := Option.map_eq_some_iff.mp hk
  exact lineFeed_not_mem_shownFor
    (hlines line ((List.takeWhile_prefix _).subset (List.mem_of_getElem? hline))) hmem

/-! ## Output -/

/-- Texts with a line feed in front of each but the first are texts with a line feed behind each. -/
theorem encode_intercalate (first : String) (rest : List String) :
    Utf8.encode ("\n".intercalate (first :: rest) ++ "\n") =
      (first :: rest).flatMap fun line => Utf8.encode (line ++ "\n") := by
  induction rest generalizing first with
  | nil => simp
  | cons next rest ih =>
    rw [String.intercalate_cons_cons, String.append_assoc, Text.Utf8.encode_append, ih]
    rfl

/-- A response in text with a line feed behind it is its lines with a line feed behind each. -/
theorem Response.encode_text (r : Response) :
    Utf8.encode (r.text ++ "\n") =
      (r.headline :: r.rows).flatMap fun line => Utf8.encode (line ++ "\n") := by
  rw [r.text_eq_intercalate, encode_intercalate]

namespace Console

/-- A console that writes text and shows no prompt writes what is shown. -/
theorem output_course_text (label : String) (store : Store) (session : Session)
    (lines : List String) :
    ((⟨label, false, .text⟩ : Console).course store session (lines.map Utf8.encode)).output =
      (shownBlocks store session (lines.map Line.ofText)).flatten.flatMap
        fun line => Utf8.encode (line ++ "\n") := by
  induction lines generalizing store session with
  | nil => rfl
  | cons line rest ih =>
    rw [output_course_unprompted label .text store session line rest rfl, List.map_cons]
    cases Line.ofText line with
    | leave => rfl
    | blank => exact ih store session
    | comment _ | invalid _ => exact congrArg (_ ++ ·) (ih store session)
    | statement s =>
      refine (congrArg₂ (· ++ ·) (Response.encode_text _) (ih _ _)).trans ?_
      rw [← List.flatMap_append]
      rfl

/-- **Output in text keeps its lines.** Whatever is done to whichever stores, statements whose
responses are written alike got the same response. A response is written as its headline and its
rows, one a line. Let a script be run from any state on a console that writes text and shows no
prompt, without a limit to the output. The lines of the output are those that are shown for the
lines of the script, up to one that asks to leave, each in the state which the lines before it
leave: one and as many more as rows for a statement, one for a comment and for a line that is no
statement, and none for a blank line. -/
theorem text_output_lines (label : String) (store : Store) (session : Session)
    (script : String) :
    let output := ((⟨label, false, .text⟩ : Console).run store session .unlimited
      (Utf8.encode script)).sink.written
    let heard := heardLines (scriptLines script)
    let before := fun k => answering store session ((heard.take k).filter fun line => Asks line)
    (∀ (faults faults' : Faults) (store store' : Store) (session session' : Session)
      (s s' : Statement), (execute faults store session s).response.text =
        (execute faults' store' session' s').response.text →
      (execute faults store session s).response =
        (execute faults' store' session' s').response) ∧
    (∀ (faults : Faults) (store : Store) (session : Session) (s : Statement),
      let r := (execute faults store session s).response
      (Text.pieces '\n' r.text.toList).map String.ofList = r.headline :: r.rows ∧
        '\n' ∉ r.message.toList ∧ ∀ row ∈ r.rows, '\n' ∉ row.toList) ∧
    (∃ blocks : List (List String), inputLines output = blocks.flatten.map Utf8.encode ∧
      ∀ k, blocks[k]? = heard[k]?.map (shownFor (before k).store (before k).session)) ∧
    ∀ (store : Store) (session : Session) (line : String),
      (shownFor store session line).length =
        if trimmed line = "" ∨ AsksToLeave line then 0
        else if IsComment line then 1
        else match Statement.parse (trimmed line) with
          | .ok s => 1 + (execute .none store session s).response.rows.length
          | .error _ => 1 := by
  intro output heard before
  have hplain := fun faults store session s =>
    (Execution.isReply_execute faults store session s).isPlain
  have houtput : output = (shownBlocks store session
      ((scriptLines script).map Line.ofText)).flatten.flatMap
        fun line => Utf8.encode (line ++ "\n") := by
    simp only [output, run, inputLines_encode, runLines_unlimited, output_course_text]
  refine ⟨fun faults faults' store store' session session' s s' htext =>
      (hplain faults store session s).eq_of_text_eq (hplain faults' store' session' s') htext,
    fun faults store session s => ⟨(hplain faults store session s).pieces_text,
      (hplain faults store session s).message_line, (hplain faults store session s).row_line⟩,
    ⟨_, ?_, getElem?_shownBlocks store session (scriptLines script)⟩, length_shownFor⟩
  rw [houtput, inputLines_flatMap_encode (lineFeed_not_mem_shownBlocks
    fun line hline => lineFeed_not_mem_of_mem_scriptLines hline)]

end Console

end NamespaceControl
