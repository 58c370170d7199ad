import NamespaceControl.Proofs.Console.Effects

/-!
# Noise in a script

Lines that are blank, comments and lines that are no statements have no effect, and neither have
blanks around a line. So a script can be garnished with them (`Garnished`), and run by any console:
it leaves the same store and the same session and gets the same responses. Blanks around lines are
not even seen in the output.
-/

namespace NamespaceControl

open Command (Statement)
open Text (Utf8.encode)

variable {line line' : String} {lines lines' : List String}

/-! ## Noise -/

/-- A line is noise if, apart from the blanks around it, it is empty, begins as a comment, or is
neither a request to leave nor a statement. -/
def IsNoise (line : String) : Prop :=
  let trimmed := Text.trim line.toList
  trimmed = [] ∨ ['/', '/'] <+: trimmed ∨ ['-', '-'] <+: trimmed ∨
    (String.ofList trimmed ≠ "exit" ∧ String.ofList trimmed ≠ "quit" ∧
      ∃ e, Statement.parse (String.ofList trimmed) = .error e)

/-- The first list of lines becomes the second if lines are padded with blanks and noise is put
between them. -/
inductive Garnished : List String → List String → Prop where
  /-- Without lines there is nothing to do. -/
  | nil : Garnished [] []
  /-- A line is padded. -/
  | line {line line' : String} {lines lines' : List String} (pads : Pads line line')
      (more : Garnished lines lines') : Garnished (line :: lines) (line' :: lines')
  /-- A line of noise is put in front. -/
  | noise {line' : String} {lines lines' : List String} (noise : IsNoise line')
      (more : Garnished lines lines') : Garnished lines (line' :: lines')

/-- A line is noise if it is blank, a comment, or neither a request to leave nor a statement. -/
theorem isNoise_iff : IsNoise line ↔ trimmed line = "" ∨ IsComment line ∨
    (¬ AsksToLeave line ∧ ∃ e, Statement.parse (trimmed line) = .error e) := by
  simp [IsNoise, IsComment, AsksToLeave, trimmed, or_assoc, and_assoc]

/-- Noise is a blank line, a comment or a line that is no statement. -/
theorem IsNoise.ofText_cases (h : IsNoise line) :
    Line.ofText line = .blank ∨ (∃ text, Line.ofText line = .comment text) ∨
      ∃ e, Line.ofText line = .invalid e := by
  rw [isNoise_iff] at h
  have hclass := Line.isOf_ofText line
  generalize Line.ofText line = l at hclass ⊢
  cases hclass with
  | blank _ => exact Or.inl rfl
  | comment _ => exact Or.inr (Or.inl ⟨_, rfl⟩)
  | invalid _ _ => exact Or.inr (Or.inr ⟨_, rfl⟩)
  | leave hleave =>
    rcases h with h | h | ⟨hstays, -⟩
    · exact absurd hleave (not_asksToLeave_of_blank h)
    · exact absurd hleave h.not_asksToLeave
    · exact absurd hleave hstays
  | statement hasks hs =>
    rcases h with h | h | ⟨-, e, he⟩
    · exact absurd h hasks.1
    · exact absurd h hasks.2.2
    · cases hs.symm.trans he

/-! ## Effects -/

/-- Effects that are the same but for the lines that are no statements. -/
structure SameEffects (e e' : Effects) : Prop where
  /-- The store is the same. -/
  store_eq : e'.store = e.store
  /-- The session is the same. -/
  session_eq : e'.session = e.session
  /-- The responses are the same. -/
  responses_eq : e'.responses = e.responses

/-- Noise has no effect. -/
theorem IsNoise.sameEffects (h : IsNoise line) (store : Store) (session : Session)
    (rest : List Line) :
    SameEffects (effects store session rest)
      (effects store session (Line.ofText line :: rest)) := by
  rcases h.ofText_cases with h | ⟨text, h⟩ | ⟨e, h⟩
  · rw [h]
    exact ⟨rfl, rfl, rfl⟩
  · rw [h]
    exact ⟨rfl, rfl, rfl⟩
  · rw [h]
    exact ⟨rfl, rfl, rfl⟩

/-- Lines that are garnished have the same effects. -/
theorem Garnished.sameEffects (h : Garnished lines lines') (store : Store) (session : Session) :
    SameEffects (effects store session (lines.map Line.ofText))
      (effects store session (lines'.map Line.ofText)) := by
  induction h generalizing store session with
  | nil => exact ⟨rfl, rfl, rfl⟩
  | noise hnoise _ ih =>
    have hrest := ih store session
    have hfirst := hnoise.sameEffects store session
    rw [List.map_cons]
    exact ⟨(hfirst _).store_eq.trans hrest.store_eq, (hfirst _).session_eq.trans hrest.session_eq,
      (hfirst _).responses_eq.trans hrest.responses_eq⟩
  | @line line line' lines lines' hpads _ ih =>
    rw [List.map_cons, List.map_cons, Line.ofText_of_pads hpads]
    cases Line.ofText line with
    | leave => exact ⟨rfl, rfl, rfl⟩
    | blank | comment _ | invalid _ =>
      obtain ⟨hstore, hsession, hresponses⟩ := ih store session
      exact ⟨hstore, hsession, hresponses⟩
    | statement s =>
      obtain ⟨hstore, hsession, hresponses⟩ := ih (execute .none store session s).store
        (execute .none store session s).session
      exact ⟨hstore, hsession, congrArg (_ :: ·) hresponses⟩

/-- Lines that are only padded are the same lines. -/
theorem map_ofText_of_pads (h : List.Forall₂ Pads lines lines') :
    lines'.map Line.ofText = lines.map Line.ofText := by
  induction h with
  | nil => rfl
  | cons hpads _ ih => rw [List.map_cons, List.map_cons, Line.ofText_of_pads hpads, ih]

namespace Console

/-- Scripts whose lines are only padded run alike, also in what is written. -/
theorem run_of_pads (console : Console) (store : Store) (session : Session)
    {script script' : String} (h : List.Forall₂ Pads (scriptLines script) (scriptLines script')) :
    console.run store session .unlimited (Utf8.encode script') =
      console.run store session .unlimited (Utf8.encode script) := by
  rw [run, run, inputLines_encode, inputLines_encode, runLines_unlimited, runLines_unlimited,
    console.course_congr store session (map_ofText_of_pads h)]

/-- **Presentation and noise have no effect.** Let a script be run from any state, without a limit
to the output. Every console leaves the store and the session of the effects of the script and
comes to its end. If the script is garnished with blank lines, comments, lines that are no
statements and blanks around its lines, then, on whatever consoles the two scripts are run, the
store, the session and the end are the same, and so are the responses. If only blanks are put around
its lines, such as carriage returns before its line feeds, then the output is the same too. -/
theorem run_garnished (store : Store) (session : Session) (script : String) :
    (∀ console : Console, ∃ sink, console.run store session .unlimited (Utf8.encode script) =
      ⟨(scriptEffects store session script).store, (scriptEffects store session script).session,
        sink, .done⟩) ∧
    (∀ script', Garnished (scriptLines script) (scriptLines script') →
      (scriptEffects store session script').responses =
        (scriptEffects store session script).responses ∧
      ∀ console console' : Console,
        let r := console.run store session .unlimited (Utf8.encode script)
        let r' := console'.run store session .unlimited (Utf8.encode script')
        r'.store = r.store ∧ r'.session = r.session ∧ r'.ending = r.ending) ∧
    (∀ script', List.Forall₂ Pads (scriptLines script) (scriptLines script') →
      ∀ console : Console, console.run store session .unlimited (Utf8.encode script') =
        console.run store session .unlimited (Utf8.encode script)) ∧
    ∀ console : Console,
      console.run store session .unlimited (Utf8.encode (withCarriageReturns script)) =
        console.run store session .unlimited (Utf8.encode script) := by
  refine ⟨fun console => console.run_script store session script, ?_, ?_, ?_⟩
  · intro script' h
    have hsame : SameEffects (scriptEffects store session script)
        (scriptEffects store session script') := h.sameEffects store session
    refine ⟨hsame.responses_eq, fun console console' => ?_⟩
    obtain ⟨sink, hrun⟩ := console.run_script store session script
    obtain ⟨sink', hrun'⟩ := console'.run_script store session script'
    rw [hrun, hrun']
    exact ⟨hsame.store_eq, hsame.session_eq, rfl⟩
  · intro script' h console
    exact console.run_of_pads store session h
  · intro console
    exact console.run_of_pads store session (pads_withCarriageReturns script)

/-- A selection that is padded and stands between a comment and a blank line, and the same selection
by itself. -/
theorem run_garnished_selection :
    let script := "USE acme\nexit\n"
    let garnished := " -- first\n\t USE acme\r\n\n exit"
    let plain : Console := ⟨"t", false, .json⟩
    let shown : Console := ⟨"t", true, .text⟩
    let run := fun (console : Console) input =>
      console.run (Store.empty.add ⟨["acme"], by decide, by decide⟩)
        (.start (.administrator "root")) .unlimited (Utf8.encode input)
    Garnished (scriptLines script) (scriptLines garnished) ∧
      (run shown garnished).session = (run plain script).session ∧
      (run plain (withCarriageReturns script)).sink = (run plain script).sink := by
  intro script garnished plain shown run
  have hlines : scriptLines script = ["USE acme", "exit"] := by decide
  have hlines' : scriptLines garnished = [" -- first", "\t USE acme\r", "", " exit"] := by decide
  have hgarnished : Garnished (scriptLines script) (scriptLines garnished) := by
    rw [hlines, hlines']
    refine .noise (Or.inr (Or.inr (Or.inl (by decide)))) ?_
    have hblank : ∀ blanks : List Char, blanks.all Text.isBlank = true →
        ∀ c ∈ blanks, Text.isBlank c = true := fun _ => List.all_eq_true.mp
    refine .line ⟨['\t', ' '], ['\r'], hblank _ (by decide), hblank _ (by decide), by decide⟩ ?_
    refine .noise (Or.inl (by decide)) ?_
    exact .line ⟨[' '], [], hblank _ (by decide), hblank _ (by decide), by decide⟩ .nil
  obtain ⟨-, hnoise, -, hreturns⟩ := run_garnished
    (Store.empty.add ⟨["acme"], by decide, by decide⟩) (.start (.administrator "root")) script
  obtain ⟨-, hruns⟩ := hnoise garnished hgarnished
  exact ⟨hgarnished, (hruns plain shown).2.1, congrArg RunResult.sink (hreturns plain)⟩

end Console

end NamespaceControl
