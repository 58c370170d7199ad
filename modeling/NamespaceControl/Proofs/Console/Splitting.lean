import NamespaceControl.Proofs.Console.Course
import NamespaceControl.Proofs.Console.Lines

/-!
# Inputs that are run in pieces

An input can be cut behind a line feed and run in two pieces, the second from the state in which
the first leaves the store and the session. If no line of the first piece ends the run
(`EndsRun`), the whole run does what the two do one after the other, but for the prompt at the end
of the first piece, which is also the one that the second begins with. If a line of the first piece
ends the run, nothing behind that line matters.
-/

namespace NamespaceControl

/-! ## Lines of an input -/

/-- Behind a line feed the lines are those of the rest. -/
theorem inputLines_append {a b : List UInt8} (ha : a = [] ∨ a.getLast? = some 10) :
    inputLines (a ++ b) = inputLines a ++ inputLines b := by
  induction a with
  | nil => rfl
  | cons x rest ih =>
    have hlast : (x :: rest).getLast? = some 10 := by simpa using ha
    by_cases hx : x = 10
    · have hrest : rest = [] ∨ rest.getLast? = some 10 := by
        cases rest with
        | nil => exact Or.inl rfl
        | cons y more => exact Or.inr (by rwa [List.getLast?_cons_cons] at hlast)
      simp [inputLines, hx, ih hrest]
    · -- a line feed is left, so that the rest is no empty line
      obtain ⟨y, more, rfl⟩ : ∃ y more, rest = y :: more := by
        cases rest with
        | nil => exact absurd (by simpa using hlast) hx
        | cons y more => exact ⟨y, more, rfl⟩
      rw [List.getLast?_cons_cons] at hlast
      obtain ⟨line, lines, hlines⟩ : ∃ line lines, inputLines (y :: more) = line :: lines := by
        apply List.exists_cons_of_ne_nil
        rw [inputLines]
        split
        · exact List.cons_ne_nil _ _
        · split
          · exact List.cons_ne_nil _ _
          · exact List.cons_ne_nil _ _
      have hmore := ih (Or.inr hlast)
      rw [hlines] at hmore
      rw [List.cons_append, inputLines, inputLines, if_neg hx, if_neg hx, hmore, hlines]
      rfl

/-- A line ends the run if it is not UTF-8, or if it asks to leave. -/
def EndsRun (bytes : List UInt8) : Prop :=
  match Text.Utf8.decode? bytes with
  | none => True
  | some text =>
    String.ofList (Text.trim text.toList) = "exit" ∨ String.ofList (Text.trim text.toList) = "quit"

instance : DecidablePred EndsRun := fun bytes =>
  match h : Text.Utf8.decode? bytes with
  | none => isTrue (by rw [EndsRun, h]; trivial)
  | some text =>
    decidable_of_iff (String.ofList (Text.trim text.toList) = "exit" ∨
      String.ofList (Text.trim text.toList) = "quit") (by rw [EndsRun, h])

/-- Why a line ends the run. -/
def endingOf (bytes : List UInt8) : Ending :=
  if Text.Utf8.decode? bytes = none then .invalidData else .done

namespace Console

variable {console : Console} {store : Store} {session : Session} {bytes : List UInt8}
  {a b : List (List UInt8)}

/-- A line that ends the run does nothing else. -/
theorem reply_of_endsRun (format : Format) (store : Store) (session : Session)
    (h : EndsRun bytes) :
    reply format store session bytes = ⟨store, session, none, some (endingOf bytes)⟩ := by
  unfold EndsRun at h
  unfold reply endingOf
  cases hdecode : Text.Utf8.decode? bytes with
  | none => rfl
  | some text =>
    rw [hdecode] at h
    simp only [Line.ofText_eq_leave_iff.mpr h]
    rfl

/-- Behind any other line the run goes on. -/
theorem ending_reply_of_not_endsRun (format : Format) (store : Store) (session : Session)
    (h : ¬ EndsRun bytes) : (reply format store session bytes).ending = none := by
  unfold EndsRun at h
  unfold reply
  cases hdecode : Text.Utf8.decode? bytes with
  | none =>
    rw [hdecode] at h
    exact absurd trivial h
  | some text =>
    rw [hdecode] at h
    have hleave : Line.ofText text ≠ .leave := fun hleave => h (Line.ofText_eq_leave_iff.mp hleave)
    dsimp only
    cases hline : Line.ofText text with
    | leave => exact absurd hline hleave
    | blank | comment _ | statement _ | invalid _ => rfl

/-! ## Courses in pieces -/

/-- Behind lines that do not end the run, their last prompt is the first one of the rest. -/
theorem exists_course_append (console : Console) (store : Store) (session : Session)
    (b : List (List UInt8)) (ha : ∀ line ∈ a, ¬ EndsRun line) :
    ∃ body store' session',
      console.course store session a =
        ⟨body ++ console.promptWrites store' session', store', session', .done⟩ ∧
      console.course store session (a ++ b) = (console.course store' session' b).behind body := by
  induction a generalizing store session with
  | nil => exact ⟨[], store, session, rfl, rfl⟩
  | cons bytes rest ih =>
    obtain ⟨hbytes, hrest⟩ := List.forall_mem_cons.mp ha
    obtain ⟨r, hr⟩ : ∃ r, reply console.format store session bytes = r := ⟨_, rfl⟩
    have hending : r.ending = none :=
      hr ▸ ending_reply_of_not_endsRun console.format store session hbytes
    have hbehind := Reply.courseBehind_of_none hending
    obtain ⟨body, store', session', hleft, hright⟩ := ih r.store r.session hrest
    refine ⟨console.promptWrites store session ++ (r.writes ++ body), store', session', ?_, ?_⟩
    · rw [course_cons hr, hbehind, hleft]
      simp [Course.behind]
    · rw [List.cons_append, course_cons hr, hbehind, hright]
      simp [Course.behind]

/-- Nothing behind a line that ends the run is read. -/
theorem course_of_endsRun (store : Store) (session : Session) (ha : ∀ line ∈ a, ¬ EndsRun line)
    (h : EndsRun bytes) :
    console.course store session (a ++ bytes :: b) =
      { console.course store session a with ending := endingOf bytes } := by
  obtain ⟨body, store', session', hleft, hright⟩ :=
    console.exists_course_append store session (bytes :: b) ha
  rw [hright, hleft, course_cons (reply_of_endsRun console.format store' session' h)]
  simp [Reply.courseBehind, Reply.writes, Course.behind]

/-- The bytes of a prompt, if prompts are shown. -/
theorem bytes_promptWrites (console : Console) (store : Store) (session : Session) :
    (console.promptWrites store session).flatMap Write.bytes =
      if console.showPrompt then Text.Utf8.encode (prompt console.label session) else [] := by
  unfold promptWrites
  split
  · exact List.flatMap_singleton _ _
  · rfl

/-- The output of a run begins with a prompt, if prompts are shown. -/
theorem exists_output_course (console : Console) (store : Store) (session : Session)
    (lines : List (List UInt8)) :
    ∃ tail, (console.course store session lines).output =
      (console.promptWrites store session).flatMap Write.bytes ++ tail := by
  cases lines with
  | nil => exact ⟨[], by simp [course, Course.output]⟩
  | cons bytes rest => exact ⟨_, Course.output_behind _ _⟩

/-! ## Runs in pieces -/

/-- Behind lines that do not end the run it goes on as if it began there, and the prompt that it
stops at is the one that it would begin with. -/
theorem runLines_append (console : Console) (store : Store) (session : Session)
    (b : List (List UInt8)) (ha : ∀ line ∈ a, ¬ EndsRun line) :
    let first := console.runLines store session .unlimited a
    let second := console.runLines first.store first.session .unlimited b
    let mark :=
      if console.showPrompt then Text.Utf8.encode (prompt console.label first.session) else []
    ∃ body tail, first.ending = .done ∧ first.sink.written = body ++ mark ∧
      second.sink.written = mark ++ tail ∧
        console.runLines store session .unlimited (a ++ b) =
          { second with sink := ⟨body ++ second.sink.written, none⟩ } := by
  intro first second mark
  obtain ⟨body, store', session', hleft, hright⟩ := console.exists_course_append store session b ha
  have hfirst : first = ⟨store', session',
      ⟨(body ++ console.promptWrites store' session').flatMap Write.bytes, none⟩, .done⟩ := by
    have hrun : first = _ := console.runLines_unlimited store session a
    rwa [hleft] at hrun
  have hstore : first.store = store' := by rw [hfirst]
  have hsession : first.session = session' := by rw [hfirst]
  have hsecond : second = _ := console.runLines_unlimited first.store first.session b
  rw [hstore, hsession] at hsecond
  have hmark : (console.promptWrites store' session').flatMap Write.bytes = mark := by
    rw [bytes_promptWrites, ← hsession]
  obtain ⟨tail, htail⟩ := console.exists_output_course store' session' b
  refine ⟨body.flatMap Write.bytes, tail, ?_, ?_, ?_, ?_⟩
  · rw [hfirst]
  · rw [hfirst, ← hmark]
    exact List.flatMap_append
  · rw [hsecond, ← hmark]
    exact htail
  · rw [runLines_unlimited, hright, hsecond, Course.output_behind]
    rfl

/-- A line that ends the run leaves all as it is behind the lines before it. -/
theorem runLines_of_endsRun (console : Console) (store : Store) (session : Session)
    (b : List (List UInt8)) (ha : ∀ line ∈ a, ¬ EndsRun line) (h : EndsRun bytes) :
    console.runLines store session .unlimited (a ++ bytes :: b) =
      { console.runLines store session .unlimited a with ending := endingOf bytes } := by
  rw [runLines_unlimited, runLines_unlimited, course_of_endsRun store session ha h]
  rfl

/-- Among lines of which some end the run there is a first one. -/
theorem exists_first_endsRun {lines : List (List UInt8)} (h : ∃ line ∈ lines, EndsRun line) :
    ∃ before line after, lines = before ++ line :: after ∧
      (∀ earlier ∈ before, ¬ EndsRun earlier) ∧ EndsRun line := by
  induction lines with
  | nil =>
    obtain ⟨line, hline, -⟩ := h
    cases hline
  | cons bytes rest ih =>
    by_cases hbytes : EndsRun bytes
    · exact ⟨[], bytes, rest, rfl, List.forall_mem_nil _, hbytes⟩
    · obtain ⟨before, line, after, rfl, hbefore, hline⟩ := ih <| by
        obtain ⟨line, hline, hends⟩ := h
        rcases List.mem_cons.mp hline with rfl | hline
        · exact absurd hends hbytes
        · exact ⟨line, hline, hends⟩
      exact ⟨bytes :: before, line, after, rfl, List.forall_mem_cons.mpr ⟨hbytes, hbefore⟩, hline⟩

/-- **A run in pieces is the whole run.** Let the first piece be empty or end with a line feed. If
none of its lines ends the run, then the whole run ends as the second piece does from where the
first one leaves off, and its output is that of both, where the prompt behind the first piece is
also the one before the second. If some line of the first piece ends the run, then the second piece
does not matter: all is as behind the lines before that one. -/
theorem run_append (console : Console) (store : Store) (session : Session) (a b : List UInt8)
    (ha : a = [] ∨ a.getLast? = some 10) :
    let first := console.run store session .unlimited a
    let second := console.run first.store first.session .unlimited b
    let whole := console.run store session .unlimited (a ++ b)
    let mark := Text.Utf8.encode (prompt console.label first.session)
    ((∀ line ∈ inputLines a, ¬ EndsRun line) →
      first.ending = .done ∧
      whole.store = second.store ∧ whole.session = second.session ∧
      whole.ending = second.ending ∧
      (console.showPrompt = false →
        whole.sink.written = first.sink.written ++ second.sink.written) ∧
      (console.showPrompt = true → ∃ body tail,
        first.sink.written = body ++ mark ∧ second.sink.written = mark ++ tail ∧
          whole.sink.written = body ++ second.sink.written)) ∧
    ((∃ line ∈ inputLines a, EndsRun line) →
      whole = first ∧
      ∃ before line after, inputLines a = before ++ line :: after ∧
        (∀ earlier ∈ before, ¬ EndsRun earlier) ∧ EndsRun line ∧
          first =
            { console.runLines store session .unlimited before with ending := endingOf line }) := by
  intro first second whole mark
  have hwhole : whole = console.runLines store session .unlimited (inputLines a ++ inputLines b) :=
    congrArg (console.runLines store session .unlimited) (inputLines_append ha)
  constructor
  · intro hgoes
    obtain ⟨body, tail, hdone, hfirst, hsecond, hboth⟩ :=
      console.runLines_append store session (inputLines b) hgoes
    have hrun : whole = { second with sink := ⟨body ++ second.sink.written, none⟩ } :=
      hwhole.trans hboth
    have hwritten : whole.sink.written = body ++ second.sink.written := by rw [hrun]
    refine ⟨hdone, by rw [hrun], by rw [hrun], by rw [hrun], fun hshow => ?_, fun hshow => ?_⟩
    · rw [hshow] at hfirst
      rw [hwritten]
      exact congrArg (· ++ second.sink.written) (hfirst.trans (List.append_nil body)).symm
    · rw [hshow] at hfirst hsecond
      exact ⟨body, tail, hfirst, hsecond, hwritten⟩
  · intro hends
    obtain ⟨before, line, after, hlines, hbefore, hline⟩ := exists_first_endsRun hends
    have hcut := fun rest => console.runLines_of_endsRun store session rest hbefore hline
    have hfirst : first = _ := congrArg (console.runLines store session .unlimited) hlines
    rw [hcut] at hfirst
    rw [hlines, List.append_assoc, List.cons_append, hcut] at hwhole
    exact ⟨hwhole.trans hfirst.symm, before, line, after, hlines, hbefore, hline, hfirst⟩

/-- A comment behind which the rest is run, and a request to leave behind which it is not. -/
theorem run_append_comment_quit :
    let console : Console := ⟨"t", true, .text⟩
    let comment : List UInt8 := [45, 45, 10]
    let quit : List UInt8 := [113, 117, 105, 116, 10]
    let run := fun input => console.run .empty (.start (.regular "wile")) .unlimited input
    (comment.getLast? = some 10 ∧ ∀ line ∈ inputLines comment, ¬ EndsRun line) ∧
      (quit.getLast? = some 10 ∧ ∃ line ∈ inputLines quit, EndsRun line) ∧
      (∃ body tail, (run comment).sink.written = body ++ Text.Utf8.encode "t> " ∧
        (run quit).sink.written = Text.Utf8.encode "t> " ++ tail ∧
          (run (comment ++ quit)).sink.written = body ++ (run quit).sink.written) ∧
      run (quit ++ comment) = run quit := by
  intro console comment quit run
  have hcomment : ∀ line ∈ inputLines comment, ¬ EndsRun line := by decide
  have hquit : ∃ line ∈ inputLines quit, EndsRun line := by decide
  obtain ⟨hgoes, -⟩ := run_append console .empty (.start (.regular "wile")) comment quit
    (Or.inr rfl)
  obtain ⟨-, hstops⟩ := run_append console .empty (.start (.regular "wile")) quit comment
    (Or.inr rfl)
  obtain ⟨-, -, -, -, -, hshown⟩ := hgoes hcomment
  exact ⟨⟨rfl, hcomment⟩, ⟨rfl, hquit⟩, hshown rfl, (hstops hquit).1⟩

end Console

end NamespaceControl
