import NamespaceControl.Console

/-!
# The course of a run

What a run writes, and in which state it writes it, does not depend on where its output goes until
the sink is full. The course of a run (`Console.course`) has all its writes in their order, each
with the store and the session at that time, and how the run ends if every write is taken. A run
is its course offered to a sink (`runLines_eq_play`), so it is enough to know how sinks take writes
(`Sink.offer_unlimited`, `Sink.offer_limited_of_le`, `Sink.offer_limited_of_lt`).
-/

namespace NamespaceControl

/-! ## Writes -/

/-- A piece of output with the state of the run at the time when it is written. -/
structure Write where
  /-- What is written. -/
  bytes : List UInt8
  /-- The store at that time. -/
  store : Store
  /-- The session at that time. -/
  session : Session

/-- The moment when a run is about to write one byte. -/
structure Moment where
  /-- The byte. -/
  byte : UInt8
  /-- The store at that moment. -/
  store : Store
  /-- The session at that moment. -/
  session : Session

/-- The moments of a write, one for each byte. -/
def Write.moments (w : Write) : List Moment := w.bytes.map fun b => ⟨b, w.store, w.session⟩

/-- The moments of writes are those of their bytes. -/
theorem map_byte_flatMap_moments (writes : List Write) :
    (writes.flatMap Write.moments).map Moment.byte = writes.flatMap Write.bytes := by
  have hwrite : ∀ w : Write, w.moments.map Moment.byte = w.bytes := by
    intro w
    simp [Write.moments, Function.comp_def]
  rw [List.map_flatMap]
  simp only [hwrite]

/-- Writes have as many moments as bytes. -/
theorem length_flatMap_moments (writes : List Write) :
    (writes.flatMap Write.moments).length = (writes.flatMap Write.bytes).length := by
  rw [← map_byte_flatMap_moments, List.length_map]

namespace Sink

variable {writes more : List Write} {written : List UInt8} {room : Nat}

/-- Write one piece after the other until one is not taken as a whole, which is given back. -/
def offer (sink : Sink) : List Write → Option Write × Sink
  | [] => (none, sink)
  | w :: rest =>
    match sink.write w.bytes with
    | (true, sink') => sink'.offer rest
    | (false, sink') => (some w, sink')

/-- More pieces are written only if all the first ones are taken. -/
theorem offer_append (sink : Sink) (writes more : List Write) :
    sink.offer (writes ++ more) =
      match sink.offer writes with
      | (none, sink') => sink'.offer more
      | (some w, sink') => (some w, sink') := by
  induction writes generalizing sink with
  | nil => rfl
  | cons w rest ih =>
    rw [List.cons_append, offer, offer]
    rcases sink.write w.bytes with ⟨taken, sink'⟩
    cases taken with
    | true => exact ih sink'
    | false => rfl

/-- A sink without a limit takes everything. -/
theorem offer_unlimited (written : List UInt8) (writes : List Write) :
    (⟨written, none⟩ : Sink).offer writes =
      (none, ⟨written ++ writes.flatMap Write.bytes, none⟩) := by
  induction writes generalizing written with
  | nil => simp [offer]
  | cons w rest ih =>
    rw [offer]
    simp only [write]
    rw [ih, List.flatMap_cons, List.append_assoc]

/-- What has room is taken. -/
theorem offer_limited_of_le (h : (writes.flatMap Write.bytes).length ≤ room) :
    (⟨written, some room⟩ : Sink).offer writes =
      (none, ⟨written ++ writes.flatMap Write.bytes,
        some (room - (writes.flatMap Write.bytes).length)⟩) := by
  induction writes generalizing written room with
  | nil => simp [offer]
  | cons w rest ih =>
    rw [List.flatMap_cons, List.length_append] at h
    have hfits : w.bytes.length ≤ room := by omega
    have hrest : (rest.flatMap Write.bytes).length ≤ room - w.bytes.length := by omega
    rw [offer]
    simp only [write, hfits, decide_true]
    rw [ih hrest, List.take_of_length_le hfits, List.flatMap_cons, List.append_assoc,
      List.length_append, Nat.sub_sub]

/-- What has no room is cut off, in the write to which the first byte belongs that is not taken. -/
theorem offer_limited_of_lt (written : List UInt8)
    (h : room < (writes.flatMap Write.bytes).length) :
    ∃ w byte, (⟨written, some room⟩ : Sink).offer writes =
        (some w, ⟨written ++ (writes.flatMap Write.bytes).take room, some 0⟩) ∧
      (writes.flatMap Write.moments)[room]? = some ⟨byte, w.store, w.session⟩ := by
  induction writes generalizing written room with
  | nil => simp at h
  | cons w rest ih =>
    rw [List.flatMap_cons, List.length_append] at h
    have hmoments : w.moments.length = w.bytes.length := List.length_map _
    rw [offer, List.flatMap_cons, List.flatMap_cons]
    by_cases hfits : w.bytes.length ≤ room
    · have hrest : room - w.bytes.length < (rest.flatMap Write.bytes).length := by omega
      obtain ⟨w', byte, hoffer, hmoment⟩ := ih (written ++ w.bytes) hrest
      refine ⟨w', byte, ?_, ?_⟩
      · simp only [write, hfits, decide_true]
        rw [List.take_of_length_le hfits, hoffer, List.take_append,
          List.take_of_length_le hfits, List.append_assoc]
      · rw [List.getElem?_append_right (by omega), hmoments]
        exact hmoment
    · have hroom : room < w.bytes.length := by omega
      refine ⟨w, w.bytes[room], ?_, ?_⟩
      · simp only [write, hfits, decide_false]
        rw [List.take_append_of_le_length (Nat.le_of_lt hroom),
            Nat.sub_eq_zero_of_le (Nat.le_of_lt hroom)]
      · rw [List.getElem?_append_left (by omega), Write.moments, List.getElem?_map,
          List.getElem?_eq_getElem hroom]
        rfl

end Sink

/-! ## Courses -/

/-- What a run writes if all of it is taken, and what it leaves behind then. -/
structure Course where
  /-- The writes, in their order. -/
  writes : List Write
  /-- The store at the end. -/
  store : Store
  /-- The session at the end. -/
  session : Session
  /-- Why the run ends. -/
  ending : Ending

namespace Course

/-- All that is written. -/
def output (c : Course) : List UInt8 := c.writes.flatMap Write.bytes

/-- The moments of a run, one for each byte that is written. -/
def moments (c : Course) : List Moment := c.writes.flatMap Write.moments

/-- The course with writes before it. -/
def behind (c : Course) (front : List Write) : Course := { c with writes := front ++ c.writes }

/-- What comes of a run with this course if its output goes to a sink. -/
def play (c : Course) (sink : Sink) : RunResult :=
  match sink.offer c.writes with
  | (none, sink') => ⟨c.store, c.session, sink', c.ending⟩
  | (some w, sink') => ⟨w.store, w.session, sink', .brokenPipe⟩

/-- The writes before a course come first. -/
theorem play_behind (c : Course) (front : List Write) (sink : Sink) :
    (c.behind front).play sink =
      match sink.offer front with
      | (none, sink') => c.play sink'
      | (some w, sink') => ⟨w.store, w.session, sink', .brokenPipe⟩ := by
  rw [play, behind, Sink.offer_append]
  rcases sink.offer front with ⟨_ | w, sink'⟩
  · rfl
  · rfl

/-- The moments are those of the bytes that are written. -/
theorem map_byte_moments (c : Course) : c.moments.map Moment.byte = c.output := by
  rw [moments, output, map_byte_flatMap_moments]

/-- The bytes of the writes before a course come first. -/
theorem output_behind (c : Course) (front : List Write) :
    (c.behind front).output = front.flatMap Write.bytes ++ c.output :=
  List.flatMap_append

/-- The moments of the writes before a course come first. -/
theorem moments_behind (c : Course) (front : List Write) :
    (c.behind front).moments = front.flatMap Write.moments ++ c.moments :=
  List.flatMap_append

/-- Without a limit everything is written. -/
theorem play_unlimited (c : Course) :
    c.play .unlimited = ⟨c.store, c.session, ⟨c.output, none⟩, c.ending⟩ := by
  rw [play, Sink.unlimited, Sink.offer_unlimited]
  rfl

end Course

namespace Console

variable {console : Console} {store : Store} {session : Session}

/-- The writes of a prompt. -/
def promptWrites (console : Console) (store : Store) (session : Session) : List Write :=
  if console.showPrompt then
    [⟨Text.Utf8.encode (prompt console.label session), store, session⟩]
  else []

/-- The writes of an answer: the line, and the line feed after it. -/
def Reply.writes (r : Reply) : List Write :=
  match r.output with
  | some text =>
    [⟨Text.Utf8.encode text, r.store, r.session⟩, ⟨Text.Utf8.encode "\n", r.store, r.session⟩]
  | none => []

/-- The course behind an answer: it is over if the line ends the run. -/
def Reply.courseBehind (r : Reply) (more : Course) : Course :=
  match r.ending with
  | some ending => ⟨[], r.store, r.session, ending⟩
  | none => more

/-- The run goes on behind an answer that does not end it. -/
theorem Reply.courseBehind_of_none {r : Reply} (h : r.ending = none) (more : Course) :
    r.courseBehind more = more := by
  rw [courseBehind, h]

/-- Behind an answer the store is that of the answer if the rest of the run leaves it. -/
theorem Reply.store_courseBehind (r : Reply) {more : Course} (h : more.store = r.store) :
    (r.courseBehind more).store = r.store := by
  unfold courseBehind
  split
  · rfl
  · exact h

/-- Behind an answer the session is that of the answer if the rest of the run leaves it. -/
theorem Reply.session_courseBehind (r : Reply) {more : Course} (h : more.session = r.session) :
    (r.courseBehind more).session = r.session := by
  unfold courseBehind
  split
  · rfl
  · exact h

/-- The course of a run through the given lines. -/
def course (console : Console) (store : Store) (session : Session) :
    List (List UInt8) → Course
  | [] => ⟨console.promptWrites store session, store, session, .done⟩
  | bytes :: rest =>
    let r := reply console.format store session bytes
    ((r.courseBehind (console.course r.store r.session rest)).behind r.writes).behind
      (console.promptWrites store session)

/-- The first line is read behind a prompt and answered, and then the others are. -/
theorem course_cons {bytes : List UInt8} {rest : List (List UInt8)} {r : Reply}
    (hr : reply console.format store session bytes = r) :
    console.course store session (bytes :: rest) =
      ((r.courseBehind (console.course r.store r.session rest)).behind r.writes).behind
        (console.promptWrites store session) := by
  rw [course, hr]

/-- The output for the first line is that of its prompt and its answer. -/
theorem length_output_course_cons {bytes : List UInt8} {r : Reply}
    (hr : reply console.format store session bytes = r) (rest : List (List UInt8)) :
    (console.course store session (bytes :: rest)).output.length =
      ((console.promptWrites store session).flatMap Write.bytes).length +
        ((r.writes.flatMap Write.bytes).length +
          (r.courseBehind (console.course r.store r.session rest)).output.length) := by
  rw [course_cons hr, Course.output_behind, Course.output_behind, List.length_append,
    List.length_append]

/-! ## Runs -/

/-- Writing a prompt is offering its writes. -/
theorem offer_promptWrites (console : Console) (store : Store) (session : Session) (sink : Sink) :
    (∃ sink', console.writePrompt session sink = (true, sink') ∧
        sink.offer (console.promptWrites store session) = (none, sink')) ∨
      ∃ sink' w, console.writePrompt session sink = (false, sink') ∧
        sink.offer (console.promptWrites store session) = (some w, sink') ∧
          w.store = store ∧ w.session = session := by
  unfold writePrompt promptWrites
  by_cases hshow : console.showPrompt = true
  · simp only [if_pos hshow, Sink.writeText, Sink.offer]
    rcases sink.write _ with ⟨taken, sink'⟩
    cases taken with
    | true => exact Or.inl ⟨sink', rfl, rfl⟩
    | false => exact Or.inr ⟨sink', _, rfl, rfl, rfl, rfl⟩
  · simp only [if_neg hshow]
    exact Or.inl ⟨sink, rfl, rfl⟩

/-- Writing an answer is offering its writes. -/
theorem offer_writes (r : Reply) (sink : Sink) :
    (∃ sink', writeAnswer sink r.output = (true, sink') ∧ sink.offer r.writes = (none, sink')) ∨
      ∃ sink' w, writeAnswer sink r.output = (false, sink') ∧
        sink.offer r.writes = (some w, sink') ∧ w.store = r.store ∧ w.session = r.session := by
  unfold Reply.writes
  cases houtput : r.output with
  | none => exact Or.inl ⟨sink, rfl, rfl⟩
  | some text =>
    simp only [writeAnswer, Sink.writeLine, Sink.writeText, Sink.offer]
    rcases sink.write _ with ⟨taken, sink'⟩
    cases taken with
    | false => exact Or.inr ⟨sink', _, rfl, rfl, rfl, rfl⟩
    | true =>
      dsimp only
      rcases sink'.write _ with ⟨taken, sink''⟩
      cases taken with
      | true => exact Or.inl ⟨sink'', rfl, rfl⟩
      | false => exact Or.inr ⟨sink'', _, rfl, rfl, rfl, rfl⟩

/-- **A run is its course offered to the sink.** -/
theorem runLines_eq_play (console : Console) (store : Store) (session : Session) (sink : Sink)
    (lines : List (List UInt8)) :
    console.runLines store session sink lines = (console.course store session lines).play sink := by
  induction lines generalizing store session sink with
  | nil =>
    rw [runLines, course, Course.play]
    rcases console.offer_promptWrites store session sink with
      ⟨sink', hwrite, hoffer⟩ | ⟨sink', w, hwrite, hoffer, rfl, rfl⟩
    · rw [hwrite, hoffer]
    · rw [hwrite, hoffer]
  | cons bytes rest ih =>
    rw [runLines, course, Course.play_behind]
    rcases console.offer_promptWrites store session sink with
      ⟨sink', hwrite, hoffer⟩ | ⟨sink', w, hwrite, hoffer, hstore, hsession⟩
    · rw [hwrite, hoffer]
      dsimp only
      rw [Course.play_behind]
      rcases offer_writes (reply console.format store session bytes) sink' with
        ⟨sink'', hwrite, hoffer⟩ | ⟨sink'', w, hwrite, hoffer, hstore, hsession⟩
      · rw [hwrite, hoffer]
        dsimp only [Reply.courseBehind]
        cases (reply console.format store session bytes).ending with
        | none => exact ih _ _ sink''
        | some ending => rfl
      · rw [hwrite, hoffer]
        dsimp only
        rw [hstore, hsession]
    · rw [hwrite, hoffer]
      dsimp only
      rw [hstore, hsession]

/-- Without a limit a run writes all of its course. -/
theorem runLines_unlimited (console : Console) (store : Store) (session : Session)
    (lines : List (List UInt8)) :
    console.runLines store session .unlimited lines =
      ⟨(console.course store session lines).store, (console.course store session lines).session,
        ⟨(console.course store session lines).output, none⟩,
        (console.course store session lines).ending⟩ := by
  rw [runLines_eq_play, Course.play_unlimited]

end Console

end NamespaceControl
