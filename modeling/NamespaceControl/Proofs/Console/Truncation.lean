import NamespaceControl.Proofs.Console.Course

/-!
# Output that is cut off

A sink that takes only so many bytes cuts the output of a run there and ends the run, and that is
all: the store and the session are left as they were when the first byte that was not taken was
about to be written. This is the state behind some of the lines, the shortest beginning of the
input that writes too much (`IsCutBehind`), so a statement whose answer is cut off stays executed
and no line after it is read.
-/

namespace NamespaceControl.Console

variable {console : Console} {store : Store} {session : Session} {n : Nat} {m : Moment}

/-! ## States of a course -/

/-- The moments of writes in one state are in that state. -/
theorem state_of_mem_moments {writes : List Write}
    (hwrites : ∀ w ∈ writes, w.store = store ∧ w.session = session)
    (hm : m ∈ writes.flatMap Write.moments) : m.store = store ∧ m.session = session := by
  obtain ⟨w, hw, hm⟩ := List.mem_flatMap.mp hm
  obtain ⟨b, -, rfl⟩ := List.mem_map.mp hm
  exact hwrites w hw

/-- A prompt is written in the state of the run. -/
theorem state_of_mem_promptWrites :
    ∀ w ∈ console.promptWrites store session, w.store = store ∧ w.session = session := by
  intro w hw
  unfold promptWrites at hw
  split at hw
  · obtain rfl := List.mem_singleton.mp hw
    exact ⟨rfl, rfl⟩
  · cases hw

/-- An answer is written in the state behind its line. -/
theorem Reply.state_of_mem_writes (r : Reply) :
    ∀ w ∈ r.writes, w.store = r.store ∧ w.session = r.session := by
  intro w hw
  unfold Reply.writes at hw
  split at hw
  · rw [List.mem_cons, List.mem_singleton] at hw
    rcases hw with rfl | rfl
    · exact ⟨rfl, rfl⟩
    · exact ⟨rfl, rfl⟩
  · cases hw

/-- A moment of a course with writes before it is one of theirs or one of its own. -/
theorem moments_behind_cases {c : Course} {front : List Write}
    (hm : (c.behind front).moments[n]? = some m) :
    (n < (front.flatMap Write.bytes).length ∧ m ∈ front.flatMap Write.moments) ∨
      (front.flatMap Write.bytes).length ≤ n ∧
        c.moments[n - (front.flatMap Write.bytes).length]? = some m := by
  rw [Course.moments_behind] at hm
  rw [← length_flatMap_moments]
  by_cases hn : n < (front.flatMap Write.moments).length
  · rw [List.getElem?_append_left hn] at hm
    exact Or.inl ⟨hn, List.mem_of_getElem? hm⟩
  · have hn : (front.flatMap Write.moments).length ≤ n := by omega
    rw [List.getElem?_append_right hn] at hm
    exact Or.inr ⟨hn, hm⟩

/-! ## The lines before a moment -/

/-- The lines whose course reaches beyond so many bytes, while that of fewer of them does not. -/
structure IsCutBehind (console : Console) (store : Store) (session : Session) (n : Nat)
    (before : List (List UInt8)) : Prop where
  /-- A run through them writes more bytes than that. -/
  lt_length : n < (console.runLines store session .unlimited before).sink.written.length
  /-- A run through fewer of them does not. -/
  length_le : ∀ fewer, fewer <+: before → fewer ≠ before →
    (console.runLines store session .unlimited fewer).sink.written.length ≤ n

/-- The first prompt is written behind no line. -/
theorem isCutBehind_nil
    (hn : n < ((console.promptWrites store session).flatMap Write.bytes).length) :
    console.IsCutBehind store session n [] where
  lt_length := by
    rw [runLines_unlimited]
    exact hn
  length_le := by
    intro fewer hfewer hne
    exact absurd (List.prefix_nil.mp hfewer) hne

/-- What comes behind the first prompt is written behind a line. -/
theorem isCutBehind_cons {bytes : List UInt8} {before : List (List UInt8)}
    (hprompt : ((console.promptWrites store session).flatMap Write.bytes).length ≤ n)
    (hlt : n < (console.course store session (bytes :: before)).output.length)
    (hle : ∀ fewer, fewer <+: before → fewer ≠ before →
      (console.course store session (bytes :: fewer)).output.length ≤ n) :
    console.IsCutBehind store session n (bytes :: before) where
  lt_length := by
    rw [runLines_unlimited]
    exact hlt
  length_le := by
    intro fewer hfewer hne
    rw [runLines_unlimited]
    rcases List.prefix_cons_iff.mp hfewer with rfl | ⟨more, rfl, hmore⟩
    · exact hprompt
    · apply hle more hmore
      rintro rfl
      exact hne rfl

/-- Each moment of a run is in the state behind the lines that are read by then. -/
theorem exists_isCutBehind {lines : List (List UInt8)}
    (hm : (console.course store session lines).moments[n]? = some m) :
    ∃ before after, lines = before ++ after ∧ console.IsCutBehind store session n before ∧
      (console.course store session before).store = m.store ∧
        (console.course store session before).session = m.session := by
  induction lines generalizing store session n with
  | nil =>
    have hn : n < (console.course store session []).moments.length :=
      (List.getElem?_eq_some_iff.mp hm).1
    obtain ⟨hstore, hsession⟩ := state_of_mem_moments state_of_mem_promptWrites
      (List.mem_of_getElem? hm)
    refine ⟨[], [], rfl, isCutBehind_nil ?_, hstore.symm, hsession.symm⟩
    rwa [← length_flatMap_moments]
  | cons bytes rest ih =>
    obtain ⟨r, hr⟩ : ∃ r, reply console.format store session bytes = r := ⟨_, rfl⟩
    rw [course_cons hr] at hm
    rcases moments_behind_cases hm with ⟨hn, hprompt⟩ | ⟨hprompt, hm⟩
    · obtain ⟨hstore, hsession⟩ := state_of_mem_moments state_of_mem_promptWrites hprompt
      exact ⟨[], bytes :: rest, rfl, isCutBehind_nil hn, hstore.symm, hsession.symm⟩
    rcases moments_behind_cases hm with ⟨hn, hanswer⟩ | ⟨hanswer, hm⟩
    · obtain ⟨hstore, hsession⟩ := state_of_mem_moments r.state_of_mem_writes hanswer
      refine ⟨[bytes], rest, rfl, isCutBehind_cons hprompt ?_ ?_, ?_, ?_⟩
      · rw [length_output_course_cons hr]
        omega
      · intro fewer hfewer hne
        exact absurd (List.prefix_nil.mp hfewer) hne
      · rw [course_cons hr]
        exact (r.store_courseBehind rfl).trans hstore.symm
      · rw [course_cons hr]
        exact (r.session_courseBehind rfl).trans hsession.symm
    · cases hending : r.ending with
      | some ending =>
        rw [Reply.courseBehind, hending] at hm
        cases hm
      | none =>
        have hbehind := Reply.courseBehind_of_none hending
        rw [hbehind] at hm
        obtain ⟨before, after, rfl, hcut, hstore, hsession⟩ := ih hm
        have hlt := hcut.lt_length
        rw [runLines_unlimited] at hlt
        refine ⟨bytes :: before, after, rfl, isCutBehind_cons hprompt ?_ ?_, ?_, ?_⟩
        · rw [length_output_course_cons hr, hbehind]
          dsimp only at hlt
          omega
        · intro fewer hfewer hne
          have hle := hcut.length_le fewer hfewer hne
          rw [runLines_unlimited] at hle
          rw [length_output_course_cons hr, hbehind]
          dsimp only at hle
          omega
        · rw [course_cons hr, hbehind]
          exact hstore
        · rw [course_cons hr, hbehind]
          exact hsession

/-! ## Runs that are cut off -/

/-- **A cut leaves what was done before it.** If the sink takes all that a run writes, the run
comes to the same. Otherwise the sink has as many bytes of it as it takes, the run ends with a
broken pipe, and the store and the session are those of the moment when the next byte was about to
be written: the state behind the lines that were read by then. -/
theorem run_limited_eq (console : Console) (store : Store) (session : Session)
    (input : List UInt8) (n : Nat) :
    let full := console.run store session .unlimited input
    let cut := console.run store session (.limited n) input
    let moments := (console.course store session (inputLines input)).moments
    moments.map Moment.byte = full.sink.written ∧
    (full.sink.written.length ≤ n → cut.sink.written = full.sink.written ∧
      cut.ending = full.ending ∧ cut.store = full.store ∧ cut.session = full.session) ∧
    (n < full.sink.written.length → cut.sink.written = full.sink.written.take n ∧
      cut.ending = .brokenPipe ∧
      (∃ moment, moments[n]? = some moment ∧ cut.store = moment.store ∧
        cut.session = moment.session) ∧
      ∃ before after, inputLines input = before ++ after ∧
        console.IsCutBehind store session n before ∧
          cut.store = (console.runLines store session .unlimited before).store ∧
            cut.session = (console.runLines store session .unlimited before).session) := by
  intro full cut moments
  have hfull : full = _ := console.runLines_unlimited store session (inputLines input)
  have hcut : cut = _ := console.runLines_eq_play store session (.limited n) (inputLines input)
  refine ⟨?_, fun hroom => ?_, fun hroom => ?_⟩
  · rw [hfull]
    exact Course.map_byte_moments _
  · rw [hfull] at hroom ⊢
    rw [hcut, Course.play, Sink.limited, Sink.offer_limited_of_le hroom]
    exact ⟨rfl, rfl, rfl, rfl⟩
  · rw [hfull] at hroom ⊢
    obtain ⟨w, byte, hoffer, hmoment⟩ := Sink.offer_limited_of_lt [] hroom
    obtain ⟨before, after, hlines, hbehind, hstore, hsession⟩ := exists_isCutBehind hmoment
    rw [hcut, Course.play, Sink.limited, hoffer]
    refine ⟨rfl, rfl, ⟨_, hmoment, rfl, rfl⟩, before, after, hlines, hbehind, ?_, ?_⟩
    · rw [runLines_unlimited]
      exact hstore.symm
    · rw [runLines_unlimited]
      exact hsession.symm

end NamespaceControl.Console
