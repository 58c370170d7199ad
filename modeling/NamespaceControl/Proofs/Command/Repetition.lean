import NamespaceControl.Proofs.Command.Journal

/-!
# One parser, asked many times

A parser can be asked for a statement again and again, whether it fails or not. Between the calls
nothing is held, so each call begins with the first lexeme that those before it did not take, and
takes a run of lexemes of its source (`Parser.exists_read_call`). A call that met the end of the
input has taken it, and then every later call meets it one character further on
(`Parser.endedBy_succ`).
-/

namespace NamespaceControl.Command

namespace Parser

variable {p : Parser} {lexeme : Lexeme} {i j : Nat}

/-! ## Calls -/

/-- The parser behind the first calls. -/
def afterCalls (p : Parser) : Nat → Parser
  | 0 => p
  | i + 1 => p.statement.2.afterCalls i

/-- The call behind the first ones, with its moves. -/
def call (p : Parser) (i : Nat) : Recorded Statement := Journal.statement ⟨p.afterCalls i, []⟩

/-- The lexemes that a call takes. -/
def takenBy (p : Parser) (i : Nat) : List Lexeme := taken (p.call i).2.moves

/-- A call does what the parser does behind those before it. -/
theorem erase_call (p : Parser) (i : Nat) : (p.call i).erase = (p.afterCalls i).statement :=
  Journal.erase_statement _

/-- A call leaves the parser for the next one. -/
theorem afterCalls_succ (p : Parser) (i : Nat) : p.afterCalls (i + 1) = (p.call i).2.parser := by
  have hstep : p.afterCalls (i + 1) = (p.afterCalls i).statement.2 := by
    induction i generalizing p with
    | zero => rfl
    | succ i ih => exact ih p.statement.2
  rw [hstep, ← erase_call]
  rfl

/-- The outcomes of asking again and again are those of the calls. -/
theorem statements_eq (p : Parser) (count : Nat) :
    p.statements count = (List.range count).map fun i => (p.call i).1 := by
  induction count generalizing p with
  | zero => rfl
  | succ count ih =>
    have hfirst : (p.call 0).1 = p.statement.1 := congrArg Prod.fst (p.erase_call 0)
    rw [statements]
    dsimp only
    rw [ih, List.range_succ_eq_map, List.map_cons, List.map_map, hfirst]
    rfl

/-! ## One call -/

/-- A call that fails reports a lexeme. -/
theorem exists_unexpected (h : (p.afterCalls i).held = none) {e : ParseError}
    (he : (p.call i).1 = .error e) : ∃ found expected, e = .unexpected found expected := by
  have herror : (p.afterCalls i).statement.1 = .error e := by
    rw [← erase_call]
    exact he
  rw [← Parsed.errorOr_eq_some_iff, errorOr_statement (hasSegments_of_held_eq_none h)] at herror
  obtain ⟨-, found, s, -, -, -, rfl⟩ := Stage.exists_of_refusal_eq_some herror
  exact ⟨found, s.asks, rfl⟩

/-- What a call takes last is the end of the input behind a statement, and else what it reports. -/
theorem exists_tookLast (h : (p.afterCalls i).held = none) :
    ∃ lexeme, (p.call i).2.TookLast lexeme ∧
      ((∃ s, (p.call i).1 = .ok s) ∧ lexeme.token = .endOfInput ∨
        ∃ expected, (p.call i).1 = .error (.unexpected lexeme expected)) := by
  cases houtcome : (p.call i).1 with
  | ok s =>
    have hok : (p.call i) = (.ok s, (p.call i).2) := Prod.ext houtcome rfl
    obtain ⟨lexeme, hlast, hend⟩ := Journal.tookLast_of_statement hok
    exact ⟨lexeme, hlast, Or.inl ⟨⟨s, rfl⟩, hend⟩⟩
  | error e =>
    obtain ⟨found, expected, rfl⟩ := exists_unexpected h houtcome
    have hsound := Journal.sound_statement (Journal.faithful_open h)
    exact ⟨found, hsound.found found expected houtcome, Or.inr ⟨expected, rfl⟩⟩

/-- Nothing is held behind any number of calls if nothing is held before them. -/
theorem held_afterCalls (h : p.held = none) (i : Nat) : (p.afterCalls i).held = none := by
  induction i with
  | zero => exact h
  | succ i ih =>
    obtain ⟨lexeme, hlast, -⟩ := exists_tookLast ih
    rw [afterCalls_succ]
    exact hlast.held_eq

/-- A call takes the next lexemes of the source, at least one, and leaves what is behind them. -/
theorem exists_read_call (h : p.held = none) (i : Nat) :
    ∃ count, p.takenBy i = (p.afterCalls i).source.read (count + 1) ∧
      (p.afterCalls (i + 1)).source = (p.afterCalls i).source.skip (count + 1) := by
  have hheld := held_afterCalls h i
  obtain ⟨lexeme, hlast, -⟩ := exists_tookLast hheld
  obtain ⟨count, hread, hsource⟩ :=
    (Journal.sound_statement (Journal.faithful_open hheld)).faithful.exists_read
  have htaken : p.takenBy i = (p.afterCalls i).source.read count := by
    have hnone : (Journal.statement ⟨p.afterCalls i, []⟩).2.parser.held = none := hlast.held_eq
    rw [hnone] at hread
    exact (List.append_nil _).symm.trans hread
  cases count with
  | zero =>
    have hsome : (p.takenBy i).getLast? = some lexeme := hlast.last_eq
    rw [htaken] at hsome
    cases hsome
  | succ count =>
    refine ⟨count, htaken, ?_⟩
    rw [afterCalls_succ]
    exact hsource

/-- **The calls take the lexemes of the source one after the other.** -/
theorem exists_read_calls (h : p.held = none) (i : Nat) :
    ∃ count, ((List.range i).flatMap p.takenBy) = p.source.read count ∧
      (p.afterCalls i).source = p.source.skip count := by
  induction i with
  | zero => exact ⟨0, rfl, rfl⟩
  | succ i ih =>
    obtain ⟨before, hbefore, hsource⟩ := ih
    obtain ⟨count, hread, hskip⟩ := exists_read_call h i
    refine ⟨before + (count + 1), ?_, ?_⟩
    · rw [List.range_succ, List.flatMap_append, hbefore, List.flatMap_singleton, hread, hsource]
      exact (p.source.read_add before (count + 1)).symm
    · rw [hskip, hsource]
      exact (p.source.skip_add before (count + 1)).symm

/-! ## The end of the input -/

/-- A parser is past the end of the input, where the last look at it found the given lexeme. -/
structure PastEnd (p : Parser) (lexeme : Lexeme) : Prop where
  /-- Nothing is held. -/
  held_eq : p.held = none
  /-- Nothing is left to read. -/
  rest_eq : p.source.rest = []
  /-- The next look is one character further on. -/
  next_eq : p.source.place.next = ⟨lexeme.position.line, lexeme.position.char + 1⟩

/-- The end of the input as it is found by one more look. -/
def lookAgain (lexeme : Lexeme) : Lexeme :=
  ⟨.endOfInput, lexeme.position.line, lexeme.position.char + 1⟩

/-- The call took the end of the input last, and found it there. -/
structure EndedBy (p : Parser) (i : Nat) (lexeme : Lexeme) : Prop where
  /-- The lexeme was taken last. -/
  last_eq : (p.takenBy i).getLast? = some lexeme
  /-- It is the end of the input. -/
  token_eq : lexeme.token = .endOfInput

/-- Whoever has read the end of the input is past it. -/
theorem rest_skip_of_endOfInput {s : Source} {count : Nat}
    (hlast : (s.read (count + 1)).getLast? = some lexeme) (hend : lexeme.token = .endOfInput) :
    (s.skip (count + 1)).rest = [] ∧
      (s.skip (count + 1)).place.next = ⟨lexeme.position.line, lexeme.position.char + 1⟩ := by
  rw [s.read_succ, List.getLast?_concat] at hlast
  obtain rfl := Option.some.inj hlast
  have hrest := Source.token_next_eq_endOfInput_iff.mp hend
  rw [s.skip_succ, Source.next, hrest]
  exact ⟨rfl, rfl⟩

/-- Behind a call that took the end of the input the parser is past it. -/
theorem pastEnd_of_endedBy (h : p.held = none) (hend : p.EndedBy i lexeme) :
    (p.afterCalls (i + 1)).PastEnd lexeme := by
  obtain ⟨count, hread, hsource⟩ := exists_read_call h i
  have hlast := hend.last_eq
  rw [hread] at hlast
  obtain ⟨hrest, hnext⟩ := rest_skip_of_endOfInput hlast hend.token_eq
  exact ⟨held_afterCalls h _, hsource ▸ hrest, hsource ▸ hnext⟩

/-- Past the end of the input there is no statement. -/
theorem PastEnd.statement_eq (h : p.PastEnd lexeme) :
    p.statement.1 = .error (.unexpected (lookAgain lexeme) .statement) := by
  have hscan : p.scan.1 = lookAgain lexeme := by
    unfold scan
    rw [h.held_eq]
    dsimp only
    rw [Source.next, h.rest_eq]
    exact congrArg (Lexeme.mk .endOfInput) h.next_eq
  have hpast : p.scanPastBlank.1 = lookAgain lexeme := by
    rw [scanPastBlank_of_not_blank (by simp [hscan, lookAgain]), hscan]
  unfold statement
  rw [← hpast]
  simp only [body, hpast, lookAgain]
  rfl

/-- **The end of the input is met again and again**, each time one character further on. -/
theorem endedBy_succ (h : p.held = none) (hend : p.EndedBy i lexeme) :
    (p.call (i + 1)).1 = .error (.unexpected (lookAgain lexeme) .statement) ∧
      p.EndedBy (i + 1) (lookAgain lexeme) := by
  have herror : (p.call (i + 1)).1 = .error (.unexpected (lookAgain lexeme) .statement) := by
    rw [← (pastEnd_of_endedBy h hend).statement_eq, ← erase_call]
    rfl
  obtain ⟨found, hlast, ⟨⟨s, hok⟩, -⟩ | ⟨expected, hfound⟩⟩ :=
    exists_tookLast (held_afterCalls h (i + 1))
  · rw [herror] at hok
    cases hok
  · rw [herror] at hfound
    obtain ⟨rfl, -⟩ := ParseError.unexpected.inj (Except.error.inj hfound)
    exact ⟨herror, hlast.last_eq, rfl⟩

/-- A call ends the input if it gives a statement or fails on the end of the input. -/
def EndsInput (outcome : Except ParseError Statement) : Prop :=
  match outcome with
  | .ok _ => True
  | .error (.unexpected found _) => found.token = .endOfInput
  | .error (.invalidName _) => False

/-- A call that ends the input took the end of it last. -/
theorem exists_endedBy (h : p.held = none) (hi : EndsInput (p.call i).1) :
    ∃ lexeme, p.EndedBy i lexeme := by
  obtain ⟨lexeme, hlast, ⟨-, hend⟩ | ⟨expected, herror⟩⟩ := exists_tookLast (held_afterCalls h i)
  · exact ⟨lexeme, hlast.last_eq, hend⟩
  · rw [herror] at hi
    exact ⟨lexeme, hlast.last_eq, hi⟩

/-- Behind a call that ends the input every call meets the end again. -/
theorem exists_endedBy_of_lt (h : p.held = none) (hi : EndsInput (p.call i).1) (hij : i < j) :
    ∃ lexeme, p.EndedBy (j - 1) lexeme ∧
      (p.call j).1 = .error (.unexpected (lookAgain lexeme) .statement) := by
  obtain ⟨k, rfl⟩ : ∃ k, j = i + 1 + k := ⟨j - (i + 1), by omega⟩
  induction k with
  | zero =>
    obtain ⟨lexeme, hend⟩ := exists_endedBy h hi
    exact ⟨lexeme, hend, (endedBy_succ h hend).1⟩
  | succ k ih =>
    obtain ⟨lexeme, hend, -⟩ := ih (by omega)
    have hagain : p.EndedBy (i + 1 + k) (lookAgain lexeme) := by
      have hsucc := (endedBy_succ h hend).2
      rwa [show i + 1 + k - 1 + 1 = i + 1 + k by omega] at hsucc
    exact ⟨lookAgain lexeme, hagain, (endedBy_succ h hagain).1⟩

/-- Behind a statement there is no other. -/
theorem not_lt_of_ok (h : p.held = none) {s t : Statement} (hi : (p.call i).1 = .ok s)
    (hj : (p.call j).1 = .ok t) : ¬ i < j := by
  intro hij
  have hends : EndsInput (p.call i).1 := by
    rw [hi]
    trivial
  obtain ⟨lexeme, -, herror⟩ := exists_endedBy_of_lt h hends hij
  rw [hj] at herror
  cases herror

/-! ## All calls -/

/-- **Tokens are taken once and in order.** However often a parser of a text is asked for a
statement: nothing is held between the calls, and within a call nothing is put back while something
is held. The calls take the lexemes of the text one after the other, each from where the one before
it stopped, and one that fails takes last what it reports. At most one of them gives a statement.
Behind one that does, or that fails on the end of the input, every call fails on the end of the
input, one character behind where it was found before. -/
theorem statements_take_in_order (input : String) :
    (∀ count, (ofText input).statements count =
      (List.range count).map fun i => ((ofText input).call i).1) ∧
    (∀ i, ((ofText input).afterCalls i).held = none ∧
      ((ofText input).call i).2.parser = (ofText input).afterCalls (i + 1) ∧
        ∀ lexeme held, .unscan lexeme held ∈ ((ofText input).call i).2.moves → held = none) ∧
    (∀ i, ∃ count,
      (List.range i).flatMap (ofText input).takenBy = (Source.ofText input).read count ∧
        ((ofText input).afterCalls i).source = (Source.ofText input).skip count) ∧
    (∀ i e, ((ofText input).call i).1 = .error e →
      ∃ found expected, e = .unexpected found expected ∧
        ((ofText input).takenBy i).getLast? = some found) ∧
    (∀ i j s t, ((ofText input).call i).1 = .ok s → ((ofText input).call j).1 = .ok t → i = j) ∧
    ∀ i j, i < j → EndsInput ((ofText input).call i).1 →
      ∃ before e, ((ofText input).takenBy (j - 1)).getLast? = some before ∧
        before.token = .endOfInput ∧ ((ofText input).call j).1 = .error e ∧
        e = .unexpected ⟨.endOfInput, before.position.line, before.position.char + 1⟩ .statement ∧
        e.message = "found EOF, expected USE, CREATE, SHOW, DROP at " ++
          Position.text ⟨before.position.line, before.position.char + 1⟩ := by
  have hstart : (ofText input).held = none := rfl
  have hheld := held_afterCalls hstart
  have hsound (i : Nat) := Journal.sound_statement (Journal.faithful_open (hheld i))
  refine ⟨statements_eq _, fun i => ⟨hheld i, (afterCalls_succ _ i).symm, ?_⟩,
    exists_read_calls hstart, fun i e he => ?_, fun i j s t hi hj => ?_, fun i j hij hi => ?_⟩
  · exact (hsound i).faithful.unheld
  · obtain ⟨found, expected, rfl⟩ := exists_unexpected (hheld i) he
    exact ⟨found, expected, rfl, ((hsound i).found found expected he).last_eq⟩
  · have hij := not_lt_of_ok hstart hi hj
    have hji := not_lt_of_ok hstart hj hi
    omega
  · obtain ⟨before, hend, herror⟩ := exists_endedBy_of_lt hstart hi hij
    exact ⟨before, _, hend.last_eq, hend.token_eq, herror, rfl, rfl⟩

/-- The word `EOF` is not the end of the input, which stands behind it. -/
example : (ofText "EOF").statements 3 =
    [.error (.unexpected ⟨.identifier "EOF", 1, 1⟩ .statement),
      .error (.unexpected ⟨.endOfInput, 1, 5⟩ .statement),
      .error (.unexpected ⟨.endOfInput, 1, 6⟩ .statement)] := by cbv

end Parser

end NamespaceControl.Command
