import NamespaceControl.Proofs.Command.Stage

/-!
# The moves of a parser

A parser touches its tokens in two ways: it scans one, or it puts one back. A journal is a parser
with a record of these moves; the parts of a statement are parsed with it as they are without it
(`Journal.erase_statement`), so it tells what a parser does. A journal stays faithful to the source
on which it was opened (`Journal.Faithful`): what was taken, less what was put back, is what the
source gives, from its beginning and without a gap, and nothing is put back while something is
held. A statement that fails has taken last the lexeme that its error reports
(`Journal.sound_statement`).
-/

namespace NamespaceControl.Command

/-! ## Moves -/

/-- What a parser does with a token. -/
inductive Move where
  /-- It takes a lexeme. -/
  | scan (lexeme : Lexeme)
  /-- It puts a lexeme back, when it holds another or none. -/
  | unscan (lexeme : Lexeme) (held : Option Lexeme)

/-- What is taken after one more move. -/
def Move.after (taken : List Lexeme) : Move → List Lexeme
  | scan lexeme => taken ++ [lexeme]
  | unscan _ _ => taken.dropLast

/-- What is taken and not put back. -/
def taken (moves : List Move) : List Lexeme := moves.foldl Move.after []

/-- What is scanned is taken. -/
@[simp] theorem taken_scan (moves : List Move) (lexeme : Lexeme) :
    taken (moves ++ [.scan lexeme]) = taken moves ++ [lexeme] := List.foldl_append

/-- What is put back is what was taken last. -/
@[simp] theorem taken_unscan (moves : List Move) (lexeme : Lexeme) (held : Option Lexeme) :
    taken (moves ++ [.unscan lexeme held]) = (taken moves).dropLast := List.foldl_append

/-! ## Journals -/

/-- A parser with its moves so far. -/
structure Journal where
  /-- The parser. -/
  parser : Parser
  /-- What it did, the first move first. -/
  moves : List Move

/-- The outcome of a step of parsing, and the journal after it. -/
abbrev Recorded (α : Type) := Except ParseError α × Journal

namespace Recorded

variable {α β : Type}

/-- Go on after a step that succeeded. -/
def andThen (step : Recorded α) (go : α → Journal → Recorded β) : Recorded β :=
  match step with
  | (.ok a, j) => go a j
  | (.error e, j) => (.error e, j)

/-- Change the outcome of a step that succeeded. -/
def map (f : α → β) (step : Recorded α) : Recorded β := step.andThen fun a j => (.ok (f a), j)

/-- The step without its moves. -/
def erase (step : Recorded α) : Parsed α := (step.1, step.2.parser)

/-- Without its moves a step is followed by what follows it without its moves. -/
theorem erase_andThen {step : Recorded α} {go : α → Journal → Recorded β}
    {go' : α → Parser → Parsed β} (h : ∀ a j, (go a j).erase = go' a j.parser) :
    (step.andThen go).erase = step.erase.andThen go' := by
  obtain ⟨outcome, j⟩ := step
  cases outcome with
  | ok a => exact h a j
  | error e => rfl

/-- If a step and what follows it succeed, then both do. -/
theorem exists_of_andThen_eq_ok {step : Recorded α} {go : α → Journal → Recorded β} {b : β}
    {l : Journal} (h : step.andThen go = (.ok b, l)) :
    ∃ a j, step = (.ok a, j) ∧ go a j = (.ok b, l) := by
  obtain ⟨outcome, j⟩ := step
  cases outcome with
  | ok a => exact ⟨a, j, rfl, h⟩
  | error e => cases h

/-- A step with another outcome has it without its moves too. -/
theorem erase_map (f : α → β) (step : Recorded α) : (step.map f).erase = step.erase.map f :=
  erase_andThen fun _ _ => rfl

end Recorded

namespace Journal

/-- Scan, and record it. -/
def scan (j : Journal) : Lexeme × Journal :=
  (j.parser.scan.1, ⟨j.parser.scan.2, j.moves ++ [.scan j.parser.scan.1]⟩)

/-- Put a lexeme back, and record it with what is held. -/
def unscan (j : Journal) (lexeme : Lexeme) : Journal :=
  ⟨j.parser.unscan lexeme, j.moves ++ [.unscan lexeme j.parser.held]⟩

/-- The next lexeme after a run of blanks, if one stands here. -/
def scanPastBlank (j : Journal) : Lexeme × Journal :=
  match j.scan with
  | (⟨.blank _, _⟩, k) => k.scan
  | (lexeme, k) => (lexeme, k)

/-- The segments of a path after its first. -/
def moreSegments (j : Journal) : Recorded (List String) :=
  if _h : j.scan.1.token = .dot then
    match j.scan.2.scan with
    | (⟨.identifier segment, _⟩, _) => j.scan.2.scan.2.moreSegments.map (segment :: ·)
    | (lexeme, k) => (.error (.unexpected lexeme .identifier), k)
  else (.ok [], j.scan.2.unscan j.scan.1)
termination_by j.parser.size
decreasing_by
  have hdot : j.parser.scan.2.size < j.parser.size := Parser.size_scan_lt (by
    show j.scan.1.token ≠ _
    simp [_h])
  exact Nat.lt_of_le_of_lt (Parser.size_scan_le j.parser.scan.2) hdot

/-- A path, after the blanks before it. -/
def path (j : Journal) : Recorded Name :=
  match j.scanPastBlank with
  | (⟨.identifier segment, _⟩, k) =>
    k.moreSegments.andThen fun segments l =>
      ((Name.ofSegments (segment :: segments)).mapError .invalidName, l)
  | (lexeme, k) => (.error (.unexpected lexeme .path), k)

/-- A certain token, after the blanks before it. -/
def expect (j : Journal) (token : Token) (expected : Expectation) : Recorded Unit :=
  let (lexeme, k) := j.scanPastBlank
  if lexeme.token = token then (.ok (), k) else (.error (.unexpected lexeme expected), k)

/-- What follows the first word of a statement. -/
def body (first : Lexeme) (j : Journal) : Recorded Statement :=
  match first.token with
  | .keyword .useKw => j.path.map .useNamespace
  | .keyword .createKw =>
    (j.expect (.keyword .namespaceKw) (.keyword .namespaceKw)).andThen fun _ k =>
      k.path.map .createNamespace
  | .keyword .dropKw =>
    (j.expect (.keyword .namespaceKw) (.keyword .namespaceKw)).andThen fun _ k =>
      k.path.map .dropNamespace
  | .keyword .showKw =>
    (j.expect (.keyword .namespacesKw) (.keyword .namespacesKw)).map fun _ => .showNamespaces
  | _ => (.error (.unexpected first .statement), j)

/-- A statement with nothing after it. -/
def statement (j : Journal) : Recorded Statement :=
  let (first, k) := j.scanPastBlank
  (body first k).andThen fun s l => (l.expect .endOfInput .endOfInput).map fun _ => s

/-! ## Journals and parsers -/

variable {j : Journal} {lexeme : Lexeme}

/-- A parser scans past blanks what a journal of it does. -/
theorem erase_scanPastBlank (j : Journal) :
    (j.scanPastBlank.1, j.scanPastBlank.2.parser) = j.parser.scanPastBlank := by
  have hscan : j.parser.scan = (j.scan.1, j.scan.2.parser) := rfl
  unfold scanPastBlank Parser.scanPastBlank
  rw [hscan]
  obtain ⟨⟨t, position⟩, k⟩ := j.scan
  cases t with
  | blank run => rfl
  | keyword _ | identifier _ | dot | endOfInput | illegal _ => rfl

/-- A parser reads further segments as a journal of it does. -/
theorem erase_moreSegments (j : Journal) : j.moreSegments.erase = j.parser.moreSegments := by
  fun_induction Journal.moreSegments j with
  | case1 j hdot segment position k hscan ih =>
    have hdot' : j.parser.scan.1.token = .dot := hdot
    have hscan' : j.parser.scan.2.scan = (j.scan.2.scan.1, j.scan.2.scan.2.parser) := rfl
    rw [Recorded.erase_map, ih, Parser.moreSegments.eq_def j.parser, dif_pos hdot', hscan', hscan]
  | case2 j hdot lexeme k hno hscan =>
    have hdot' : j.parser.scan.1.token = .dot := hdot
    have hscan' : j.parser.scan.2.scan = (j.scan.2.scan.1, j.scan.2.scan.2.parser) := rfl
    rw [Parser.moreSegments, dif_pos hdot', hscan', hscan]
    dsimp only
    split
    · next h => exact (hno _ _ (Prod.mk.inj h).1).elim
    · next h =>
      obtain ⟨rfl, rfl⟩ := Prod.mk.inj h
      rfl
  | case3 j hdot =>
    have hdot' : ¬ j.parser.scan.1.token = .dot := hdot
    rw [Parser.moreSegments, dif_neg hdot']
    rfl

/-- A parser reads a path as a journal of it does. -/
theorem erase_path (j : Journal) : j.path.erase = j.parser.path := by
  unfold path Parser.path
  rw [← erase_scanPastBlank]
  obtain ⟨⟨t, position⟩, k⟩ := j.scanPastBlank
  cases t with
  | identifier segment =>
    dsimp only
    rw [← erase_moreSegments]
    exact Recorded.erase_andThen fun segments l => rfl
  | keyword _ | dot | blank _ | endOfInput | illegal _ => rfl

/-- A parser meets a token as a journal of it does. -/
theorem erase_expect (j : Journal) (t : Token) (expected : Expectation) :
    (j.expect t expected).erase = j.parser.expect t expected := by
  unfold expect Parser.expect
  rw [← erase_scanPastBlank]
  dsimp only
  split
  · rfl
  · rfl

/-- A parser goes on behind the first word as a journal of it does. -/
theorem erase_body (first : Lexeme) (j : Journal) :
    (body first j).erase = Parser.body first j.parser := by
  have hpath (f : Name → Statement) (k : Journal) : (k.path.map f).erase = k.parser.path.map f := by
    rw [Recorded.erase_map, erase_path]
  have hbelow (f : Name → Statement) :
      ((j.expect (.keyword .namespaceKw) (.keyword .namespaceKw)).andThen
          fun _ k => k.path.map f).erase =
        (j.parser.expectKeyword .namespaceKw).andThen fun _ q => q.path.map f := by
    rw [Parser.expectKeyword, ← erase_expect]
    exact Recorded.erase_andThen fun _ k => hpath f k
  obtain ⟨t, position⟩ := first
  cases t with
  | keyword k =>
    cases k with
    | useKw => exact hpath _ j
    | createKw => exact hbelow _
    | dropKw => exact hbelow _
    | showKw =>
      show ((j.expect _ _).map _).erase = _
      rw [Recorded.erase_map, erase_expect]
      rfl
    | namespaceKw | namespacesKw => rfl
  | identifier _ | dot | blank _ | endOfInput | illegal _ => rfl

/-- **A journal tells what its parser does**: the outcome and the parser are those that there are
without it. -/
theorem erase_statement (j : Journal) : j.statement.erase = j.parser.statement := by
  unfold statement Parser.statement
  rw [← erase_scanPastBlank]
  dsimp only
  rw [← erase_body]
  refine Recorded.erase_andThen fun s k => ?_
  rw [Recorded.erase_map, erase_expect]
  rfl

/-! ## Faithful journals -/

variable {s : Source}

/-- A journal that was opened on a source is faithful: what was taken, with what is held, is what
the source gives, the parser is behind it, and nothing was put back while something was held. -/
structure Faithful (s : Source) (j : Journal) : Prop where
  /-- The lexemes of the source are taken in their order, and what is held is the next one. -/
  exists_read : ∃ count, taken j.moves ++ j.parser.held.toList = s.read count ∧
    j.parser.source = s.skip count
  /-- Nothing was put back while something was held. -/
  unheld : ∀ lexeme held, .unscan lexeme held ∈ j.moves → held = none

/-- Nothing is held, and this is the lexeme that was taken last. -/
structure TookLast (j : Journal) (lexeme : Lexeme) : Prop where
  /-- Nothing is held. -/
  held_eq : j.parser.held = none
  /-- The lexeme was taken last. -/
  last_eq : (taken j.moves).getLast? = some lexeme

/-- A new journal is faithful if nothing is held. -/
theorem faithful_open {p : Parser} (h : p.held = none) : (⟨p, []⟩ : Journal).Faithful p.source where
  exists_read := by
    refine ⟨0, ?_, rfl⟩
    simp [h, taken, Source.read]
  unheld := by
    intro lexeme held hmem
    cases hmem

/-- The lexeme that a scan finds was taken last. -/
theorem tookLast_scan (j : Journal) : j.scan.2.TookLast j.scan.1 where
  held_eq := j.parser.held_scan
  last_eq := by simp [scan]

/-- A scan keeps a journal faithful. -/
theorem Faithful.scan (h : j.Faithful s) : j.scan.2.Faithful s where
  exists_read := by
    obtain ⟨count, hread, hsource⟩ := h.exists_read
    obtain ⟨⟨source, held⟩, moves⟩ := j
    cases held with
    | some lexeme =>
      -- what was held is taken now, and the source gives nothing new
      refine ⟨count, ?_, hsource⟩
      simpa [Journal.scan, Parser.scan] using hread
    | none =>
      obtain rfl : source = s.skip count := hsource
      refine ⟨count + 1, ?_, ?_⟩
      · rw [Source.read_add, ← hread]
        simp [Journal.scan, Parser.scan, Source.read]
      · rw [Source.skip_add]
        rfl
  unheld := by
    intro lexeme held hmem
    apply h.unheld lexeme held
    simpa [Journal.scan] using hmem

/-- Putting back what was taken last keeps a journal faithful. -/
theorem Faithful.unscan (h : j.Faithful s) (hlast : j.TookLast lexeme) :
    (j.unscan lexeme).Faithful s where
  exists_read := by
    obtain ⟨count, hread, hsource⟩ := h.exists_read
    obtain ⟨front, hfront⟩ := List.getLast?_eq_some_iff.mp hlast.last_eq
    refine ⟨count, ?_, hsource⟩
    show taken (j.moves ++ [.unscan lexeme j.parser.held]) ++ [lexeme] = s.read count
    rw [taken_unscan, hfront, List.dropLast_concat, ← hread, hlast.held_eq, hfront]
    exact (List.append_nil _).symm
  unheld := by
    intro lexeme' held hmem
    rcases List.mem_append.mp hmem with hmem | hmem
    · exact h.unheld lexeme' held hmem
    · obtain ⟨-, rfl⟩ := Move.unscan.inj (List.mem_singleton.mp hmem)
      exact hlast.held_eq

/-- What is scanned past blanks was taken last. -/
theorem tookLast_scanPastBlank (j : Journal) : j.scanPastBlank.2.TookLast j.scanPastBlank.1 := by
  unfold scanPastBlank
  split
  · exact tookLast_scan _
  · next hscan =>
    have hlast := j.tookLast_scan
    rwa [hscan] at hlast

/-- Scanning past blanks keeps a journal faithful. -/
theorem Faithful.scanPastBlank (h : j.Faithful s) : j.scanPastBlank.2.Faithful s := by
  have hscan := h.scan
  unfold Journal.scanPastBlank
  split
  · next hblank =>
    rw [hblank] at hscan
    exact hscan.scan
  · next hother =>
    rw [hother] at hscan
    exact hscan

end Journal

/-! ## Sound steps -/

/-- A step is sound if it leaves a faithful journal and, if a lexeme does not fit, takes that one
last. -/
structure Recorded.Sound {α : Type} (s : Source) (step : Recorded α) : Prop where
  /-- The journal is faithful. -/
  faithful : step.2.Faithful s
  /-- What is reported was taken last. -/
  found : ∀ lexeme expected, step.1 = .error (.unexpected lexeme expected) → step.2.TookLast lexeme

namespace Recorded

variable {α β : Type} {s : Source} {step : Recorded α}

/-- A step that succeeds is sound if its journal is faithful. -/
theorem sound_ok {a : α} {j : Journal} (h : j.Faithful s) : Sound s (.ok a, j) where
  faithful := h
  found := by
    intro lexeme expected herror
    cases herror

/-- A step that reports the lexeme that was taken last is sound. -/
theorem sound_unexpected {lexeme : Lexeme} {expected : Expectation} {j : Journal}
    (h : j.Faithful s) (hlast : j.TookLast lexeme) :
    Sound (α := α) s (.error (.unexpected lexeme expected), j) where
  faithful := h
  found := by
    rintro lexeme' expected' herror
    obtain ⟨rfl, -⟩ := ParseError.unexpected.inj (Except.error.inj herror)
    exact hlast

/-- A sound step is followed by sound steps. -/
theorem Sound.andThen {go : α → Journal → Recorded β} (h : step.Sound s)
    (hgo : ∀ a j, j.Faithful s → (go a j).Sound s) : (step.andThen go).Sound s := by
  obtain ⟨outcome, j⟩ := step
  cases outcome with
  | ok a => exact hgo a j h.faithful
  | error e =>
    refine ⟨h.faithful, fun lexeme expected herror => ?_⟩
    obtain rfl := Except.error.inj herror
    exact h.found lexeme expected rfl

/-- A sound step with another outcome is sound. -/
theorem Sound.map (f : α → β) (h : step.Sound s) : (step.map f).Sound s :=
  h.andThen fun _ _ hj => sound_ok hj

end Recorded

namespace Journal

variable {s : Source} {j : Journal}

/-- Reading further segments is sound. -/
theorem sound_moreSegments (h : j.Faithful s) : j.moreSegments.Sound s := by
  fun_induction Journal.moreSegments j with
  | case1 j hdot segment position k hscan ih => exact (ih h.scan.scan).map _
  | case2 j hdot lexeme k hno hscan =>
    have hfaithful := h.scan.scan
    have hlast := j.scan.2.tookLast_scan
    rw [hscan] at hfaithful hlast
    exact Recorded.sound_unexpected hfaithful hlast
  | case3 j hdot => exact Recorded.sound_ok (h.scan.unscan j.tookLast_scan)

/-- Reading a path is sound. -/
theorem sound_path (h : j.Faithful s) : j.path.Sound s := by
  have hfaithful := h.scanPastBlank
  have hlast := j.tookLast_scanPastBlank
  unfold path
  split
  · next segment position k hscan =>
    rw [hscan] at hfaithful
    refine (sound_moreSegments hfaithful).andThen fun segments l hl => ⟨hl, ?_⟩
    -- what is wrong with a name is nothing about a lexeme
    intro lexeme expected herror
    cases hname : Name.ofSegments (segment :: segments) with
    | ok n =>
      rw [hname] at herror
      cases herror
    | error reason =>
      rw [hname] at herror
      cases herror
  · next lexeme k hno hscan =>
    rw [hscan] at hfaithful hlast
    exact Recorded.sound_unexpected hfaithful hlast

/-- Meeting a token is sound. -/
theorem sound_expect (h : j.Faithful s) (t : Token) (expected : Expectation) :
    (j.expect t expected).Sound s := by
  unfold expect
  dsimp only
  split
  · exact Recorded.sound_ok h.scanPastBlank
  · exact Recorded.sound_unexpected h.scanPastBlank j.tookLast_scanPastBlank

/-- Going on behind the first word is sound if that word was taken last. -/
theorem sound_body {first : Lexeme} (h : j.Faithful s) (hfirst : j.TookLast first) :
    (body first j).Sound s := by
  unfold body
  split
  · exact (sound_path h).map _
  · exact (sound_expect h _ _).andThen fun _ k hk => (sound_path hk).map _
  · exact (sound_expect h _ _).andThen fun _ k hk => (sound_path hk).map _
  · exact (sound_expect h _ _).map _
  · exact Recorded.sound_unexpected h hfirst

/-- **Reading a statement is sound.** -/
theorem sound_statement (h : j.Faithful s) : j.statement.Sound s := by
  unfold statement
  refine (sound_body h.scanPastBlank j.tookLast_scanPastBlank).andThen fun _ k hk => ?_
  exact (sound_expect hk _ _).map _

/-- A token that is met was taken last. -/
theorem tookLast_of_expect {t : Token} {expected : Expectation} {k : Journal}
    (h : j.expect t expected = (.ok (), k)) : ∃ lexeme, k.TookLast lexeme ∧ lexeme.token = t := by
  unfold expect at h
  dsimp only at h
  split at h
  · next htoken =>
    obtain ⟨-, rfl⟩ := Prod.mk.inj h
    exact ⟨_, j.tookLast_scanPastBlank, htoken⟩
  · cases h

/-- Behind a statement the end of the input was taken last. -/
theorem tookLast_of_statement {st : Statement} {k : Journal} (h : j.statement = (.ok st, k)) :
    ∃ lexeme, k.TookLast lexeme ∧ lexeme.token = .endOfInput := by
  unfold statement at h
  obtain ⟨st', l, -, hend⟩ := Recorded.exists_of_andThen_eq_ok h
  obtain ⟨_, l', hexpect, hk⟩ := Recorded.exists_of_andThen_eq_ok hend
  obtain ⟨-, rfl⟩ := Prod.mk.inj hk
  exact tookLast_of_expect hexpect

end Journal

end NamespaceControl.Command
