import NamespaceControl.Command.Parser
import NamespaceControl.Proofs.Command.Grammar
import NamespaceControl.Proofs.Name.Text

/-!
# How a parser reads the tokens before it

A parser has lexemes before it (`Parser.ahead`): the one that was put back, and those of its
source. Scanning takes the first of them, and putting it back makes it the first again, so each
step of parsing can be described by the tokens before it and after it. A step for a part of a
statement succeeds exactly if that part comes first, and a parser accepts a statement exactly if
the tokens before it are spaced parts of that statement (`Parser.statement_iff`).
-/

namespace NamespaceControl.Command

/-! ## Steps that succeed -/

namespace Parsed

variable {α β : Type} {step : Parsed α} {p : Parser}

/-- A step and what follows it succeed if both do. -/
theorem andThen_eq_ok_iff {go : α → Parser → Parsed β} {b : β} :
    step.andThen go = (.ok b, p) ↔ ∃ a q, step = (.ok a, q) ∧ go a q = (.ok b, p) := by
  obtain ⟨outcome, q⟩ := step
  cases outcome with
  | error e => simp [andThen]
  | ok a =>
    constructor
    · exact fun h => ⟨a, q, rfl, h⟩
    · rintro ⟨a', q', hstep, h⟩
      cases hstep
      exact h

/-- A step with another outcome succeeds if it does. -/
theorem map_eq_ok_iff {f : α → β} {b : β} :
    step.map f = (.ok b, p) ↔ ∃ a, step = (.ok a, p) ∧ f a = b := by
  obtain ⟨outcome, q⟩ := step
  cases outcome with
  | error e => simp [map, andThen]
  | ok a =>
    constructor
    · intro h
      cases h
      exact ⟨a, rfl, rfl⟩
    · rintro ⟨a', hstep, rfl⟩
      cases hstep
      rfl

end Parsed

/-- Whether segments make a name does not depend on how the reason is reported if they do not. -/
theorem mapError_ofSegments_eq_ok_iff {ε : Type} {f : NameError → ε} {segments : List String}
    {n : Name} : (Name.ofSegments segments).mapError f = .ok n ↔ n.segments = segments := by
  rw [← Name.ofSegments_eq_ok_iff]
  cases Name.ofSegments segments with
  | error reason => simp [Except.mapError]
  | ok n' => simp [Except.mapError]

namespace Parser

variable {p : Parser} {t : Token} {n : Name} {k : Keyword} {expected : Expectation}
  {ts rest : List Token} {segments : List String}

/-! ## The tokens before a parser -/

/-- The lexemes that a parser scans next, up to the first end of the input. -/
def ahead (p : Parser) : List Lexeme :=
  match p.held with
  | none => p.source.readAll.1
  | some lexeme =>
    if lexeme.token = .endOfInput then [lexeme] else lexeme :: p.source.readAll.1

/-- The tokens that a parser scans next, up to the first end of the input. -/
def tokens (p : Parser) : List Token := p.ahead.map (·.token)

/-- A scan takes the first lexeme. -/
theorem ahead_eq (p : Parser) :
    p.ahead = p.scan.1 :: if p.scan.1.token = .endOfInput then [] else p.scan.2.ahead := by
  obtain ⟨source, held⟩ := p
  cases held with
  | some lexeme =>
    by_cases h : lexeme.token = .endOfInput
    · simp [ahead, scan, h]
    · simp [ahead, scan, h]
  | none =>
    by_cases h : source.rest = []
    · have hend := Source.token_next_eq_endOfInput_iff.mpr h
      simp only [ahead, scan, hend, if_true]
      exact Source.readAll_of_nil h
    · have hend := mt Source.token_next_eq_endOfInput_iff.mp h
      simp only [ahead, scan, hend, if_false]
      exact Source.readAll_of_ne_nil h

/-- A scan takes the first token. -/
theorem tokens_eq (p : Parser) :
    p.tokens =
      p.scan.1.token :: if p.scan.1.token = .endOfInput then [] else p.scan.2.tokens := by
  rw [tokens, ahead_eq, List.map_cons]
  split
  · rfl
  · rfl

/-- A parser at the start of a text has its tokens before it. -/
theorem tokens_ofText (text : String) : (ofText text).tokens = (Source.ofText text).tokens := rfl

/-- Scanning again what was put back changes nothing. -/
theorem scan_unscan (p : Parser) : (p.scan.2.unscan p.scan.1).scan = p.scan := by
  show (p.scan.1, (⟨p.scan.2.source, none⟩ : Parser)) = p.scan
  rw [← p.held_scan]

/-- What was put back is before the parser again. -/
theorem tokens_unscan (p : Parser) : (p.scan.2.unscan p.scan.1).tokens = p.tokens := by
  rw [tokens_eq, scan_unscan, ← tokens_eq]

/-! ## Blanks -/

/-- A run of blanks is passed over. -/
theorem scanPastBlank_of_blank {run : String} (h : p.scan.1.token = .blank run) :
    p.scanPastBlank = p.scan.2.scan := by
  unfold scanPastBlank
  split
  · next hscan => rw [hscan]
  · next lexeme q hno hscan =>
    rw [hscan] at h
    exact (hno run lexeme.position (congrArg (Lexeme.mk · lexeme.position) h)).elim

/-- Nothing else is passed over. -/
theorem scanPastBlank_of_not_blank (h : ∀ run, p.scan.1.token ≠ .blank run) :
    p.scanPastBlank = p.scan := by
  unfold scanPastBlank
  split
  · next run position q hscan =>
    rw [hscan] at h
    exact absurd rfl (h run)
  · next hscan => rw [hscan]

/-- What is scanned past blanks stands behind a gap. -/
theorem exists_gap (p : Parser) :
    ∃ gap, IsGap gap ∧ p.tokens = gap ++ p.scanPastBlank.1.token ::
      if p.scanPastBlank.1.token = .endOfInput then [] else p.scanPastBlank.2.tokens := by
  by_cases h : ∃ run, p.scan.1.token = .blank run
  · obtain ⟨run, hrun⟩ := h
    refine ⟨[.blank run], .blank run, ?_⟩
    rw [scanPastBlank_of_blank hrun, tokens_eq, hrun, if_neg (by simp), tokens_eq]
    rfl
  · refine ⟨[], .none, ?_⟩
    rw [scanPastBlank_of_not_blank fun run hrun => h ⟨run, hrun⟩]
    exact tokens_eq p

/-- What stands behind a gap is scanned past blanks. -/
theorem scanPastBlank_of_gap {gap : List Token} (hgap : IsGap gap) (ht : ∀ run, t ≠ .blank run)
    (h : p.tokens = gap ++ t :: rest) :
    p.scanPastBlank.1.token = t ∧
      rest = if t = .endOfInput then [] else p.scanPastBlank.2.tokens := by
  cases hgap with
  | none =>
    rw [tokens_eq, List.nil_append, List.cons.injEq] at h
    obtain ⟨rfl, hrest⟩ := h
    rw [scanPastBlank_of_not_blank ht]
    exact ⟨rfl, hrest.symm⟩
  | blank run =>
    rw [tokens_eq, List.singleton_append, List.cons.injEq] at h
    obtain ⟨hrun, hrest⟩ := h
    rw [hrun, if_neg (by simp), tokens_eq, List.cons.injEq] at hrest
    obtain ⟨rfl, hrest⟩ := hrest
    rw [scanPastBlank_of_blank hrun]
    exact ⟨rfl, hrest.symm⟩

/-! ## Parts -/

/-- A token other than blanks and the end of the input is met exactly if it comes first. -/
theorem expect_iff (ht : ∀ run, t ≠ .blank run) (hend : t ≠ .endOfInput) :
    (∃ q, p.expect t expected = (.ok (), q) ∧ q.tokens = rest) ↔
      ∃ gap, IsGap gap ∧ p.tokens = gap ++ t :: rest := by
  constructor
  · rintro ⟨q, hok, rfl⟩
    unfold expect at hok
    dsimp only at hok
    split at hok
    · next htoken =>
      obtain ⟨-, rfl⟩ := Prod.mk.inj hok
      obtain ⟨gap, hgap, htokens⟩ := p.exists_gap
      rw [htoken, if_neg hend] at htokens
      exact ⟨gap, hgap, htokens⟩
    · cases (Prod.mk.inj hok).1
  · rintro ⟨gap, hgap, h⟩
    obtain ⟨htoken, hrest⟩ := scanPastBlank_of_gap hgap ht h
    rw [if_neg hend] at hrest
    refine ⟨p.scanPastBlank.2, ?_, hrest.symm⟩
    simp only [expect, if_pos htoken]

/-- A keyword is met exactly if it comes first. -/
theorem expectKeyword_iff :
    (∃ q, p.expectKeyword k = (.ok (), q) ∧ q.tokens = rest) ↔
      BeginsWith (.keyword k) p.tokens rest :=
  expect_iff (by simp) (by simp)

/-- Behind a dot a path goes on with an identifier. -/
theorem segmentTokens_dot_iff :
    (.dot :: t :: ts = segmentTokens segments ++ rest ∧ rest.head? ≠ some .dot) ↔
      ∃ s more, t = .identifier s ∧ segments = s :: more ∧
        ts = segmentTokens more ++ rest ∧ rest.head? ≠ some .dot := by
  constructor
  · rintro ⟨h, hhead⟩
    cases segments with
    | nil => exact absurd (congrArg List.head? h.symm) hhead
    | cons s more =>
      obtain ⟨ht, hts⟩ := List.cons.inj (List.cons.inj h).2
      exact ⟨s, more, ht, rfl, hts, hhead⟩
  · rintro ⟨s, more, rfl, rfl, rfl, hhead⟩
    exact ⟨rfl, hhead⟩

/-- Without a dot a path goes no further. -/
theorem segmentTokens_not_dot_iff (h : ts.head? ≠ some .dot) :
    (ts = segmentTokens segments ++ rest ∧ rest.head? ≠ some .dot) ↔
      segments = [] ∧ ts = rest := by
  constructor
  · rintro ⟨rfl, -⟩
    cases segments with
    | nil => exact ⟨rfl, rfl⟩
    | cons s more => exact absurd rfl h
  · rintro ⟨rfl, rfl⟩
    exact ⟨rfl, h⟩

/-- Further segments are read as long as a dot comes, and then no dot is left. -/
theorem moreSegments_iff :
    (∃ q, p.moreSegments = (.ok segments, q) ∧ q.tokens = rest) ↔
      p.tokens = segmentTokens segments ++ rest ∧ rest.head? ≠ some .dot := by
  fun_induction Parser.moreSegments p generalizing segments with
  | case1 p hdot segment position q hscan ih =>
    have htokens : p.tokens = .dot :: .identifier segment :: p.scan.2.scan.2.tokens := by
      rw [tokens_eq, hdot, if_neg (by simp), tokens_eq p.scan.2, hscan, if_neg (by simp)]
    rw [htokens, segmentTokens_dot_iff]
    constructor
    · rintro ⟨q, hok, hq⟩
      obtain ⟨more, hmore, rfl⟩ := Parsed.map_eq_ok_iff.mp hok
      exact ⟨segment, more, rfl, rfl, ih.mp ⟨q, hmore, hq⟩⟩
    · rintro ⟨s, more, hs, rfl, hrest⟩
      obtain rfl := Token.identifier.inj hs
      obtain ⟨q, hmore, hq⟩ := ih.mpr hrest
      exact ⟨q, Parsed.map_eq_ok_iff.mpr ⟨more, hmore, rfl⟩, hq⟩
  | case2 p hdot lexeme q hno hscan =>
    obtain ⟨ts, htokens⟩ : ∃ ts, p.tokens = .dot :: lexeme.token :: ts := by
      rw [tokens_eq, hdot, if_neg (by simp), tokens_eq p.scan.2, hscan]
      exact ⟨_, rfl⟩
    rw [htokens, segmentTokens_dot_iff]
    constructor
    · rintro ⟨q', hok, -⟩
      cases hok
    · rintro ⟨s, more, hs, -⟩
      exact (hno s lexeme.position (congrArg (Lexeme.mk · lexeme.position) hs)).elim
  | case3 p hdot =>
    have hhead : p.tokens.head? ≠ some .dot := by
      rw [tokens_eq]
      exact fun h => hdot (Option.some.inj h)
    rw [segmentTokens_not_dot_iff hhead]
    constructor
    · rintro ⟨q, hok, rfl⟩
      cases hok
      exact ⟨rfl, (tokens_unscan p).symm⟩
    · rintro ⟨rfl, htokens⟩
      exact ⟨_, rfl, (tokens_unscan p).trans htokens⟩

/-- A path is read if an identifier comes, and then its further segments. -/
theorem path_eq_ok_iff {q : Parser} :
    p.path = (.ok n, q) ↔ ∃ s more, p.scanPastBlank.1.token = .identifier s ∧
      p.scanPastBlank.2.moreSegments = (.ok more, q) ∧ n.segments = s :: more := by
  unfold path
  split
  · next s position r hscan =>
    rw [Parsed.andThen_eq_ok_iff, hscan]
    constructor
    · rintro ⟨more, r', hmore, hok⟩
      obtain ⟨hname, rfl⟩ := Prod.mk.inj hok
      exact ⟨s, more, rfl, hmore, mapError_ofSegments_eq_ok_iff.mp hname⟩
    · rintro ⟨s', more, hs, hmore, hname⟩
      obtain rfl := Token.identifier.inj hs
      exact ⟨more, q, hmore, Prod.ext (mapError_ofSegments_eq_ok_iff.mpr hname) rfl⟩
  · next lexeme r hno hscan =>
    rw [hscan]
    constructor
    · intro hok
      cases hok
    · rintro ⟨s, more, hs, -⟩
      exact (hno s lexeme.position (congrArg (Lexeme.mk · lexeme.position) hs)).elim

/-- A path is read exactly if it comes first and goes no further. -/
theorem path_iff :
    (∃ q, p.path = (.ok n, q) ∧ q.tokens = rest) ↔
      BeginsWith (.path n) p.tokens rest ∧ rest.head? ≠ some .dot := by
  constructor
  · rintro ⟨q, hok, hq⟩
    obtain ⟨s, more, hs, hmore, hn⟩ := path_eq_ok_iff.mp hok
    obtain ⟨htokens, hhead⟩ := moreSegments_iff.mp ⟨q, hmore, hq⟩
    obtain ⟨gap, hgap, hbefore⟩ := p.exists_gap
    rw [hs, if_neg (by simp), htokens] at hbefore
    refine ⟨⟨gap, hgap, ?_⟩, hhead⟩
    rw [hbefore, Part.tokens, hn]
    rfl
  · rintro ⟨⟨gap, hgap, htokens⟩, hhead⟩
    obtain ⟨s, more, hn⟩ := List.exists_cons_of_ne_nil n.segments_ne_nil
    rw [Part.tokens, hn] at htokens
    obtain ⟨hs, hrest⟩ := scanPastBlank_of_gap hgap (by simp) htokens
    rw [if_neg (by simp)] at hrest
    obtain ⟨q, hmore, hq⟩ := moreSegments_iff.mpr ⟨hrest.symm, hhead⟩
    exact ⟨q, path_eq_ok_iff.mpr ⟨s, more, hs, hmore, hn⟩, hq⟩

/-! ## Statements -/

/-- What is left when nothing but blanks comes before the end of the input. -/
theorem spaced_nil_iff : Spaced [] ts ↔ ∃ gap, IsGap gap ∧ ts = gap ++ [.endOfInput] := by
  constructor
  · intro h
    cases h with
    | @nil gap hgap => exact ⟨gap, hgap, rfl⟩
  · rintro ⟨gap, hgap, rfl⟩
    exact .nil hgap

/-- A part comes first, and then the others. -/
theorem spaced_cons_iff {part : Part} {parts : List Part} :
    Spaced (part :: parts) ts ↔ ∃ rest, BeginsWith part ts rest ∧ Spaced parts rest := by
  constructor
  · intro h
    cases h with
    | @cons _ _ _ rest first more => exact ⟨rest, first, more⟩
  · rintro ⟨rest, hfirst, hmore⟩
    exact .cons hfirst hmore

/-- No dot stands where nothing but blanks comes before the end of the input. -/
theorem head?_ne_dot_of_spaced (h : Spaced [] ts) : ts.head? ≠ some .dot := by
  obtain ⟨gap, hgap, rfl⟩ := spaced_nil_iff.mp h
  cases hgap with
  | none => simp
  | blank run => simp

/-- The end of the input is met exactly if nothing but blanks comes before it. -/
theorem expectEnd_iff : (∃ q, p.expectEnd = (.ok (), q)) ↔ Spaced [] p.tokens := by
  rw [spaced_nil_iff]
  constructor
  · rintro ⟨q, hok⟩
    unfold expectEnd expect at hok
    dsimp only at hok
    split at hok
    · next htoken =>
      obtain ⟨gap, hgap, htokens⟩ := p.exists_gap
      rw [htoken, if_pos rfl] at htokens
      exact ⟨gap, hgap, htokens⟩
    · cases (Prod.mk.inj hok).1
  · rintro ⟨gap, hgap, h⟩
    obtain ⟨htoken, -⟩ := scanPastBlank_of_gap hgap (by simp) h
    refine ⟨p.scanPastBlank.2, ?_⟩
    simp only [expectEnd, expect, if_pos htoken]

/-- A keyword and then the other parts. -/
theorem expectKeyword_spaced_iff {parts : List Part} :
    (∃ q, p.expectKeyword k = (.ok (), q) ∧ Spaced parts q.tokens) ↔
      Spaced (.keyword k :: parts) p.tokens := by
  rw [spaced_cons_iff]
  constructor
  · rintro ⟨q, hok, hq⟩
    exact ⟨q.tokens, expectKeyword_iff.mp ⟨q, hok, rfl⟩, hq⟩
  · rintro ⟨rest, hfirst, hrest⟩
    obtain ⟨q, hok, rfl⟩ := expectKeyword_iff.mpr hfirst
    exact ⟨q, hok, hrest⟩

/-- A path at the end. -/
theorem path_spaced_iff :
    (∃ q, p.path = (.ok n, q) ∧ Spaced [] q.tokens) ↔ Spaced [.path n] p.tokens := by
  rw [spaced_cons_iff]
  constructor
  · rintro ⟨q, hok, hq⟩
    exact ⟨q.tokens, (path_iff.mp ⟨q, hok, rfl⟩).1, hq⟩
  · rintro ⟨rest, hfirst, hrest⟩
    obtain ⟨q, hok, rfl⟩ := path_iff.mpr ⟨hfirst, head?_ne_dot_of_spaced hrest⟩
    exact ⟨q, hok, hrest⟩

/-- A statement that ends in a path. -/
theorem map_path_spaced_iff {f : Name → Statement} {s : Statement} :
    (∃ q, p.path.map f = (.ok s, q) ∧ Spaced [] q.tokens) ↔
      ∃ n, f n = s ∧ Spaced [.path n] p.tokens := by
  constructor
  · rintro ⟨q, hok, hq⟩
    obtain ⟨n, hpath, hn⟩ := Parsed.map_eq_ok_iff.mp hok
    exact ⟨n, hn, path_spaced_iff.mp ⟨q, hpath, hq⟩⟩
  · rintro ⟨n, hn, hspaced⟩
    obtain ⟨q, hpath, hq⟩ := path_spaced_iff.mpr hspaced
    exact ⟨q, Parsed.map_eq_ok_iff.mpr ⟨n, hpath, hn⟩, hq⟩

/-- A statement that ends in `NAMESPACE` and a path. -/
theorem namespace_path_spaced_iff {f : Name → Statement} {s : Statement} :
    (∃ q, ((p.expectKeyword .namespaceKw).andThen fun _ r => r.path.map f) = (.ok s, q) ∧
        Spaced [] q.tokens) ↔
      ∃ n, f n = s ∧ Spaced [.keyword .namespaceKw, .path n] p.tokens := by
  constructor
  · rintro ⟨q, hok, hq⟩
    obtain ⟨_, r, hkeyword, hpath⟩ := Parsed.andThen_eq_ok_iff.mp hok
    obtain ⟨n, hn, hr⟩ := map_path_spaced_iff.mp ⟨q, hpath, hq⟩
    exact ⟨n, hn, expectKeyword_spaced_iff.mp ⟨r, hkeyword, hr⟩⟩
  · rintro ⟨n, hn, hspaced⟩
    obtain ⟨r, hkeyword, hr⟩ := expectKeyword_spaced_iff.mpr hspaced
    obtain ⟨q, hpath, hq⟩ := map_path_spaced_iff.mpr ⟨n, hn, hr⟩
    exact ⟨q, Parsed.andThen_eq_ok_iff.mpr ⟨(), r, hkeyword, hpath⟩, hq⟩

/-- What follows the first word is read exactly if that word and what follows it are the parts of
the statement. -/
theorem body_iff {first : Lexeme} {s : Statement} :
    (∃ q, body first p = (.ok s, q) ∧ Spaced [] q.tokens) ↔
      ∃ k parts, first.token = .keyword k ∧ s.parts = .keyword k :: parts ∧
        Spaced parts p.tokens := by
  unfold body
  constructor
  · rintro ⟨q, hok, hq⟩
    split at hok
    · next hfirst =>
      obtain ⟨n, rfl, h⟩ := map_path_spaced_iff.mp ⟨q, hok, hq⟩
      exact ⟨_, _, hfirst, rfl, h⟩
    · next hfirst =>
      obtain ⟨n, rfl, h⟩ := namespace_path_spaced_iff.mp ⟨q, hok, hq⟩
      exact ⟨_, _, hfirst, rfl, h⟩
    · next hfirst =>
      obtain ⟨n, rfl, h⟩ := namespace_path_spaced_iff.mp ⟨q, hok, hq⟩
      exact ⟨_, _, hfirst, rfl, h⟩
    · next hfirst =>
      obtain ⟨_, hkeyword, rfl⟩ := Parsed.map_eq_ok_iff.mp hok
      exact ⟨_, _, hfirst, rfl, expectKeyword_spaced_iff.mp ⟨q, hkeyword, hq⟩⟩
    · cases hok
  · rintro ⟨k, parts, hfirst, hparts, hspaced⟩
    cases s with
    | useNamespace n =>
      cases hparts
      simp only [hfirst]
      exact map_path_spaced_iff.mpr ⟨n, rfl, hspaced⟩
    | createNamespace n =>
      cases hparts
      simp only [hfirst]
      exact namespace_path_spaced_iff.mpr ⟨n, rfl, hspaced⟩
    | dropNamespace n =>
      cases hparts
      simp only [hfirst]
      exact namespace_path_spaced_iff.mpr ⟨n, rfl, hspaced⟩
    | showNamespaces =>
      cases hparts
      simp only [hfirst]
      obtain ⟨q, hkeyword, hq⟩ := expectKeyword_spaced_iff.mpr hspaced
      exact ⟨q, Parsed.map_eq_ok_iff.mpr ⟨(), hkeyword, rfl⟩, hq⟩

/-- Every statement begins with a keyword. -/
theorem exists_parts_eq_cons (s : Statement) : ∃ k parts, s.parts = .keyword k :: parts := by
  cases s with
  | useNamespace n => exact ⟨_, _, rfl⟩
  | createNamespace n => exact ⟨_, _, rfl⟩
  | dropNamespace n => exact ⟨_, _, rfl⟩
  | showNamespaces => exact ⟨_, _, rfl⟩

/-- A parser reads a statement exactly if the tokens before it are the spaced parts of it. -/
theorem statement_iff {s : Statement} :
    (∃ q, p.statement = (.ok s, q)) ↔ Spaced s.parts p.tokens := by
  have heq : p.statement = (body p.scanPastBlank.1 p.scanPastBlank.2).andThen fun s r =>
      r.expectEnd.map fun _ => s := rfl
  rw [heq]
  constructor
  · rintro ⟨q, hok⟩
    obtain ⟨s', r, hbody, hrest⟩ := Parsed.andThen_eq_ok_iff.mp hok
    obtain ⟨_, hend, rfl⟩ := Parsed.map_eq_ok_iff.mp hrest
    obtain ⟨k, parts, hfirst, hparts, hspaced⟩ :=
      body_iff.mp ⟨r, hbody, expectEnd_iff.mp ⟨q, hend⟩⟩
    obtain ⟨gap, hgap, htokens⟩ := p.exists_gap
    rw [hfirst, if_neg (by simp)] at htokens
    rw [hparts, spaced_cons_iff]
    exact ⟨p.scanPastBlank.2.tokens, ⟨gap, hgap, htokens⟩, hspaced⟩
  · intro h
    obtain ⟨k, parts, hparts⟩ := exists_parts_eq_cons s
    rw [hparts, spaced_cons_iff] at h
    obtain ⟨rest, ⟨gap, hgap, htokens⟩, hspaced⟩ := h
    have htokens : p.tokens = gap ++ .keyword k :: rest := htokens
    obtain ⟨hfirst, hrest⟩ := scanPastBlank_of_gap hgap (by simp) htokens
    rw [if_neg (by simp)] at hrest
    rw [hrest] at hspaced
    obtain ⟨r, hbody, hr⟩ := body_iff.mpr ⟨k, parts, hfirst, hparts, hspaced⟩
    obtain ⟨q, hend⟩ := expectEnd_iff.mpr hr
    refine ⟨q, Parsed.andThen_eq_ok_iff.mpr ⟨s, r, hbody, ?_⟩⟩
    exact Parsed.map_eq_ok_iff.mpr ⟨(), hend, rfl⟩

end Parser

end NamespaceControl.Command
