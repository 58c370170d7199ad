import Mathlib.Data.List.Basic
import NamespaceControl.Proofs.Command.Stage

/-!
# The texts that are no statements

A text that is no statement is refused for its first lexeme that no statement has there
(`IsFirstMisfit`), with what the grammar asks for at that place (`Awaits`). What can be read can
always be brought to an end: each stage has a completion that goes on where the tokens read so far
stop, so the tokens before the error begin a statement, and those up to it do not.
-/

namespace NamespaceControl.Command

/-! ## Beginnings of statements -/

/-- Some statement begins with the tokens: they come first in a text that is accepted. -/
def IsViable (ts : List Token) : Prop :=
  ∃ input s, Statement.parse input = .ok s ∧ ts <+: (Source.ofText input).tokens

/-- The lexeme is the first one that no statement has behind those before it. Tokens are compared
with their texts, and positions do not matter. -/
structure IsFirstMisfit (lexemes before : List Lexeme) (found : Lexeme) : Prop where
  /-- It stands among the lexemes, behind those before it. -/
  split : before ++ [found] <+: lexemes
  /-- Up to there a statement begins. -/
  fits : ∀ earlier, earlier <+: before → IsViable (earlier.map (·.token))
  /-- With it none does. -/
  misfits : ¬ IsViable ((before ++ [found]).map (·.token))

/-- What the grammar asks for behind tokens, as it is worded. -/
inductive Awaits : List Token → String → Prop where
  /-- Where a statement starts. -/
  | statement {gap : List Token} (blank : IsGap gap) : Awaits gap "USE, CREATE, SHOW, DROP"
  /-- Behind `CREATE` or `DROP`. -/
  | namespaceKw {k : Keyword} {ts gap : List Token} (hk : k = .createKw ∨ k = .dropKw)
      (blank : IsGap gap) : Awaits (ts ++ .keyword k :: gap) "NAMESPACE"
  /-- Behind `SHOW`. -/
  | namespacesKw {ts gap : List Token} (blank : IsGap gap) :
      Awaits (ts ++ .keyword .showKw :: gap) "NAMESPACES"
  /-- Where a path starts. -/
  | path {k : Keyword} {ts gap : List Token} (hk : k = .useKw ∨ k = .namespaceKw)
      (blank : IsGap gap) : Awaits (ts ++ .keyword k :: gap) "namespace"
  /-- Behind a dot, where blanks may not come. -/
  | identifier {ts : List Token} : Awaits (ts ++ [.dot]) "identifier"
  /-- Behind a complete statement. -/
  | endOfInput {ts : List Token} (complete : IsViable (ts ++ [.endOfInput])) : Awaits ts "EOF"

variable {e : Expectation} {s s' : Stage} {t : Token} {ts more rest gap : List Token}
  {text text' : List Char} {c : Char} {input wording : String}

/-! ## Completions -/

/-- The characters that a completion of a stage begins with, so that words are kept apart. -/
def Stage.Opens : Stage → Char → Prop
  | bare _, c => isWordChar c = true
  | _, c => Text.isBlank c = true

/-- A token that fits ends where a completion of the stage behind it begins. -/
theorem Stage.goesOn_of_after (h : s.after t = some s') (hc : s'.Opens c) :
    t.goesOn c = false := by
  rcases after_cases h with ⟨k, rfl, rfl⟩ | ⟨w, rfl, rfl⟩ | ⟨rfl, -⟩ | ⟨run, rfl, rfl, -⟩ | ⟨rfl, -⟩
  · exact isWordChar_eq_false_of_isBlank hc
  · exact isWordChar_eq_false_of_isBlank hc
  · rfl
  · exact isBlank_eq_false_of_isWordChar hc
  · rfl

namespace Stage

/-- Some text that can stand behind the tokens read so far brings a stage to an end. -/
def IsCompletable (s : Stage) : Prop :=
  ∃ text ts s', Cuts text ts ∧ s.afterAll ts = some s' ∧ ∀ c ∈ text.head?, s.Opens c

/-- A token leads on to a stage that can be brought to an end. -/
theorem IsCompletable.of_after (hspelled : t.IsSpelled)
    (hopens : ∀ c ∈ t.source.toList.head?, s.Opens c) (hafter : s.after t = some s')
    (h : s'.IsCompletable) : s.IsCompletable := by
  obtain ⟨text, ts, last, hcuts, hts, htext⟩ := h
  have hstops : ∀ c ∈ text.head?, t.goesOn c = false :=
    fun c hc => goesOn_of_after hafter (htext c hc)
  refine ⟨t.source.toList ++ text, t :: ts, last, .cons hspelled hstops hcuts, ?_, ?_⟩
  · exact afterAll_cons_eq_some_iff.mpr ⟨s', hafter, hts⟩
  · rwa [List.head?_append_of_ne_nil _ (Token.source_ne_nil hspelled)]

/-- What is asked for right here is asked for behind a blank too. -/
theorem IsCompletable.of_bare (h : (bare s.asks).IsCompletable) : s.IsCompletable := by
  have hspace : ∀ c ∈ " ".toList, Text.isBlank c = true := by
    intro c hc
    obtain rfl : c = ' ' := by simpa using hc
    decide
  have hspelled : (Token.blank " ").IsSpelled := ⟨by decide, hspace⟩
  have hopens : ∀ c ∈ " ".toList.head?, Text.isBlank c = true :=
    fun c hc => hspace c (List.mem_of_mem_head? hc)
  cases s with
  | bare e => exact h
  | asking e => exact .of_after hspelled hopens rfl h
  | pathEnd => exact .of_after hspelled hopens rfl h

/-- A word that is asked for leads on. -/
theorem IsCompletable.of_met {word : String} (hword : IsSegment word)
    (hmet : e.met (.ofWord word) = some s) (h : (bare s.asks).IsCompletable) :
    (bare e).IsCompletable := by
  refine .of_after (Token.isSpelled_ofWord hword) ?_ hmet (.of_bare h)
  intro c hc
  rw [Token.source_ofWord] at hc
  exact hword.2 c (List.mem_of_mem_head? hc)

/-- Whatever is asked for can come. -/
theorem isCompletable_bare (e : Expectation) : (bare e).IsCompletable := by
  have hword : IsSegment "a" := by decide
  have hend : (bare .endOfInput).IsCompletable := ⟨[], [.endOfInput], _, .nil, rfl, by simp⟩
  have hpath : (bare .path).IsCompletable := .of_met hword rfl hend
  have hkeyword : ∀ k : Keyword, (bare k.follow).IsCompletable →
      (bare (.keyword k)).IsCompletable := by
    intro k hfollow
    have hmet : (Expectation.keyword k).met (.ofWord k.text) = some (.asking k.follow) := by
      rw [Token.ofWord_text, Expectation.met, if_pos rfl]
    exact .of_met (Token.isSegment_text k) hmet hfollow
  have hnamespace : (bare (.keyword .namespaceKw)).IsCompletable := hkeyword _ hpath
  have hnamespaces : (bare (.keyword .namespacesKw)).IsCompletable := hkeyword _ hend
  cases e with
  | statement => exact .of_met (Token.isSegment_text .useKw) rfl hpath
  | keyword k =>
    cases k with
    | useKw | namespaceKw => exact hkeyword _ hpath
    | createKw | dropKw => exact hkeyword _ hnamespace
    | showKw => exact hkeyword _ hnamespaces
    | namespacesKw => exact hkeyword _ hend
  | path => exact hpath
  | identifier => exact .of_met hword rfl hend
  | endOfInput => exact hend

/-- Every stage can be brought to an end. -/
theorem isCompletable (s : Stage) : s.IsCompletable := .of_bare (isCompletable_bare s.asks)

end Stage

/-! ## Viable tokens -/

/-- Tokens of one text can go on with the cut of another, if the last of them ends where the other
text begins. -/
theorem Cuts.exists_append (h : Cuts text (ts ++ rest)) (hrest : rest ≠ [])
    (hmore : Cuts text' more) (hstops : ∀ t ∈ ts.getLast?, ∀ c ∈ text'.head?, t.goesOn c = false) :
    ∃ all, Cuts all (ts ++ more) ∧ (ts ≠ [] → all.head? = text.head?) := by
  induction ts generalizing text with
  | nil => exact ⟨text', hmore, fun hts => absurd rfl hts⟩
  | cons t ts ih =>
    have hend : t ≠ .endOfInput := by
      rintro rfl
      exact hrest (List.append_eq_nil_iff.mp h.eq_nil_of_endOfInput).2
    obtain ⟨hspelled, tail, rfl, htail, hcuts⟩ := (cuts_cons_iff hend).mp h
    have hne := Token.source_ne_nil hspelled
    -- the token is cut off whatever follows, as long as it would not go on with it
    have hcons : ∀ all, Cuts all (ts ++ more) → (∀ c ∈ all.head?, t.goesOn c = false) →
        ∃ all', Cuts all' (t :: ts ++ more) ∧
          (t :: ts ≠ [] → all'.head? = (t.source.toList ++ tail).head?) := by
      intro all hall hgoesOn
      refine ⟨t.source.toList ++ all, .cons hspelled hgoesOn hall, fun _ => ?_⟩
      rw [List.head?_append_of_ne_nil _ hne, List.head?_append_of_ne_nil _ hne]
    cases ts with
    | nil => exact hcons text' hmore (hstops t rfl)
    | cons t' ts =>
      rw [List.getLast?_cons_cons] at hstops
      obtain ⟨all, hall, hhead⟩ := ih hcuts hstops
      rw [← hhead (List.cons_ne_nil t' ts)] at htail
      exact hcons all hall htail

/-- A text is a statement if all its tokens fit. -/
theorem exists_parse_eq_ok_iff :
    (∃ statement, Statement.parse input = .ok statement) ↔
      ∃ s, (Stage.asking .statement).afterAll (Source.ofText input).tokens = some s := by
  rw [Source.tokens, ← Stage.refusal_eq_none_iff, Option.eq_none_iff_forall_ne_some]
  simp only [Ne, ← parse_eq_error_iff_refusal]
  cases Statement.parse input with
  | ok statement => simp
  | error e => simp

/-- Tokens begin a statement only if they all fit. -/
theorem IsViable.exists_afterAll (h : IsViable ts) :
    ∃ s, (Stage.asking .statement).afterAll ts = some s := by
  obtain ⟨input, statement, hparse, more, hmore⟩ := h
  obtain ⟨s, hs⟩ := exists_parse_eq_ok_iff.mp ⟨statement, hparse⟩
  rw [← hmore] at hs
  obtain ⟨s', hs', -⟩ := Stage.afterAll_append_eq_some_iff.mp hs
  exact ⟨s', hs'⟩

/-- What tokens begin with begins a statement if they do. -/
theorem IsViable.mono (h : IsViable more) (hts : ts <+: more) : IsViable ts := by
  obtain ⟨input, statement, hparse, hmore⟩ := h
  exact ⟨input, statement, hparse, hts.trans hmore⟩

/-- Tokens of a text that all fit begin a statement together with those of another text, if these
fit behind them and the other text begins as a completion does. -/
theorem isViable_append_of_afterAll (hcuts : Cuts text (ts ++ rest)) (hrest : rest ≠ [])
    (hts : (Stage.asking .statement).afterAll ts = some s) (hmore : Cuts text' more)
    (hs : s.afterAll more = some s') (hopens : ∀ c ∈ text'.head?, s.Opens c) :
    IsViable (ts ++ more) := by
  have hstops : ∀ t ∈ ts.getLast?, ∀ c ∈ text'.head?, t.goesOn c = false := by
    intro t ht c hc
    obtain ⟨front, rfl⟩ := List.getLast?_eq_some_iff.mp ht
    obtain ⟨s₁, -, hafter⟩ := Stage.afterAll_concat_eq_some_iff.mp hts
    exact Stage.goesOn_of_after hafter (hopens c hc)
  obtain ⟨all, hall, -⟩ := hcuts.exists_append hrest hmore hstops
  have htokens : (Source.ofText (String.ofList all)).tokens = ts ++ more :=
    Source.tokens_of_cuts (String.toList_ofList) hall
  have hfits : ∃ s, (Stage.asking .statement).afterAll
      (Source.ofText (String.ofList all)).tokens = some s := by
    rw [htokens]
    exact ⟨s', Stage.afterAll_append_eq_some_iff.mpr ⟨s, hts, hs⟩⟩
  obtain ⟨statement, hparse⟩ := exists_parse_eq_ok_iff.mpr hfits
  exact ⟨_, statement, hparse, htokens ▸ List.prefix_rfl⟩

/-- Tokens of a text that all fit begin a statement. -/
theorem isViable_of_afterAll (hcuts : Cuts text (ts ++ rest)) (hrest : rest ≠ [])
    (hts : (Stage.asking .statement).afterAll ts = some s) : IsViable ts := by
  obtain ⟨text', more, s', hmore, hs, hopens⟩ := s.isCompletable
  exact (isViable_append_of_afterAll hcuts hrest hts hmore hs hopens).mono
    (List.prefix_append ts more)

/-! ## What is asked for -/

namespace Stage

/-- Blanks leave what is asked for. -/
theorem asks_of_isGap (hgap : IsGap gap) (h : s.afterAll gap = some s') : s'.asks = s.asks := by
  cases hgap with
  | none =>
    obtain rfl : s = s' := Option.some.inj h
    rfl
  | blank run =>
    obtain ⟨_, hafter, hlast⟩ := afterAll_cons_eq_some_iff.mp h
    obtain rfl := Option.some.inj hlast
    obtain ⟨rfl, -⟩ : _ = bare s.asks ∧ s ≠ bare s.asks := by simpa using after_cases hafter
    rfl

/-- Behind a keyword and blanks the keyword decides what is asked for. -/
theorem asks_of_keyword {k : Keyword} (hgap : IsGap gap)
    (h : s.afterAll (ts ++ .keyword k :: gap) = some s') : s'.asks = k.follow := by
  obtain ⟨s₁, -, hmore⟩ := afterAll_append_eq_some_iff.mp h
  obtain ⟨s₂, hafter, hlast⟩ := afterAll_cons_eq_some_iff.mp hmore
  obtain rfl : s₂ = asking k.follow := by simpa using after_cases hafter
  exact asks_of_isGap hgap hlast

/-- Behind a dot an identifier is asked for. -/
theorem asks_of_dot (h : s.afterAll (ts ++ [.dot]) = some s') : s'.asks = .identifier := by
  obtain ⟨s₁, -, hafter⟩ := afterAll_concat_eq_some_iff.mp h
  obtain rfl : s' = bare .identifier := by simpa using after_cases hafter
  rfl

/-- The end of the input fits exactly where it is asked for. -/
theorem after_endOfInput_iff :
    (∃ s', s.after .endOfInput = some s') ↔ s.asks = .endOfInput := by
  constructor
  · rintro ⟨s', h⟩
    obtain ⟨hasks, -⟩ : s.asks = .endOfInput ∧ s' = bare .endOfInput := by
      simpa using after_cases h
    exact hasks
  · intro hasks
    cases s with
    | bare e | asking e =>
      obtain rfl : e = .endOfInput := hasks
      exact ⟨_, rfl⟩
    | pathEnd => exact ⟨_, rfl⟩

end Stage

/-- What the grammar asks for behind tokens is what the stage asks for that they lead to. -/
theorem Awaits.eq_asks (h : Awaits ts wording)
    (hts : (Stage.asking .statement).afterAll ts = some s) : wording = s.asks.text := by
  cases h with
  | statement hgap =>
    rw [Stage.asks_of_isGap hgap hts]
    rfl
  | namespaceKw hk hgap =>
    rw [Stage.asks_of_keyword hgap hts]
    rcases hk with rfl | rfl
    · rfl
    · rfl
  | namespacesKw hgap =>
    rw [Stage.asks_of_keyword hgap hts]
    rfl
  | path hk hgap =>
    rw [Stage.asks_of_keyword hgap hts]
    rcases hk with rfl | rfl
    · rfl
    · rfl
  | identifier =>
    rw [Stage.asks_of_dot hts]
    rfl
  | endOfInput hcomplete =>
    obtain ⟨s', hs'⟩ := hcomplete.exists_afterAll
    obtain ⟨s₁, hs₁, hend⟩ := Stage.afterAll_concat_eq_some_iff.mp hs'
    obtain rfl : s = s₁ := Option.some.inj (hts.symm.trans hs₁)
    rw [Stage.after_endOfInput_iff.mp ⟨s', hend⟩]
    rfl

/-- Behind a keyword and blanks the grammar asks for what the keyword decides. -/
theorem awaits_of_keyword {k : Keyword} (hgap : IsGap gap) (hfollow : k.follow ≠ .endOfInput) :
    Awaits (ts ++ .keyword k :: gap) k.follow.text := by
  cases k with
  | useKw => exact .path (Or.inl rfl) hgap
  | namespaceKw => exact .path (Or.inr rfl) hgap
  | createKw => exact .namespaceKw (Or.inl rfl) hgap
  | dropKw => exact .namespaceKw (Or.inr rfl) hgap
  | showKw => exact .namespacesKw hgap
  | namespacesKw => exact absurd rfl hfollow

/-- Behind tokens that lead to a stage the grammar asks for what the stage asks for, if with the
end of the input they are a statement where it is asked for. -/
theorem awaits_asks (hts : (Stage.asking .statement).afterAll ts = some s)
    (hend : s.asks = .endOfInput → IsViable (ts ++ [.endOfInput])) : Awaits ts s.asks.text := by
  by_cases hasks : s.asks = .endOfInput
  · rw [hasks]
    exact .endOfInput (hend hasks)
  rcases ts.eq_nil_or_concat with rfl | ⟨front, t, rfl⟩
  · obtain rfl : Stage.asking .statement = s := Option.some.inj hts
    exact .statement .none
  rw [List.concat_eq_append] at *
  obtain ⟨s₁, hfront, hafter⟩ := Stage.afterAll_concat_eq_some_iff.mp hts
  rcases Stage.after_cases hafter with ⟨k, rfl, rfl⟩ | ⟨w, -, rfl⟩ | ⟨-, -, rfl⟩ |
    ⟨run, rfl, rfl, hbare⟩ | ⟨rfl, rfl⟩
  · exact awaits_of_keyword .none hasks
  · exact absurd rfl hasks
  · exact absurd rfl hasks
  · -- what comes before the blanks decides, and that is no dot
    rcases front.eq_nil_or_concat with rfl | ⟨front, t, rfl⟩
    · obtain rfl : Stage.asking .statement = s₁ := Option.some.inj hfront
      exact .statement (.blank run)
    rw [List.concat_eq_append] at *
    obtain ⟨s₂, -, hbefore⟩ := Stage.afterAll_concat_eq_some_iff.mp hfront
    rcases Stage.after_cases hbefore with ⟨k, rfl, rfl⟩ | ⟨w, -, rfl⟩ | ⟨-, -, rfl⟩ |
      ⟨run, -, rfl, -⟩ | ⟨-, rfl⟩
    · rw [List.append_assoc]
      exact awaits_of_keyword (.blank run) hasks
    · exact absurd rfl hasks
    · exact absurd rfl hasks
    · exact absurd rfl hbare
    · exact absurd rfl hbare
  · exact .identifier

/-! ## The first misfit -/

/-- Every expectation. -/
def Expectation.all : List Expectation :=
  [statement, path, identifier, endOfInput] ++ Keyword.all.map keyword

/-- The wordings of two expectations differ. -/
theorem Expectation.text_injective : Function.Injective Expectation.text := by
  have hfind : ∀ e : Expectation, all.find? (·.text = e.text) = some e := by
    intro e
    cases e with
    | keyword k => cases k <;> rfl
    | statement | path | identifier | endOfInput => rfl
  intro e e' h
  have hsome : some e = some e' := by rw [← hfind e, h, hfind e']
  exact Option.some.inj hsome

/-- Lexemes have no two first misfits. -/
theorem IsFirstMisfit.unique {lexemes before before' : List Lexeme} {found found' : Lexeme}
    (h : IsFirstMisfit lexemes before found) (h' : IsFirstMisfit lexemes before' found') :
    before = before' ∧ found = found' := by
  -- of two the one that comes no later is not among the lexemes before the other
  have heq : ∀ {before before' : List Lexeme} {found found' : Lexeme},
      IsFirstMisfit lexemes before found → IsFirstMisfit lexemes before' found' →
        before ++ [found] <+: before' ++ [found'] → before ++ [found] = before' ++ [found'] := by
    intro before before' found found' h h' hle
    rcases List.prefix_concat_iff.mp hle with heq | hearlier
    · exact heq
    · exact absurd (h'.fits _ hearlier) h.misfits
  have hboth : before ++ [found] = before' ++ [found'] := by
    rcases List.prefix_or_prefix_of_prefix h.split h'.split with hle | hle
    · exact heq h h' hle
    · exact (heq h' h hle).symm
  obtain ⟨hbefore, hfound⟩ := List.append_inj' hboth rfl
  exact ⟨hbefore, List.singleton_inj.mp hfound⟩

/-- The lexeme for which a text is refused is its first misfit, and the error asks for what the
grammar asks for there. -/
theorem exists_isFirstMisfit {err : ParseError} (h : Statement.parse input = .error err) :
    ∃ before found expected, IsFirstMisfit (Source.ofText input).readAll.1 before found ∧
      (∀ wording, Awaits (before.map (·.token)) wording ↔ wording = expected.text) ∧
        err = .unexpected found expected := by
  obtain ⟨before, found, s, ⟨rest, hrest⟩, hbefore, hfound, rfl⟩ :=
    Stage.exists_of_refusal_eq_some (parse_eq_error_iff_refusal.mp h)
  have hcuts : Cuts input.toList
      (before.map (·.token) ++ found.token :: rest.map (·.token)) := by
    have htokens : Cuts input.toList (Source.ofText input).tokens :=
      (Source.ofText input).cuts_tokens
    rw [Source.tokens, ← hrest] at htokens
    simpa using htokens
  have hviable : IsViable (before.map (·.token)) :=
    isViable_of_afterAll hcuts (List.cons_ne_nil _ _) hbefore
  refine ⟨before, found, s.asks, ⟨⟨rest, hrest⟩, ?_, ?_⟩, ?_, rfl⟩
  · intro earlier hearlier
    exact hviable.mono (hearlier.map _)
  · intro hall
    obtain ⟨s', hs'⟩ := hall.exists_afterAll
    rw [List.map_append, List.map_singleton] at hs'
    obtain ⟨s₁, hs₁, hafter⟩ := Stage.afterAll_concat_eq_some_iff.mp hs'
    obtain rfl : s = s₁ := Option.some.inj (hbefore.symm.trans hs₁)
    rw [hfound] at hafter
    cases hafter
  · intro wording
    constructor
    · intro hawaits
      exact hawaits.eq_asks hbefore
    · rintro rfl
      refine awaits_asks hbefore fun hasks => ?_
      obtain ⟨s', hend⟩ := Stage.after_endOfInput_iff.mpr hasks
      exact isViable_append_of_afterAll hcuts (List.cons_ne_nil _ _) hbefore .nil
        (Stage.afterAll_cons_eq_some_iff.mpr ⟨s', hend, rfl⟩) (by simp)

/-- **Parsing refuses a text for its first misfit.** The error of a text that is no statement is
about the first lexeme with which the text begins no statement, shown with its literal and its
position, and about what the grammar asks for behind those before it. There are no other errors:
what is read as a path is always a name. -/
theorem parse_eq_error_iff (input : String) (err : ParseError) :
    Statement.parse input = .error err ↔ ∃ before found expected,
      IsFirstMisfit (Source.ofText input).readAll.1 before found ∧
        (∀ wording, Awaits (before.map (·.token)) wording ↔ wording = expected.text) ∧
          err = .unexpected found expected ∧
            err.message = "found " ++ found.token.literal ++ ", expected " ++ expected.text ++
              " at " ++ found.position.text := by
  constructor
  · intro h
    obtain ⟨before, found, expected, hmisfit, hawaits, rfl⟩ := exists_isFirstMisfit h
    exact ⟨before, found, expected, hmisfit, hawaits, rfl, rfl⟩
  · rintro ⟨before, found, expected, hmisfit, hawaits, rfl, -⟩
    cases hparse : Statement.parse input with
    | ok statement =>
      -- all beginnings of a statement are viable, and the misfit is in one of them
      have hviable : IsViable (Source.ofText input).tokens :=
        ⟨input, statement, hparse, List.prefix_rfl⟩
      exact absurd (hviable.mono (hmisfit.split.map _)) hmisfit.misfits
    | error err =>
      obtain ⟨before', found', expected', hmisfit', hawaits', rfl⟩ := exists_isFirstMisfit hparse
      obtain ⟨rfl, rfl⟩ := hmisfit.unique hmisfit'
      have hexpected : expected.text = expected'.text :=
        (hawaits' expected.text).mp ((hawaits expected.text).mpr rfl)
      rw [Expectation.text_injective hexpected]

end NamespaceControl.Command
