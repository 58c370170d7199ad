import NamespaceControl.Proofs.Command.Reading

/-!
# The stages of a statement

How far a statement is read is a stage (`Stage`): what the grammar asks for there, and whether
blanks or a dot may come instead. A token leads on to the next stage or does not fit
(`Stage.after`), and lexemes are refused for the first that does not fit (`Stage.refusal`). Parsing
is no more than that: a parser fails with the refusal of the lexemes before it, and with no refusal
it succeeds (`Parser.errorOr_statement`). In particular the segments of a path always make a name.
-/

namespace NamespaceControl.Command

/-! ## Stages -/

/-- How far a statement is read. -/
inductive Stage where
  /-- Something is asked for right here. -/
  | bare (e : Expectation)
  /-- Something is asked for, and blanks may come first. -/
  | asking (e : Expectation)
  /-- A segment of a path was read: the end is asked for, and blanks or a dot may come first. -/
  | pathEnd
  deriving DecidableEq, Repr

/-- What the grammar asks for at a stage. -/
def Stage.asks : Stage → Expectation
  | bare e | asking e => e
  | pathEnd => .endOfInput

/-- What the grammar asks for behind a keyword. -/
def Keyword.follow : Keyword → Expectation
  | useKw | namespaceKw => .path
  | createKw | dropKw => .keyword .namespaceKw
  | showKw => .keyword .namespacesKw
  | namespacesKw => .endOfInput

/-- The stage behind a token that is asked for. -/
def Expectation.met : Expectation → Token → Option Stage
  | statement, .keyword .useKw => some (.asking Keyword.useKw.follow)
  | statement, .keyword .createKw => some (.asking Keyword.createKw.follow)
  | statement, .keyword .dropKw => some (.asking Keyword.dropKw.follow)
  | statement, .keyword .showKw => some (.asking Keyword.showKw.follow)
  | keyword k, .keyword k' => if k' = k then some (.asking k.follow) else none
  | path, .identifier _ => some .pathEnd
  | identifier, .identifier _ => some .pathEnd
  | endOfInput, .endOfInput => some (.bare endOfInput)
  | _, _ => none

/-- What is asked for is a keyword, an identifier or the end, and that decides what comes next. -/
theorem Expectation.met_cases {e : Expectation} {t : Token} {s : Stage} (h : e.met t = some s) :
    (∃ k, t = .keyword k ∧ s = .asking k.follow) ∨ (∃ w, t = .identifier w ∧ s = .pathEnd) ∨
      t = .endOfInput ∧ e = .endOfInput ∧ s = .bare .endOfInput := by
  cases t with
  | keyword k =>
    refine Or.inl ⟨k, rfl, ?_⟩
    cases e with
    | statement =>
      cases k with
      | useKw | createKw | dropKw | showKw => exact (Option.some.inj h).symm
      | namespaceKw | namespacesKw => cases h
    | keyword k' =>
      simp only [met, Option.ite_none_right_eq_some, Option.some.injEq] at h
      rw [h.1, h.2]
    | path | identifier | endOfInput => cases h
  | identifier w =>
    refine Or.inr (Or.inl ⟨w, rfl, ?_⟩)
    cases e with
    | path | identifier => exact (Option.some.inj h).symm
    | statement | keyword _ | endOfInput => cases h
  | endOfInput =>
    refine Or.inr (Or.inr ⟨rfl, ?_⟩)
    cases e with
    | endOfInput => exact ⟨rfl, (Option.some.inj h).symm⟩
    | statement | keyword _ | path | identifier => cases h
  | dot | blank _ | illegal _ => cases e <;> cases h

/-- Only an identifier is met where a segment of a path is asked for. -/
theorem Expectation.met_eq_none {e : Expectation} {lexeme : Lexeme}
    (he : e = .path ∨ e = .identifier)
    (hno : ∀ w position, lexeme = ⟨.identifier w, position⟩ → False) :
    e.met lexeme.token = none := by
  obtain ⟨t, position⟩ := lexeme
  cases t with
  | identifier w => exact (hno w position rfl).elim
  | keyword _ | dot | blank _ | endOfInput | illegal _ => rcases he with rfl | rfl <;> rfl

namespace Stage

variable {s s' : Stage} {e : Expectation} {t : Token} {ts more : List Token} {lexeme : Lexeme}
  {lexemes rest : List Lexeme}

/-- The stage behind a token that fits. -/
def after : Stage → Token → Option Stage
  | asking e, .blank _ => some (bare e)
  | pathEnd, .blank _ => some (bare .endOfInput)
  | pathEnd, .dot => some (bare .identifier)
  | s, t => s.asks.met t

/-- The stage behind tokens that all fit. -/
def afterAll (s : Stage) (ts : List Token) : Option Stage := ts.foldlM after s

/-- The error about the first lexeme that does not fit. -/
def refusal (s : Stage) : List Lexeme → Option ParseError
  | [] => none
  | lexeme :: rest =>
    match s.after lexeme.token with
    | some s' => s'.refusal rest
    | none => some (.unexpected lexeme s.asks)

/-- Where neither blanks nor a dot may come, only what is asked for fits. -/
@[simp] theorem after_bare (e : Expectation) (t : Token) : (bare e).after t = e.met t := rfl

/-- Where blanks may come, what is no run of blanks fits if it is asked for. -/
theorem after_asking (ht : ∀ run, t ≠ .blank run) : (asking e).after t = e.met t := by
  cases t with
  | blank run => exact absurd rfl (ht run)
  | keyword _ | identifier _ | dot | endOfInput | illegal _ => rfl

/-- Behind a segment a path that does not go on is over. -/
theorem after_pathEnd (ht : t ≠ .dot) : pathEnd.after t = (asking .endOfInput).after t := by
  cases t with
  | dot => exact absurd rfl ht
  | keyword _ | identifier _ | blank _ | endOfInput | illegal _ => rfl

/-- A token that fits is one that is asked for, a run of blanks or a dot. -/
theorem after_cases (h : s.after t = some s') :
    (∃ k, t = .keyword k ∧ s' = asking k.follow) ∨ (∃ w, t = .identifier w ∧ s' = pathEnd) ∨
      (t = .endOfInput ∧ s.asks = .endOfInput ∧ s' = bare .endOfInput) ∨
        (∃ run, t = .blank run ∧ s' = bare s.asks ∧ s ≠ bare s.asks) ∨
          t = .dot ∧ s' = bare .identifier := by
  by_cases hmet : s.asks.met t = some s'
  · rcases Expectation.met_cases hmet with h | h | h
    · exact Or.inl h
    · exact Or.inr (Or.inl h)
    · exact Or.inr (Or.inr (Or.inl h))
  cases s with
  | bare e => exact absurd h hmet
  | asking e =>
    cases t with
    | blank run =>
      exact Or.inr (Or.inr (Or.inr (Or.inl ⟨run, rfl, (Option.some.inj h).symm, by simp⟩)))
    | keyword _ | identifier _ | dot | endOfInput | illegal _ => exact absurd h hmet
  | pathEnd =>
    cases t with
    | blank run =>
      exact Or.inr (Or.inr (Or.inr (Or.inl ⟨run, rfl, (Option.some.inj h).symm, by simp⟩)))
    | dot => exact Or.inr (Or.inr (Or.inr (Or.inr ⟨rfl, (Option.some.inj h).symm⟩)))
    | keyword _ | identifier _ | endOfInput | illegal _ => exact absurd h hmet

/-- One token fits, and then the others. -/
theorem afterAll_cons_eq_some_iff :
    s.afterAll (t :: ts) = some s' ↔ ∃ s₁, s.after t = some s₁ ∧ s₁.afterAll ts = some s' := by
  simp only [afterAll, List.foldlM_cons]
  exact Option.bind_eq_some_iff

/-- Some tokens fit, and then the others. -/
theorem afterAll_append_eq_some_iff :
    s.afterAll (ts ++ more) = some s' ↔
      ∃ s₁, s.afterAll ts = some s₁ ∧ s₁.afterAll more = some s' := by
  simp only [afterAll, List.foldlM_append]
  exact Option.bind_eq_some_iff

/-- Some tokens fit, and then one more. -/
theorem afterAll_concat_eq_some_iff :
    s.afterAll (ts ++ [t]) = some s' ↔ ∃ s₁, s.afterAll ts = some s₁ ∧ s₁.after t = some s' := by
  simp only [afterAll, List.foldlM_append, List.foldlM_cons, List.foldlM_nil, bind_pure]
  exact Option.bind_eq_some_iff

/-! ## Refusals -/

/-- A lexeme that fits is read. -/
theorem refusal_cons_of_some (h : s.after lexeme.token = some s') :
    s.refusal (lexeme :: rest) = s'.refusal rest := by
  rw [refusal, h]

/-- A lexeme that does not fit is what the lexemes are refused for. -/
theorem refusal_cons_of_none (h : s.after lexeme.token = none) :
    s.refusal (lexeme :: rest) = some (.unexpected lexeme s.asks) := by
  rw [refusal, h]

/-- Behind lexemes that fit the others are read. -/
theorem refusal_append_of_afterAll {before : List Lexeme}
    (h : s.afterAll (before.map (·.token)) = some s') :
    s.refusal (before ++ rest) = s'.refusal rest := by
  induction before generalizing s with
  | nil => rw [Option.some.inj h, List.nil_append]
  | cons lexeme before ih =>
    obtain ⟨s₁, hafter, hbefore⟩ := afterAll_cons_eq_some_iff.mp h
    rw [List.cons_append, refusal_cons_of_some hafter, ih hbefore]

/-- Lexemes that all fit are not refused, and no others. -/
theorem refusal_eq_none_iff :
    s.refusal lexemes = none ↔ ∃ s', s.afterAll (lexemes.map (·.token)) = some s' := by
  induction lexemes generalizing s with
  | nil => exact ⟨fun _ => ⟨s, rfl⟩, fun _ => rfl⟩
  | cons lexeme rest ih =>
    simp only [List.map_cons, afterAll_cons_eq_some_iff]
    cases h : s.after lexeme.token with
    | none => simp [refusal_cons_of_none h]
    | some s₁ => simp [refusal_cons_of_some h, ih]

/-- Lexemes are refused for the first one that does not fit. -/
theorem exists_of_refusal_eq_some {err : ParseError} (h : s.refusal lexemes = some err) :
    ∃ before found s', before ++ [found] <+: lexemes ∧
      s.afterAll (before.map (·.token)) = some s' ∧ s'.after found.token = none ∧
        err = .unexpected found s'.asks := by
  induction lexemes generalizing s with
  | nil => cases h
  | cons lexeme rest ih =>
    cases hafter : s.after lexeme.token with
    | none =>
      rw [refusal_cons_of_none hafter] at h
      refine ⟨[], lexeme, s, ?_, rfl, hafter, (Option.some.inj h).symm⟩
      exact ⟨rest, rfl⟩
    | some s₁ =>
      rw [refusal_cons_of_some hafter] at h
      obtain ⟨before, found, s', hsplit, hbefore, hfound, herr⟩ := ih h
      refine ⟨lexeme :: before, found, s', ?_, ?_, hfound, herr⟩
      · exact (List.prefix_cons_inj lexeme).mpr hsplit
      · exact afterAll_cons_eq_some_iff.mpr ⟨s₁, hafter, hbefore⟩

end Stage

/-! ## Steps that fail -/

namespace Parsed

variable {α β : Type} {step : Parsed α} {f g : Parser → Option ParseError}

/-- The error of a step, or what comes of the parser behind it. -/
def errorOr (step : Parsed α) (f : Parser → Option ParseError) : Option ParseError :=
  match step with
  | (.ok _, q) => f q
  | (.error e, _) => some e

/-- Of two steps the error of the first comes first. -/
theorem errorOr_andThen {go : α → Parser → Parsed β}
    (h : ∀ a q, step = (.ok a, q) → (go a q).errorOr g = f q) :
    (step.andThen go).errorOr g = step.errorOr f := by
  obtain ⟨outcome, q⟩ := step
  cases outcome with
  | ok a => exact h a q rfl
  | error e => rfl

/-- A step with another outcome has the same error. -/
@[simp] theorem errorOr_map (h : α → β) : (step.map h).errorOr f = step.errorOr f := by
  obtain ⟨outcome, q⟩ := step
  cases outcome with
  | ok a => rfl
  | error e => rfl

/-- A step has an error exactly if it fails with it. -/
theorem errorOr_eq_some_iff {e : ParseError} :
    step.errorOr (fun _ => none) = some e ↔ step.1 = .error e := by
  obtain ⟨outcome, q⟩ := step
  cases outcome with
  | ok a => simp [errorOr]
  | error e' => simp [errorOr]

end Parsed

namespace Parser

variable {p : Parser} {t : Token} {e : Expectation} {next : Stage}

/-- What the lexemes before a parser are refused for at a stage. -/
def refusal (p : Parser) (s : Stage) : Option ParseError := s.refusal p.ahead

/-- Blanks are read before what is asked for. -/
theorem refusal_asking (p : Parser) (e : Expectation) :
    p.refusal (.asking e) = (Stage.bare e).refusal (p.scanPastBlank.1 ::
      if p.scanPastBlank.1.token = .endOfInput then [] else p.scanPastBlank.2.ahead) := by
  rw [refusal, ahead_eq]
  by_cases h : ∃ run, p.scan.1.token = .blank run
  · obtain ⟨run, hrun⟩ := h
    have hafter : (Stage.asking e).after p.scan.1.token = some (.bare e) := by
      rw [hrun]
      rfl
    rw [Stage.refusal_cons_of_some hafter, if_neg (by simp [hrun]), scanPastBlank_of_blank hrun,
      ← ahead_eq]
  · have hblank : ∀ run, p.scan.1.token ≠ .blank run := fun run hrun => h ⟨run, hrun⟩
    rw [scanPastBlank_of_not_blank hblank, Stage.refusal, Stage.refusal, Stage.after_asking hblank,
      Stage.after_bare]
    rfl

/-- A token is asked for and nothing else. -/
theorem errorOr_expect (hmet : ∀ t', e.met t' = if t' = t then some next else none)
    (hend : t ≠ .endOfInput) :
    (p.expect t e).errorOr (·.refusal next) = p.refusal (.asking e) := by
  rw [refusal_asking, Stage.refusal, Stage.after_bare, hmet]
  by_cases h : p.scanPastBlank.1.token = t
  · simp only [expect, if_pos h, if_neg (h ▸ hend)]
    rfl
  · simp only [expect, if_neg h]
    rfl

/-- A keyword is asked for. -/
theorem errorOr_expectKeyword (p : Parser) (k : Keyword) :
    (p.expectKeyword k).errorOr (·.refusal (.asking k.follow)) =
      p.refusal (.asking (.keyword k)) := by
  apply errorOr_expect _ (by simp)
  intro t
  cases t with
  | keyword k' => simp [Expectation.met]
  | identifier _ | dot | blank _ | endOfInput | illegal _ => simp [Expectation.met]

/-- The end of the input is asked for. -/
theorem errorOr_expectEnd (p : Parser) :
    p.expectEnd.errorOr (fun _ => none) = p.refusal (.asking .endOfInput) := by
  rw [refusal_asking, Stage.refusal, Stage.after_bare]
  by_cases h : p.scanPastBlank.1.token = .endOfInput
  · simp only [expectEnd, expect, h]
    rfl
  · have hmet : Expectation.endOfInput.met p.scanPastBlank.1.token = none := by
      cases ht : p.scanPastBlank.1.token with
      | endOfInput => exact absurd ht h
      | keyword _ | identifier _ | dot | blank _ | illegal _ => rfl
    simp only [expectEnd, expect, if_neg h, hmet]
    rfl

/-- A path goes on with an identifier behind each dot. -/
theorem errorOr_moreSegments (p : Parser) :
    p.moreSegments.errorOr (·.refusal (.asking .endOfInput)) = p.refusal .pathEnd := by
  fun_induction Parser.moreSegments p with
  | case1 p hdot segment position q hscan ih =>
    rw [Parsed.errorOr_map, ih, refusal, refusal, ahead_eq p, hdot, if_neg (by simp),
      ahead_eq p.scan.2, hscan, if_neg (by simp), Stage.refusal_cons_of_some (by rw [hdot]; rfl),
      Stage.refusal_cons_of_some rfl]
  | case2 p hdot lexeme q hno hscan =>
    have hmet := Expectation.met_eq_none (Or.inr rfl) hno
    rw [refusal, ahead_eq p, hdot, if_neg (by simp), ahead_eq p.scan.2, hscan,
      Stage.refusal_cons_of_some (by rw [hdot]; rfl),
      Stage.refusal_cons_of_none ((Stage.after_bare _ _).trans hmet)]
    rfl
  | case3 p hdot =>
    have hahead : (p.scan.2.unscan p.scan.1).ahead = p.ahead := by
      rw [ahead_eq, scan_unscan, ← ahead_eq]
    show (p.scan.2.unscan p.scan.1).refusal (.asking .endOfInput) = _
    rw [refusal, refusal, hahead, ahead_eq p, Stage.refusal, Stage.refusal,
      Stage.after_pathEnd hdot]
    rfl

/-- The identifiers before a parser are segments. -/
def HasSegments (p : Parser) : Prop := ∀ w, .identifier w ∈ p.tokens → IsSegment w

/-- Behind a part there is nothing that was not behind its front. -/
theorem HasSegments.of_beginsWith {part : Part} {q : Parser} (hp : p.HasSegments)
    (h : BeginsWith part p.tokens q.tokens) : q.HasSegments := by
  obtain ⟨gap, -, htokens⟩ := h
  intro w hw
  apply hp w
  rw [htokens]
  exact List.mem_append_right _ (List.mem_append_right _ hw)

/-- The segments behind the first one are identifiers that were before the parser. -/
theorem isSegment_of_moreSegments {segments : List String} {q : Parser} (hp : p.HasSegments)
    (h : p.moreSegments = (.ok segments, q)) : ∀ w ∈ segments, IsSegment w := by
  intro w hw
  apply hp w
  rw [(moreSegments_iff.mp ⟨q, h, rfl⟩).1, segmentTokens]
  exact List.mem_append_left _ (List.mem_flatMap.mpr ⟨w, hw, by simp⟩)

/-- A path is asked for. What is read as one makes a name. -/
theorem errorOr_path (hp : p.HasSegments) :
    p.path.errorOr (·.refusal (.asking .endOfInput)) = p.refusal (.asking .path) := by
  rw [refusal_asking]
  unfold path
  split
  · next segment position q hscan =>
    obtain ⟨gap, -, htokens⟩ := p.exists_gap
    rw [hscan, if_neg (by simp)] at htokens
    have hsegment : IsSegment segment := hp segment (by simp [htokens])
    have hq : q.HasSegments := fun w hw => hp w (by simp [htokens, hw])
    have hfits : (Stage.bare .path).after (Lexeme.mk (.identifier segment) position).token =
        some .pathEnd := rfl
    rw [hscan, if_neg (by simp), Stage.refusal_cons_of_some hfits]
    refine (Parsed.errorOr_andThen ?_).trans (errorOr_moreSegments q)
    intro segments r hmore
    have hall : ∀ w ∈ segment :: segments, IsSegment w :=
      List.forall_mem_cons.mpr ⟨hsegment, isSegment_of_moreSegments hq hmore⟩
    have hname : (Name.ofSegments (segment :: segments)).mapError ParseError.invalidName =
        .ok ⟨segment :: segments, List.cons_ne_nil _ _, hall⟩ :=
      mapError_ofSegments_eq_ok_iff.mpr rfl
    rw [hname]
    rfl
  · next lexeme q hno hscan =>
    have hmet := Expectation.met_eq_none (Or.inl rfl) hno
    rw [hscan, Stage.refusal_cons_of_none ((Stage.after_bare _ _).trans hmet)]
    rfl

/-- `NAMESPACE` is asked for, and then a path. -/
theorem errorOr_namespace_path {f : Name → Statement} (hp : p.HasSegments) :
    ((p.expectKeyword .namespaceKw).andThen fun _ q => q.path.map f).errorOr
        (·.refusal (.asking .endOfInput)) =
      p.refusal (.asking (.keyword .namespaceKw)) := by
  refine (Parsed.errorOr_andThen ?_).trans (errorOr_expectKeyword p .namespaceKw)
  intro _ q hok
  rw [Parsed.errorOr_map]
  exact errorOr_path (hp.of_beginsWith (expectKeyword_iff.mp ⟨q, hok, rfl⟩))

/-- What follows the first word depends on that word. -/
theorem errorOr_body {first : Lexeme} (hp : p.HasSegments) :
    (body first p).errorOr (·.refusal (.asking .endOfInput)) =
      (Stage.bare .statement).refusal (first :: p.ahead) := by
  unfold body
  split
  · next hfirst =>
    rw [Parsed.errorOr_map, errorOr_path hp, Stage.refusal, hfirst]
    rfl
  · next hfirst =>
    rw [errorOr_namespace_path hp, Stage.refusal, hfirst]
    rfl
  · next hfirst =>
    rw [errorOr_namespace_path hp, Stage.refusal, hfirst]
    rfl
  · next hfirst =>
    rw [Parsed.errorOr_map, Stage.refusal, hfirst]
    exact errorOr_expectKeyword p .namespacesKw
  · next huse hcreate hdrop hshow =>
    have hmet : Expectation.statement.met first.token = none := by
      cases ht : first.token with
      | keyword k =>
        cases k with
        | useKw => exact absurd ht huse
        | createKw => exact absurd ht hcreate
        | dropKw => exact absurd ht hdrop
        | showKw => exact absurd ht hshow
        | namespaceKw | namespacesKw => rfl
      | identifier _ | dot | blank _ | endOfInput | illegal _ => rfl
    rw [Stage.refusal_cons_of_none ((Stage.after_bare _ _).trans hmet)]
    rfl

/-- **Parsing fails with the first lexeme that does not fit**, and without one it succeeds. -/
theorem errorOr_statement (hp : p.HasSegments) :
    p.statement.errorOr (fun _ => none) = p.refusal (.asking .statement) := by
  obtain ⟨gap, -, htokens⟩ := p.exists_gap
  rw [refusal_asking]
  by_cases hend : p.scanPastBlank.1.token = .endOfInput
  · have hmet : (Stage.bare .statement).after p.scanPastBlank.1.token = none := by
      rw [hend]
      rfl
    rw [Stage.refusal_cons_of_none hmet]
    simp only [statement, body, hend]
    rfl
  · rw [if_neg hend] at htokens ⊢
    have hq : p.scanPastBlank.2.HasSegments := fun w hw => hp w (by simp [htokens, hw])
    refine (Parsed.errorOr_andThen ?_).trans (errorOr_body hq)
    intro s r _
    rw [Parsed.errorOr_map]
    exact errorOr_expectEnd r

/-- The identifiers of a source are segments. -/
theorem hasSegments_of_held_eq_none (h : p.held = none) : p.HasSegments := by
  have htokens : p.tokens = p.source.tokens := by
    rw [tokens, ahead, h]
    rfl
  intro w hw
  rw [htokens] at hw
  exact (p.source.cuts_tokens.isSpelled hw (by simp)).1

end Parser

/-- Parsing a text fails with what its lexemes are refused for. -/
theorem parse_eq_error_iff_refusal {input : String} {e : ParseError} :
    Statement.parse input = .error e ↔
      (Stage.asking .statement).refusal (Source.ofText input).readAll.1 = some e := by
  show _ ↔ (Parser.ofText input).refusal (.asking .statement) = some e
  rw [← Parser.errorOr_statement (Parser.hasSegments_of_held_eq_none rfl),
    Parsed.errorOr_eq_some_iff]
  exact Iff.rfl

end NamespaceControl.Command
