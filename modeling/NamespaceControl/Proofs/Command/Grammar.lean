import NamespaceControl.Command.Statement
import NamespaceControl.Proofs.Command.Lexing

/-!
# The grammar of statements

A statement is made of keywords and paths (`Statement.parts`). On tokens, there may be a run of
blanks before each part and at the end (`Spaced`). On texts, there must be one between two parts
(`Written`). The two agree on what a text is cut into, because a word goes on as far as it can: two
words with nothing between them are one.
-/

namespace NamespaceControl.Command

/-! ## Parts of statements -/

/-- What a statement is made of. -/
inductive Part where
  /-- A reserved word. -/
  | keyword (k : Keyword)
  /-- The written form of a name. -/
  | path (n : Name)

/-- No segment of the name is a reserved word. -/
def IsUnreserved (n : Name) : Prop := ∀ s ∈ n.segments, ∀ k : Keyword, s ≠ k.text

/-- The tokens of further segments: each stands behind a dot. -/
def segmentTokens (segments : List String) : List Token :=
  segments.flatMap fun s => [.dot, .identifier s]

/-- The tokens of a path. -/
def pathTokens : List String → List Token
  | [] => []
  | s :: more => .identifier s :: segmentTokens more

namespace Part

/-- The tokens of a part. -/
def tokens : Part → List Token
  | keyword k => [.keyword k]
  | path n => pathTokens n.segments

/-- The written form of a part. -/
def text : Part → String
  | keyword k => k.text
  | path n => n.text

/-- A part can be read if it is no path with a reserved segment. -/
def IsReadable : Part → Prop
  | keyword _ => True
  | path n => IsUnreserved n

end Part

/-- The parts of a statement, in their order. -/
def Statement.parts : Statement → List Part
  | useNamespace n => [.keyword .useKw, .path n]
  | createNamespace n => [.keyword .createKw, .keyword .namespaceKw, .path n]
  | dropNamespace n => [.keyword .dropKw, .keyword .namespaceKw, .path n]
  | showNamespaces => [.keyword .showKw, .keyword .namespacesKw]

variable {k : Keyword} {n : Name} {part : Part} {parts : List Part} {gap ts rest : List Token}
  {text : List Char}

/-! ## Statements as tokens -/

/-- What may stand before a part and at the end: a run of blanks or nothing. -/
inductive IsGap : List Token → Prop where
  /-- Nothing. -/
  | none : IsGap []
  /-- A run of blanks. -/
  | blank (run : String) : IsGap [.blank run]

/-- The tokens begin with a part, before which there may be blanks. -/
def BeginsWith (part : Part) (ts rest : List Token) : Prop :=
  ∃ gap, IsGap gap ∧ ts = gap ++ (part.tokens ++ rest)

/-- The tokens are those of the parts, with blanks between them, up to the end of the input. -/
inductive Spaced : List Part → List Token → Prop where
  /-- Nothing but blanks is left. -/
  | nil {gap : List Token} (blank : IsGap gap) : Spaced [] (gap ++ [.endOfInput])
  /-- A part comes first. -/
  | cons {part : Part} {parts : List Part} {ts rest : List Token}
      (first : BeginsWith part ts rest) (more : Spaced parts rest) : Spaced (part :: parts) ts

/-! ## Statements as texts -/

/-- A text of blanks. -/
def IsBlanks (w : String) : Prop := ∀ c ∈ w.toList, Text.isBlank c = true

/-- There need not be any. -/
theorem isBlanks_empty : IsBlanks "" := by
  intro c hc
  cases hc

/-- What keeps two words apart: at least one blank. -/
def IsSeparator (w : String) : Prop := w ≠ "" ∧ IsBlanks w

/-- The text writes the parts, each behind a separator, and may end in blanks. -/
inductive Written : List Part → String → Prop where
  /-- Nothing but blanks is left. -/
  | nil {w : String} (blank : IsBlanks w) : Written [] w
  /-- A part comes next. -/
  | cons {w text : String} {part : Part} {parts : List Part} (separator : IsSeparator w)
      (readable : part.IsReadable) (more : Written parts text) :
      Written (part :: parts) (w ++ (part.text ++ text))

/-! ## Cutting parts off -/

/-- The text goes on with something that ends a word. -/
def EndsWord (text : List Char) : Prop := ∀ c ∈ text.head?, isWordChar c = false

/-- A word that is not reserved is an identifier, and the other way round. -/
theorem ofText?_eq_none_iff {s : String} :
    Keyword.ofText? s = none ↔ ∀ k : Keyword, s ≠ k.text := by
  rw [Option.eq_none_iff_forall_ne_some]
  simp only [Ne, Keyword.ofText?_eq_some_iff]

/-- A token is cut off. -/
theorem cuts_cons_iff {t : Token} (ht : t ≠ .endOfInput) :
    Cuts text (t :: ts) ↔ t.IsSpelled ∧ ∃ more, text = t.source.toList ++ more ∧
      (∀ c ∈ more.head?, t.goesOn c = false) ∧ Cuts more ts := by
  constructor
  · intro h
    cases h with
    | nil => exact absurd rfl ht
    | @cons _ more _ spelled stops hmore => exact ⟨spelled, more, rfl, stops, hmore⟩
  · rintro ⟨hspelled, more, rfl, hstops, hmore⟩
    exact .cons hspelled hstops hmore

/-- A keyword is cut off. -/
theorem cuts_keyword_iff :
    Cuts text (.keyword k :: ts) ↔
      ∃ more, text = k.text.toList ++ more ∧ EndsWord more ∧ Cuts more ts := by
  rw [cuts_cons_iff (by simp)]
  exact ⟨fun h => h.2, fun h => ⟨trivial, h⟩⟩

/-- An identifier is cut off. -/
theorem cuts_identifier_iff {s : String} :
    Cuts text (.identifier s :: ts) ↔ (IsSegment s ∧ ∀ k : Keyword, s ≠ k.text) ∧
      ∃ more, text = s.toList ++ more ∧ EndsWord more ∧ Cuts more ts := by
  rw [cuts_cons_iff (by simp), ← ofText?_eq_none_iff]
  exact Iff.rfl

/-- A dot is cut off. -/
theorem cuts_dot_iff :
    Cuts text (.dot :: ts) ↔ ∃ more, text = '.' :: more ∧ Cuts more ts := by
  rw [cuts_cons_iff (by simp)]
  constructor
  · rintro ⟨-, more, htext, -, hmore⟩
    exact ⟨more, by simpa [Token.source] using htext, hmore⟩
  · rintro ⟨more, rfl, hmore⟩
    exact ⟨trivial, more, by simp [Token.source], fun c _ => rfl, hmore⟩

/-- A path is cut off, segment by segment. -/
theorem cuts_pathTokens_iff {s : String} {more : List String} :
    Cuts text (pathTokens (s :: more) ++ ts) ↔
      (∀ s' ∈ s :: more, IsSegment s' ∧ ∀ k : Keyword, s' ≠ k.text) ∧
        ∃ rest, text = (dotted (s :: more)).toList ++ rest ∧ EndsWord rest ∧ Cuts rest ts := by
  induction more generalizing s text with
  | nil =>
    have hdotted : dotted [s] = s := by simp [dotted]
    rw [hdotted, List.forall_mem_singleton]
    exact cuts_identifier_iff
  | cons s' more ih =>
    have hdotted : (dotted (s :: s' :: more)).toList =
        s.toList ++ '.' :: (dotted (s' :: more)).toList := by
      simp [dotted, String.toList_intercalate, List.intercalate]
    have htokens : pathTokens (s :: s' :: more) ++ ts =
        .identifier s :: .dot :: (pathTokens (s' :: more) ++ ts) := rfl
    rw [htokens, hdotted, cuts_identifier_iff, List.forall_mem_cons]
    simp only [cuts_dot_iff, ih]
    constructor
    · rintro ⟨hs, _, rfl, -, _, rfl, hmore, rest, rfl, hends, hrest⟩
      exact ⟨⟨hs, hmore⟩, rest, by simp, hends, hrest⟩
    · rintro ⟨⟨hs, hmore⟩, rest, rfl, hends, hrest⟩
      refine ⟨hs, '.' :: ((dotted (s' :: more)).toList ++ rest), by simp, ?_, _, rfl, hmore, rest,
        rfl, hends, hrest⟩
      intro c hc
      obtain rfl : '.' = c := by simpa using hc
      decide

/-- A part is cut off. Nothing else than reserved segments keeps it from being read. -/
theorem cuts_part_iff :
    Cuts text (part.tokens ++ ts) ↔
      part.IsReadable ∧ ∃ rest, text = part.text.toList ++ rest ∧ EndsWord rest ∧ Cuts rest ts := by
  cases part with
  | keyword k =>
    refine cuts_keyword_iff.trans ?_
    exact ⟨fun h => ⟨trivial, h⟩, fun h => h.2⟩
  | path n =>
    obtain ⟨s, more, hn⟩ := List.exists_cons_of_ne_nil n.segments_ne_nil
    have hsegments : (∀ s' ∈ s :: more, IsSegment s' ∧ ∀ k : Keyword, s' ≠ k.text) ↔
        (Part.path n).IsReadable := by
      rw [← hn]
      exact ⟨fun h s' hs' => (h s' hs').2, fun h s' hs' => ⟨n.isSegment s' hs', h s' hs'⟩⟩
    rw [← hsegments, Part.tokens, Part.text, Name.text, hn]
    exact cuts_pathTokens_iff

/-- A run of blanks is cut off. -/
theorem cuts_blank_iff {run : String} :
    Cuts text (.blank run :: ts) ↔ IsSeparator run ∧
      ∃ rest, text = run.toList ++ rest ∧ (∀ c ∈ rest.head?, Text.isBlank c = false) ∧
        Cuts rest ts := by
  rw [cuts_cons_iff (by simp)]
  exact Iff.rfl

/-- At the end there is no text. -/
theorem cuts_endOfInput_iff : Cuts text [.endOfInput] ↔ text = [] := by
  constructor
  · intro h
    cases h with
    | nil => rfl
    | cons spelled => exact spelled.elim
  · rintro rfl
    exact .nil

/-- Blanks in front of what does not begin with one are a gap. -/
theorem exists_gap_of_isBlanks {w : String} (hw : IsBlanks w)
    (htext : ∀ c ∈ text.head?, Text.isBlank c = false) (h : Cuts text ts) :
    ∃ gap, IsGap gap ∧ Cuts (w.toList ++ text) (gap ++ ts) := by
  by_cases hempty : w = ""
  · subst hempty
    exact ⟨[], .none, h⟩
  · exact ⟨[.blank w], .blank w, cuts_blank_iff.mpr ⟨⟨hempty, hw⟩, text, rfl, htext, h⟩⟩

/-! ## Parts in a text -/

/-- A part begins with a character of a word. -/
theorem Part.exists_cons (part : Part) :
    ∃ c chars, part.text.toList = c :: chars ∧ isWordChar c = true := by
  -- both a keyword and the first segment of a path are words
  have hword : ∀ s : String, IsSegment s → ∀ more : List Char,
      ∃ c chars, s.toList ++ more = c :: chars ∧ isWordChar c = true := by
    intro s hs more
    cases hchars : s.toList with
    | nil => exact absurd (String.toList_eq_nil_iff.mp hchars) hs.1
    | cons c chars =>
      exact ⟨c, chars ++ more, rfl, hs.2 c (by simp [hchars])⟩
  cases part with
  | keyword k =>
    have h := hword k.text (Token.isSegment_text k) []
    rwa [List.append_nil] at h
  | path n =>
    obtain ⟨s, more, hn⟩ := List.exists_cons_of_ne_nil n.segments_ne_nil
    have hs : IsSegment s := n.isSegment s (by simp [hn])
    rw [Part.text, Name.text, hn]
    cases more with
    | nil =>
      have h := hword s hs []
      simpa [dotted] using h
    | cons s' more =>
      have h := hword s hs ('.' :: (dotted (s' :: more)).toList)
      simpa [dotted, String.toList_intercalate, List.intercalate] using h

/-- A part does not end a word. -/
theorem not_endsWord_part : ¬ EndsWord (part.text.toList ++ text) := by
  obtain ⟨c, chars, hpart, hc⟩ := part.exists_cons
  intro h
  have hends := h c (by simp [hpart])
  rw [hc] at hends
  cases hends

/-- A part does not begin with a blank. -/
theorem isBlank_head?_part : ∀ c ∈ (part.text.toList ++ text).head?, Text.isBlank c = false := by
  obtain ⟨c, chars, hpart, hc⟩ := part.exists_cons
  intro d hd
  obtain rfl : c = d := by simpa [hpart] using hd
  exact isBlank_eq_false_of_isWordChar hc

/-- A separator ends a word. -/
theorem endsWord_of_isSeparator {w : String} (hw : IsSeparator w) (text : List Char) :
    EndsWord (w.toList ++ text) := by
  intro c hc
  cases hchars : w.toList with
  | nil => exact absurd (String.toList_eq_nil_iff.mp hchars) hw.1
  | cons d chars =>
    obtain rfl : d = c := by simpa [hchars] using hc
    exact isWordChar_eq_false_of_isBlank (hw.2 d (by simp [hchars]))

/-- A part and the blanks before it are cut off. -/
theorem cuts_beginsWith_iff :
    (∃ ts, BeginsWith part ts rest ∧ Cuts text ts) ↔ part.IsReadable ∧ ∃ w more, IsBlanks w ∧
      text = w.toList ++ (part.text.toList ++ more) ∧ EndsWord more ∧ Cuts more rest := by
  constructor
  · rintro ⟨_, ⟨gap, hgap, rfl⟩, hcuts⟩
    cases hgap with
    | none =>
      obtain ⟨hreadable, more, rfl, hends, hmore⟩ := cuts_part_iff.mp hcuts
      exact ⟨hreadable, "", more, isBlanks_empty, rfl, hends, hmore⟩
    | blank run =>
      obtain ⟨hrun, text, rfl, -, hpart⟩ := cuts_blank_iff.mp hcuts
      obtain ⟨hreadable, more, rfl, hends, hmore⟩ := cuts_part_iff.mp hpart
      exact ⟨hreadable, run, more, hrun.2, rfl, hends, hmore⟩
  · rintro ⟨hreadable, w, more, hw, rfl, hends, hmore⟩
    have hpart : Cuts (part.text.toList ++ more) (part.tokens ++ rest) :=
      cuts_part_iff.mpr ⟨hreadable, more, rfl, hends, hmore⟩
    obtain ⟨gap, hgap, hcuts⟩ := exists_gap_of_isBlanks hw isBlank_head?_part hpart
    exact ⟨_, ⟨gap, hgap, rfl⟩, hcuts⟩

/-- What is cut into parts behind a word writes them: two words with nothing between them would
be one. -/
theorem written_of_cuts (h : Spaced parts ts) (hcuts : Cuts text ts) (hends : EndsWord text) :
    Written parts (String.ofList text) := by
  induction h generalizing text with
  | @nil gap hgap =>
    cases hgap with
    | none =>
      obtain rfl := cuts_endOfInput_iff.mp hcuts
      exact .nil isBlanks_empty
    | blank run =>
      obtain ⟨⟨-, hrun⟩, rest, rfl, -, hrest⟩ := cuts_blank_iff.mp hcuts
      obtain rfl := cuts_endOfInput_iff.mp hrest
      rw [List.append_nil, String.ofList_toList]
      exact .nil hrun
  | @cons part parts ts rest first _ ih =>
    obtain ⟨hreadable, w, more, hw, rfl, hmore, hrest⟩ :=
      cuts_beginsWith_iff.mp ⟨ts, first, hcuts⟩
    have hne : w ≠ "" := by
      rintro rfl
      exact not_endsWord_part hends
    rw [String.ofList_append, String.ofList_append, String.ofList_toList, String.ofList_toList]
    exact .cons ⟨hne, hw⟩ hreadable (ih hrest hmore)

/-- What writes parts behind a word is cut into them. -/
theorem exists_cuts_of_written {w : String} (h : Written parts w) :
    ∃ ts, Spaced parts ts ∧ Cuts w.toList ts ∧ EndsWord w.toList := by
  induction h with
  | @nil w hw =>
    obtain ⟨gap, hgap, hcuts⟩ : ∃ gap, IsGap gap ∧ Cuts (w.toList ++ []) (gap ++ [.endOfInput]) :=
      exists_gap_of_isBlanks hw (by simp) .nil
    rw [List.append_nil] at hcuts
    refine ⟨gap ++ [.endOfInput], .nil hgap, hcuts, ?_⟩
    by_cases hempty : w = ""
    · subst hempty
      intro c hc
      cases hc
    · have h := endsWord_of_isSeparator ⟨hempty, hw⟩ []
      rwa [List.append_nil] at h
  | @cons w text part parts hw hreadable _ ih =>
    obtain ⟨rest, hspaced, hcuts, hends⟩ := ih
    rw [String.toList_append, String.toList_append]
    obtain ⟨ts, hfirst, hall⟩ :=
      cuts_beginsWith_iff.mpr ⟨hreadable, w, text.toList, hw.2, rfl, hends, hcuts⟩
    exact ⟨ts, .cons hfirst hspaced, hall, endsWord_of_isSeparator hw _⟩

/-- A text is cut into the parts exactly if it writes them, and then blanks may stand in front
too. -/
theorem spaced_tokens_iff {input : String} :
    Spaced (part :: parts) (Source.ofText input).tokens ↔
      ∃ w rest, IsBlanks w ∧ part.IsReadable ∧ Written parts rest ∧
        input = w ++ (part.text ++ rest) := by
  constructor
  · intro h
    have hcuts : Cuts input.toList (Source.ofText input).tokens :=
      (Source.ofText input).cuts_tokens
    cases h with
    | cons first more =>
      obtain ⟨hreadable, w, text, hw, htext, hends, hrest⟩ :=
        cuts_beginsWith_iff.mp ⟨_, first, hcuts⟩
      refine ⟨w, String.ofList text, hw, hreadable, written_of_cuts more hrest hends, ?_⟩
      apply String.toList_injective
      simpa using htext
  · rintro ⟨w, rest, hw, hreadable, hrest, rfl⟩
    obtain ⟨ts, hspaced, hcuts, hends⟩ := exists_cuts_of_written hrest
    obtain ⟨all, hfirst, hall⟩ :=
      cuts_beginsWith_iff.mpr ⟨hreadable, w, rest.toList, hw, rfl, hends, hcuts⟩
    have htokens : (Source.ofText (w ++ (part.text ++ rest))).tokens = all := by
      apply Source.tokens_of_cuts _ hall
      simp [Source.ofText]
    rw [htokens]
    exact .cons hfirst hspaced

end NamespaceControl.Command
