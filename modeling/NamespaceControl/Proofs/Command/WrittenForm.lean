import NamespaceControl.Proofs.Command.Acceptance
import NamespaceControl.Proofs.Command.Position
import NamespaceControl.Proofs.Command.Stage

/-!
# Written forms of statements

The written form of a statement is its keywords, with a blank behind each, and its name. It is read
back if no segment of the name is a reserved word (`parse_text_of_isUnreserved`), and if one is, no
text writes the statement (`exists_parse_iff`). Up to the first segment that is reserved, the tokens
are keywords with single blanks and identifiers with dots, which all fit; so parsing fails at that
segment, where a segment is asked for (`parse_text_of_reserved`).
-/

namespace NamespaceControl.Command

variable {s : Statement} {n : Name} {k : Keyword} {ks : List Keyword} {before after : List String}
  {text : List Char} {ts : List Token} {e : Expectation}

/-! ## Reading back -/

/-- The keywords of a statement, which stand in front of its name if it has one. -/
def Statement.keywords : Statement → List Keyword
  | useNamespace _ => [.useKw]
  | createNamespace _ => [.createKw, .namespaceKw]
  | dropNamespace _ => [.dropKw, .namespaceKw]
  | showNamespaces => [.showKw, .namespacesKw]

/-- The text of keywords with a blank behind each. -/
def keywordsText (ks : List Keyword) : String := String.join (ks.map (·.text ++ " "))

/-- The written form of a statement about a namespace. -/
theorem Statement.text_eq (hs : s.target? = some n) :
    s.text = keywordsText s.keywords ++ n.text := by
  cases s with
  | useNamespace target | createNamespace target | dropNamespace target =>
    obtain rfl := Option.some.inj hs
    rfl
  | showNamespaces => cases hs

/-- What stands in front of a segment in a written form, that segment, and what stands behind
it. -/
theorem Statement.text_eq_append {w : String} (hs : s.target? = some n)
    (hsegments : n.segments = before ++ w :: after) :
    s.text = (keywordsText s.keywords ++ leading before) ++ (w ++ trailing after) := by
  rw [text_eq hs, Name.text, hsegments, dotted_append_cons, String.append_assoc]

/-- Keywords stand on one line. -/
theorem lineFeed_not_mem_keywordsText (ks : List Keyword) :
    '\n' ∉ (keywordsText ks).toList := by
  induction ks with
  | nil => decide
  | cons k ks ih =>
    have hk : '\n' ∉ (k.text ++ " ").toList := by
      cases k <;> decide
    rw [keywordsText, List.map_cons, String.join_cons, String.toList_append, List.mem_append,
      not_or]
    exact ⟨hk, ih⟩

/-- A written form is one line. -/
theorem Statement.lineFeed_not_mem_text (s : Statement) : '\n' ∉ s.text.toList := by
  cases htarget : s.target? with
  | none =>
    cases s with
    | useNamespace _ | createNamespace _ | dropNamespace _ => cases htarget
    | showNamespaces => decide
  | some n =>
    rw [text_eq htarget, String.toList_append, List.mem_append, not_or]
    exact ⟨lineFeed_not_mem_keywordsText s.keywords, n.lineFeed_not_mem_text⟩

/-- Each part that is written can be read, and stands in the text. -/
theorem Written.of_mem {part : Part} {parts : List Part} {input : String}
    (h : Written parts input) (hpart : part ∈ parts) :
    part.IsReadable ∧ ∃ left right, input = left ++ (part.text ++ right) := by
  induction h with
  | nil => cases hpart
  | @cons gap rest first parts _ readable _ ih =>
    rcases List.mem_cons.mp hpart with rfl | hpart
    · exact ⟨readable, gap, rest, rfl⟩
    · obtain ⟨hreadable, left, right, rfl⟩ := ih hpart
      refine ⟨hreadable, gap ++ (first.text ++ left), right, ?_⟩
      simp only [String.append_assoc]

/-- A single blank keeps words apart. -/
theorem isSeparator_space : IsSeparator " " := by
  refine ⟨by decide, fun c hc => ?_⟩
  obtain rfl : c = ' ' := by simpa using hc
  decide

/-- A statement is read back from its written form if no segment of its name is reserved. -/
theorem parse_text_of_isUnreserved (hs : s.target? = some n) (hn : IsUnreserved n) :
    Statement.parse s.text = .ok s := by
  obtain ⟨k, parts, hparts⟩ := Parser.exists_parts_eq_cons s
  have hwrites : Writes s s.text := by
    have hempty := isBlanks_empty
    have hspace := isSeparator_space
    rw [Statement.text_eq hs]
    cases s with
    | useNamespace target =>
      obtain rfl := Option.some.inj hs
      simpa [keywordsText, Statement.keywords, Keyword.text] using
        Writes.useNamespace hempty hspace hn hempty
    | createNamespace target =>
      obtain rfl := Option.some.inj hs
      simpa [keywordsText, Statement.keywords, Keyword.text] using
        Writes.createNamespace hempty hspace hspace hn hempty
    | dropNamespace target =>
      obtain rfl := Option.some.inj hs
      simpa [keywordsText, Statement.keywords, Keyword.text] using
        Writes.dropNamespace hempty hspace hspace hn hempty
    | showNamespaces => cases hs
  exact (parse_eq_ok_iff_written hparts).mpr ((writes_iff hparts).mp hwrites)

/-- What a statement is about stands behind its first keyword. -/
theorem path_mem_parts {part : Part} {parts : List Part} (hs : s.target? = some n)
    (hparts : s.parts = part :: parts) : Part.path n ∈ parts := by
  cases s with
  | useNamespace target | createNamespace target | dropNamespace target =>
    obtain rfl := Option.some.inj hs
    obtain ⟨-, rfl⟩ := List.cons.inj hparts
    simp
  | showNamespaces => cases hs

/-- No text writes a statement with a reserved segment. -/
theorem isUnreserved_of_parse {input : String} (hs : s.target? = some n)
    (h : Statement.parse input = .ok s) : IsUnreserved n := by
  obtain ⟨k, parts, hparts⟩ := Parser.exists_parts_eq_cons s
  obtain ⟨before, rest, -, -, hwritten, -⟩ := (parse_eq_ok_iff_written hparts).mp h
  exact (hwritten.of_mem (path_mem_parts hs hparts)).1

/-- The name in a statement that is parsed stands in the text. -/
theorem exists_append_of_parse {input : String} (hs : s.target? = some n)
    (h : Statement.parse input = .ok s) : ∃ left right, input = left ++ (n.text ++ right) := by
  obtain ⟨k, parts, hparts⟩ := Parser.exists_parts_eq_cons s
  obtain ⟨before, rest, -, -, hwritten, rfl⟩ := (parse_eq_ok_iff_written hparts).mp h
  obtain ⟨-, left, right, rfl⟩ := hwritten.of_mem (path_mem_parts hs hparts)
  refine ⟨before ++ ((Part.keyword k).text ++ left), right, ?_⟩
  simp only [Part.text, String.append_assoc]

/-- A path that is parsed always makes a name. -/
theorem parse_ne_invalidName (input : String) (reason : NameError) :
    Statement.parse input ≠ .error (.invalidName reason) := by
  intro h
  obtain ⟨_, _, _, -, -, -, herr⟩ :=
    Stage.exists_of_refusal_eq_some (parse_eq_error_iff_refusal.mp h)
  cases herr

/-- Some text writes a statement about a namespace exactly if no segment is reserved. -/
theorem exists_parse_iff (hs : s.target? = some n) :
    (∃ input, Statement.parse input = .ok s) ↔ IsUnreserved n := by
  constructor
  · rintro ⟨input, h⟩
    exact isUnreserved_of_parse hs h
  · exact fun hn => ⟨s.text, parse_text_of_isUnreserved hs hn⟩

/-! ## What stands in front of a reserved segment -/

/-- If a name has a reserved segment, there is a first one. -/
theorem exists_first_reserved (hn : ¬ IsUnreserved n) :
    ∃ before k after, n.segments = before ++ Keyword.text k :: after ∧
      ∀ w ∈ before, ∀ k' : Keyword, w ≠ k'.text := by
  cases hfirst : n.segments.findSome? Keyword.ofText? with
  | none =>
    refine absurd (fun w hw => ?_) hn
    exact ofText?_eq_none_iff.mp (List.findSome?_eq_none_iff.mp hfirst w hw)
  | some k =>
    obtain ⟨before, w, after, hsegments, hw, hbefore⟩ := List.findSome?_eq_some_iff.mp hfirst
    obtain rfl := Keyword.ofText?_eq_some_iff.mp hw
    exact ⟨before, k, after, hsegments, fun w hw => ofText?_eq_none_iff.mp (hbefore w hw)⟩

/-- The tokens of keywords with a blank behind each. -/
def keywordTokens (ks : List Keyword) : List Token := ks.flatMap fun k => [.keyword k, .blank " "]

/-- The tokens of segments with a dot behind each. -/
def leadingTokens (segments : List String) : List Token :=
  segments.flatMap fun s => [.identifier s, .dot]

/-- Keywords in front of a word begin with a word. -/
theorem isBlank_head?_keywordsText (h : ∀ c ∈ text.head?, Text.isBlank c = false) :
    ∀ c ∈ ((keywordsText ks).toList ++ text).head?, Text.isBlank c = false := by
  cases ks with
  | nil => exact h
  | cons k ks =>
    have htext : (keywordsText (k :: ks)).toList ++ text =
        (Part.keyword k).text.toList ++ (' ' :: ((keywordsText ks).toList ++ text)) := by
      simp [keywordsText, Part.text]
    rw [htext]
    exact isBlank_head?_part

/-- Keywords are cut off, and so are the blanks behind them. -/
theorem cuts_keywordTokens (h : Cuts text ts) (htext : ∀ c ∈ text.head?, Text.isBlank c = false) :
    Cuts ((keywordsText ks).toList ++ text) (keywordTokens ks ++ ts) := by
  induction ks with
  | nil => exact h
  | cons k ks ih =>
    have hmore : Cuts (" ".toList ++ ((keywordsText ks).toList ++ text))
        (.blank " " :: (keywordTokens ks ++ ts)) :=
      cuts_blank_iff.mpr ⟨isSeparator_space, _, rfl, isBlank_head?_keywordsText htext, ih⟩
    have hends : EndsWord (" ".toList ++ ((keywordsText ks).toList ++ text)) :=
      endsWord_of_isSeparator isSeparator_space _
    refine cuts_keyword_iff.mpr ⟨_, ?_, hends, hmore⟩
    simp [keywordsText]

/-- Segments are cut off, and so are the dots behind them. -/
theorem cuts_leadingTokens (hsegment : ∀ w ∈ before, IsSegment w)
    (hbefore : ∀ w ∈ before, ∀ k' : Keyword, w ≠ k'.text) (h : Cuts text ts) :
    Cuts ((leading before).toList ++ text) (leadingTokens before ++ ts) := by
  induction before with
  | nil => exact h
  | cons w before ih =>
    rw [List.forall_mem_cons] at hsegment hbefore
    have hmore : Cuts ('.' :: ((leading before).toList ++ text))
        (.dot :: (leadingTokens before ++ ts)) :=
      cuts_dot_iff.mpr ⟨_, rfl, ih hsegment.2 hbefore.2⟩
    have hends : EndsWord ('.' :: ((leading before).toList ++ text)) := by
      intro c hc
      obtain rfl : '.' = c := by simpa using hc
      decide
    refine cuts_identifier_iff.mpr ⟨⟨hsegment.1, hbefore.1⟩, _, ?_, hends, hmore⟩
    simp [leading]

/-- A written form is cut into keywords, the segments in front of a reserved one, and that one. -/
theorem exists_tokens_text (hs : s.target? = some n)
    (hsegments : n.segments = before ++ k.text :: after)
    (hbefore : ∀ w ∈ before, ∀ k' : Keyword, w ≠ k'.text) :
    ∃ rest, (Source.ofText s.text).tokens =
      keywordTokens s.keywords ++ (leadingTokens before ++ .keyword k :: rest) := by
  have hsegment : ∀ w ∈ before, IsSegment w := by
    intro w hw
    exact n.isSegment w (by simp [hsegments, hw])
  have hends : EndsWord (trailing after).toList := by
    intro c hc
    cases after with
    | nil => simp [trailing] at hc
    | cons w after =>
      obtain rfl : '.' = c := by simpa [trailing] using hc
      decide
  have hafter : Cuts (trailing after).toList (Source.ofText (trailing after)).tokens :=
    (Source.ofText (trailing after)).cuts_tokens
  have hkeyword : Cuts (k.text.toList ++ (trailing after).toList)
      (.keyword k :: (Source.ofText (trailing after)).tokens) :=
    cuts_keyword_iff.mpr ⟨_, rfl, hends, hafter⟩
  have hname := cuts_leadingTokens hsegment hbefore hkeyword
  have htext : n.text.toList = (leading before).toList ++
      (k.text.toList ++ (trailing after).toList) := by
    rw [Name.text, hsegments, dotted_append_cons, String.toList_append, String.toList_append]
  have hword : ∀ c ∈ n.text.toList.head?, Text.isBlank c = false := by
    have hpart : ∀ c ∈ ((Part.path n).text.toList ++ []).head?, Text.isBlank c = false :=
      isBlank_head?_part
    rwa [List.append_nil] at hpart
  rw [← htext] at hname
  refine ⟨_, Source.tokens_of_cuts ?_ (cuts_keywordTokens hname hword)⟩
  rw [Source.ofText, Statement.text_eq hs, String.toList_append]

/-! ## How far a written form is read -/

/-- The keywords of a statement lead to its name. -/
theorem afterAll_keywordTokens (hs : s.target? = some n) :
    (Stage.asking .statement).afterAll (keywordTokens s.keywords) = some (.bare .path) := by
  cases s with
  | useNamespace _ | createNamespace _ | dropNamespace _ => rfl
  | showNamespaces => cases hs

/-- Behind a segment and its dot the next segment is asked for. -/
theorem afterAll_leadingTokens (he : e = .path ∨ e = .identifier) (before : List String) :
    (Stage.bare e).afterAll (leadingTokens before) =
      some (.bare (if before = [] then e else .identifier)) := by
  induction before generalizing e with
  | nil => rfl
  | cons w before ih =>
    have hmore := ih (e := .identifier) (Or.inr rfl)
    rw [ite_self] at hmore
    rw [if_neg (List.cons_ne_nil w before), ← hmore]
    rcases he with rfl | rfl
    · rfl
    · rfl

/-- The source of keywords and the blanks behind them. -/
theorem flatMap_source_keywordTokens (ks : List Keyword) :
    (keywordTokens ks).flatMap (·.source.toList) = (keywordsText ks).toList := by
  simp [keywordTokens, keywordsText, List.flatMap_assoc, List.flatMap_map, Token.source]

/-- The source of segments and the dots behind them. -/
theorem flatMap_source_leadingTokens (segments : List String) :
    (leadingTokens segments).flatMap (·.source.toList) = (leading segments).toList := by
  simp [leadingTokens, leading, List.flatMap_assoc, List.flatMap_map, Token.source]

/-- A written form is refused for the first segment that is reserved. -/
theorem parse_text_of_reserved (hs : s.target? = some n)
    (hsegments : n.segments = before ++ k.text :: after)
    (hbefore : ∀ w ∈ before, ∀ k' : Keyword, w ≠ k'.text) :
    Statement.parse s.text = .error (.unexpected
      ⟨.keyword k, ⟨1, 1 + (keywordsText s.keywords ++ leading before).length⟩⟩
      (if before = [] then .path else .identifier)) := by
  obtain ⟨rest, htokens⟩ := exists_tokens_text hs hsegments hbefore
  rw [← List.append_assoc] at htokens
  obtain ⟨front, back, hread, hfront, hback⟩ := List.map_eq_append_iff.mp htokens
  obtain ⟨found, more, rfl, hfound, -⟩ := List.map_eq_cons_iff.mp hback
  have hfits : (Stage.asking .statement).afterAll (front.map (·.token)) =
      some (.bare (if before = [] then .path else .identifier)) := by
    rw [hfront]
    exact Stage.afterAll_append_eq_some_iff.mpr
      ⟨_, afterAll_keywordTokens hs, afterAll_leadingTokens (Or.inl rfl) before⟩
  have hmisfit : (Stage.bare (if before = [] then .path else .identifier)).after found.token =
      none := by
    rw [hfound]
    split
    · rfl
    · rfl
  have hcovered : covered front = (keywordsText s.keywords ++ leading before).toList := by
    have hsource : covered front = (front.map (·.token)).flatMap (·.source.toList) := by
      rw [covered, List.flatMap_map]
    rw [hsource, hfront, List.flatMap_append, flatMap_source_keywordTokens,
      flatMap_source_leadingTokens, String.toList_append]
  have hline : '\n' ∉ (keywordsText s.keywords ++ leading before).toList := by
    have hwhole := s.lineFeed_not_mem_text
    rw [s.text_eq_append hs hsegments, String.toList_append, List.mem_append, not_or] at hwhole
    exact hwhole.1
  have hposition : found.position =
      ⟨1, 1 + (keywordsText s.keywords ++ leading before).length⟩ := by
    rw [Source.position_of_readAll hread (by simp [hfound]), hcovered,
      Place.afterAll_of_not_mem _ hline, String.length_toList]
    simp only [Source.ofText, Place.start, Place.next, Position.mk.injEq, true_and]
    omega
  rw [parse_eq_error_iff_refusal, hread, Stage.refusal_append_of_afterAll hfits,
    Stage.refusal_cons_of_none hmisfit]
  obtain ⟨token, position⟩ := found
  obtain rfl : token = .keyword k := hfound
  rw [show position = _ from hposition]
  rfl

end NamespaceControl.Command
