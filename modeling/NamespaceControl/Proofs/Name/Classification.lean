import NamespaceControl.Proofs.Command.WrittenForm
import NamespaceControl.Proofs.Name.Hierarchy

/-!
# Texts that are no names

A text is cut into pieces at its dots, in just one way (`isCut_iff`), and it is a name if all pieces
are words. If not, the first piece that is no word decides what is wrong (`Flaw`), in the same way
as in a list of segments that are given one by one: such segments may hold dots themselves. Only
nothing at all is another matter, which is the empty text on the one side and the empty list on the
other.
-/

namespace NamespaceControl

open Command (Statement)

variable {segments pieces : List String} {text whole : String} {n : Name} {e : NameError}

/-! ## Pieces -/

/-- The pieces of a text between its dots: they hold no dots, and joined by dots they are the
text. -/
structure IsCut (pieces : List String) (text : String) : Prop where
  /-- There is a piece. -/
  ne_nil : pieces ≠ []
  /-- No piece holds a dot. -/
  dot_not_mem : ∀ s ∈ pieces, '.' ∉ s.toList
  /-- The pieces make up the text. -/
  joined : dotted pieces = text

/-- A text has its pieces and no others. -/
theorem isCut_iff :
    IsCut pieces text ↔ (Text.pieces '.' text.toList).map String.ofList = pieces := by
  constructor
  · rintro ⟨hne, hdots, rfl⟩
    exact pieces_dotted hne hdots
  · rintro rfl
    refine ⟨by simpa using Text.pieces_ne_nil '.' text.toList, fun s hs => ?_, ?_⟩
    · obtain ⟨piece, hpiece, rfl⟩ := List.mem_map.mp hs
      rw [String.toList_ofList]
      exact Text.not_mem_of_mem_pieces hpiece
    · apply String.toList_injective
      have hpieces : ((Text.pieces '.' text.toList).map String.ofList).map String.toList =
          Text.pieces '.' text.toList := by
        simp [Function.comp_def]
      rw [dotted, String.toList_intercalate, hpieces]
      exact Text.intercalate_pieces text.toList

/-- Every text has pieces. -/
theorem exists_isCut (text : String) : ∃ pieces, IsCut pieces text := ⟨_, isCut_iff.mpr rfl⟩

/-- The pieces of a text are the only ones. -/
theorem IsCut.unique (h : IsCut pieces text) (h' : IsCut segments text) : pieces = segments :=
  (isCut_iff.mp h).symm.trans (isCut_iff.mp h')

/-! ## Flaws -/

/-- What is wrong with pieces of which the first that is no word decides. An empty one is reported
with the whole that the pieces are from. -/
inductive Flaw (whole : String) : List String → NameError → Prop where
  /-- There are no pieces. -/
  | empty : Flaw whole [] .empty
  /-- A piece is empty. -/
  | emptySegment {before after : List String} (words : ∀ s ∈ before, IsSegment s) :
      Flaw whole (before ++ "" :: after) (.emptySegment whole)
  /-- A piece has a character that no word has. -/
  | invalidSegment {before after : List String} {piece : String} {c : Char}
      (words : ∀ s ∈ before, IsSegment s) (mem : c ∈ piece.toList)
      (not_word : isWordChar c = false) :
      Flaw whole (before ++ piece :: after) (.invalidSegment piece)

/-- A piece that is not empty and no word has a character that no word has. -/
theorem exists_not_isWordChar {piece : String} (hne : piece ≠ "") (h : ¬ IsSegment piece) :
    ∃ c ∈ piece.toList, isWordChar c = false := by
  simpa [IsSegment, hne] using h

/-- A character that no word has is in no segment. -/
theorem not_isSegment_of_mem {piece : String} {c : Char} (hc : c ∈ piece.toList)
    (hword : isWordChar c = false) : ¬ IsSegment piece := by
  intro h
  rw [h.2 c hc] at hword
  cases hword

/-- Pieces that are not all words have a flaw, and so has nothing at all. -/
theorem exists_flaw (whole : String) (h : ¬ (pieces ≠ [] ∧ ∀ s ∈ pieces, IsSegment s)) :
    ∃ e, Flaw whole pieces e := by
  by_cases hnil : pieces = []
  · subst hnil
    exact ⟨_, .empty⟩
  cases hfind : pieces.find? (fun s => !decide (IsSegment s)) with
  | none => exact absurd ⟨hnil, by simpa using hfind⟩ h
  | some piece =>
    obtain ⟨hno, before, after, rfl, hwords⟩ := List.find?_eq_some_iff_append.mp hfind
    have hwords : ∀ s ∈ before, IsSegment s := by simpa using hwords
    by_cases hempty : piece = ""
    · subst hempty
      exact ⟨_, .emptySegment hwords⟩
    · obtain ⟨c, hc, hword⟩ := exists_not_isWordChar hempty (by simpa using hno)
      exact ⟨_, .invalidSegment hwords hc hword⟩

/-- The first piece that is no word is found behind words. -/
theorem find?_append_cons {before : List String} {piece : String}
    (words : ∀ s ∈ before, IsSegment s) (h : ¬ IsSegment piece) (after : List String) :
    (before ++ piece :: after).find? (fun s => !decide (IsSegment s)) = some piece :=
  List.find?_eq_some_iff_append.mpr
    ⟨by simpa using h, before, after, rfl, fun s hs => by simpa using words s hs⟩

namespace Name

/-- A list of segments is refused for its flaw. -/
theorem ofSegments_of_flaw (h : Flaw (dotted segments) segments e) :
    ofSegments segments = .error e := by
  -- what is reported is decided by the first segment that is no word
  have hrefused : ∀ {s}, ¬ IsSegment s → s ∈ segments →
      ofSegments segments = .error (.ofSegments segments) :=
    fun hno hs => dif_neg fun hall => hno (hall.2 _ hs)
  generalize hwhole : dotted segments = whole at h
  cases h with
  | empty => rfl
  | @emptySegment before after words =>
    have hno : ¬ IsSegment "" := fun h => h.1 rfl
    rw [hrefused hno (by simp), NameError.ofSegments, find?_append_cons words hno, ← hwhole]
    rfl
  | @invalidSegment before after piece c words hc hword =>
    have hno := not_isSegment_of_mem hc hword
    have hne : piece ≠ "" := by
      rintro rfl
      cases hc
    rw [hrefused hno (by simp), NameError.ofSegments, find?_append_cons words hno]
    exact congrArg Except.error (if_neg hne)

/-- A list of segments is refused exactly for its flaw. -/
theorem ofSegments_eq_error_iff :
    ofSegments segments = .error e ↔ Flaw (dotted segments) segments e := by
  constructor
  · intro h
    have hno : ¬ (segments ≠ [] ∧ ∀ s ∈ segments, IsSegment s) := by
      intro hall
      rw [ofSegments, dif_pos hall] at h
      cases h
    obtain ⟨e', hflaw⟩ := exists_flaw (dotted segments) hno
    rw [ofSegments_of_flaw hflaw] at h
    obtain rfl := Except.error.inj h
    exact hflaw
  · exact ofSegments_of_flaw

/-- A list of segments makes a name if there are some, and all are words. -/
theorem exists_ofSegments_iff :
    (∃ m, ofSegments segments = .ok m) ↔ segments ≠ [] ∧ ∀ s ∈ segments, IsSegment s := by
  constructor
  · rintro ⟨m, hm⟩
    obtain rfl := ofSegments_eq_ok_iff.mp hm
    exact ⟨m.segments_ne_nil, m.isSegment⟩
  · rintro ⟨hne, hall⟩
    exact ⟨⟨segments, hne, hall⟩, ofSegments_eq_ok_iff.mpr rfl⟩

/-- A text that is not empty is parsed by its pieces. -/
theorem parse_of_isCut (hne : text ≠ "") (h : IsCut pieces text) :
    parse text = ofSegments pieces := by
  rw [parse, if_neg hne, isCut_iff.mp h]

/-- A text is parsed as the name that it writes. -/
theorem parse_eq_ok_iff_text : parse text = .ok n ↔ n.text = text := by
  constructor
  · intro h
    by_cases hne : text = ""
    · subst hne
      cases h
    · obtain ⟨pieces, hcut⟩ := exists_isCut text
      rw [parse_of_isCut hne hcut, ofSegments_eq_ok_iff] at h
      rw [Name.text, h, hcut.joined]
  · rintro rfl
    exact parse_text n

/-- A text is refused for the flaw of its pieces, unless it is empty. -/
theorem parse_eq_error_iff_flaw :
    parse text = .error e ↔ (text = "" ∧ e = .empty) ∨
      (text ≠ "" ∧ ∃ pieces, IsCut pieces text ∧ Flaw text pieces e) := by
  by_cases hne : text = ""
  · subst hne
    have hempty : parse "" = .error .empty := rfl
    simp [hempty, eq_comm]
  · obtain ⟨pieces, hcut⟩ := exists_isCut text
    rw [parse_of_isCut hne hcut, ofSegments_eq_error_iff, hcut.joined]
    constructor
    · exact fun h => Or.inr ⟨hne, pieces, hcut, h⟩
    · rintro (⟨hempty, -⟩ | ⟨-, pieces', hcut', h⟩)
      · exact absurd hempty hne
      · rwa [hcut.unique hcut']

/-- A parent is the name of all segments but the last, if these make one. -/
theorem parent?_eq_toOption (n : Name) : n.parent? = (ofSegments n.segments.dropLast).toOption := by
  cases hparent : ofSegments n.segments.dropLast with
  | ok p => exact parent?_eq_some_iff.mpr (ofSegments_eq_ok_iff.mp hparent)
  | error e =>
    cases hp : n.parent? with
    | none => rfl
    | some p =>
      rw [ofSegments_eq_ok_iff.mpr (parent?_eq_some_iff.mp hp)] at hparent
      cases hparent

/-- **Names and their texts are inverse, and the first piece that is no word decides what is
wrong.** A text is parsed exactly if it is words joined by dots, as the one name that is written
like it, and segments make the one name that has them. Nothing at all is refused as empty. Any other
text is refused for its pieces, of which it has one list only, and a list of segments in the same
way for these. A name has segments, and all of them are words, made of letters, digits and
underscores; so have its parent, which passes the check that it is not put to, and the names that
are parsed in statements, whose check never fails. -/
theorem parse_classified (text : String) (segments : List String) (n : Name) :
    ((∃ m, parse text = .ok m) ↔
      ∃ pieces, pieces ≠ [] ∧ (∀ s ∈ pieces, IsSegment s) ∧ dotted pieces = text) ∧
    (parse text = .ok n ↔ n.text = text) ∧
    (ofSegments segments = .ok n ↔ n.segments = segments) ∧
    ((∃ m, ofSegments segments = .ok m) ↔ segments ≠ [] ∧ ∀ s ∈ segments, IsSegment s) ∧
    (parse text = .error .empty ↔ text = "") ∧
    (ofSegments segments = .error .empty ↔ segments = []) ∧
    (∃! pieces, IsCut pieces text) ∧
    (∀ e, parse text = .error e ↔ (text = "" ∧ e = .empty) ∨
      (text ≠ "" ∧ ∃ pieces, IsCut pieces text ∧ Flaw text pieces e)) ∧
    (∀ e, ofSegments segments = .error e ↔ Flaw (dotted segments) segments e) ∧
    (∀ c, isWordChar c = true ↔
      ('A' ≤ c ∧ c ≤ 'Z') ∨ ('a' ≤ c ∧ c ≤ 'z') ∨ ('0' ≤ c ∧ c ≤ '9') ∨ c = '_') ∧
    (n.segments ≠ [] ∧ ∀ s ∈ n.segments, IsSegment s) ∧
    n.parent? = (ofSegments n.segments.dropLast).toOption ∧
    (∀ input reason, Statement.parse input ≠ .error (.invalidName reason)) ∧
    ∀ input s, Statement.parse input = .ok s → s.target? = some n →
      ∃ left right, input = left ++ (n.text ++ right) := by
  refine ⟨?_, parse_eq_ok_iff_text, ofSegments_eq_ok_iff, exists_ofSegments_iff, ?_, ?_, ?_,
    fun e => parse_eq_error_iff_flaw, fun e => ofSegments_eq_error_iff, fun c => isWordChar_iff,
    ⟨n.segments_ne_nil, n.isSegment⟩, n.parent?_eq_toOption, Command.parse_ne_invalidName,
    fun input s h hs => Command.exists_append_of_parse hs h⟩
  · simp only [parse_eq_ok_iff_text]
    constructor
    · rintro ⟨m, hm⟩
      exact ⟨m.segments, m.segments_ne_nil, m.isSegment, hm⟩
    · rintro ⟨pieces, hne, hall, hpieces⟩
      exact ⟨⟨pieces, hne, hall⟩, hpieces⟩
  · rw [parse_eq_error_iff_flaw]
    constructor
    · rintro (⟨hempty, -⟩ | ⟨-, pieces, hcut, hflaw⟩)
      · exact hempty
      · cases hflaw
        exact absurd rfl hcut.ne_nil
    · exact fun hempty => Or.inl ⟨hempty, rfl⟩
  · rw [ofSegments_eq_error_iff]
    constructor
    · intro hflaw
      cases hflaw
      rfl
    · rintro rfl
      exact .empty
  · obtain ⟨pieces, hcut⟩ := exists_isCut text
    exact ⟨pieces, hcut, fun pieces' hcut' => hcut'.unique hcut⟩

/-- A piece that is given may hold a dot, and then it is no word. -/
example : parse "a..b-c" = .error (.emptySegment "a..b-c") ∧
    ofSegments ["a.b", ""] = .error (.invalidSegment "a.b") := by decide

end Name

end NamespaceControl
