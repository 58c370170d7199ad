import NamespaceControl.Name

/-!
# Names and their texts

A name is read back from its written form, so no two names are written alike.
-/

namespace NamespaceControl

variable {segments : List String} {a b n : Name}

/-! ## Segments in a text -/

/-- Segments in front of another one: each has its dot behind it. -/
def leading (segments : List String) : String := String.join (segments.map (· ++ "."))

/-- Segments behind another one: each has its dot in front of it. -/
def trailing (segments : List String) : String := String.join (segments.map ("." ++ ·))

/-- Parts that are joined go on behind the first of them. -/
theorem Text.intercalate_cons (sep s : String) (after : List String) :
    sep.intercalate (s :: after) = s ++ String.join (after.map (sep ++ ·)) := by
  induction after generalizing s with
  | nil => simp
  | cons next after ih =>
    rw [String.intercalate_cons_cons, ih, List.map_cons, String.join_cons]
    simp only [String.append_assoc]

/-- A written form goes on behind its first segment. -/
theorem dotted_cons (s : String) (after : List String) :
    dotted (s :: after) = s ++ trailing after := Text.intercalate_cons "." s after

/-- A written form is what stands in front of a segment, that segment, and what stands behind
it. -/
theorem dotted_append_cons (before : List String) (s : String) (after : List String) :
    dotted (before ++ s :: after) = leading before ++ (s ++ trailing after) := by
  induction before with
  | nil => simp [dotted_cons, leading]
  | cons first before ih =>
    rw [List.cons_append, dotted, String.intercalate_cons_of_ne_nil (by simp), ← dotted, ih,
      leading, leading, List.map_cons, String.join_cons]
    simp only [String.append_assoc]

/-- The pieces of a list are those that the library cuts it into. -/
theorem Text.pieces_eq_splitOn {α : Type} [DecidableEq α] (sep : α) (text : List α) :
    Text.pieces sep text = text.splitOn sep := by
  induction text with
  | nil => simp [Text.pieces]
  | cons x rest ih =>
    rw [List.splitOn_cons_eq_if_modifyHead, ← ih]
    by_cases hx : x = sep
    · subst hx
      simp [Text.pieces]
    · obtain ⟨piece, more, hrest⟩ := List.exists_cons_of_ne_nil (Text.pieces_ne_nil sep rest)
      rw [Text.pieces_cons_of_ne hx hrest, hrest]
      simp [hx]

/-- The characters of words, one by one. -/
theorem isWordChar_iff {c : Char} : isWordChar c = true ↔
    ('A' ≤ c ∧ c ≤ 'Z') ∨ ('a' ≤ c ∧ c ≤ 'z') ∨ ('0' ≤ c ∧ c ≤ '9') ∨ c = '_' := by
  have hword : isWordChar c = (((decide ('A' ≤ c ∧ c ≤ 'Z') ||
      decide ('a' ≤ c) && decide (c ≤ 'z')) || decide ('0' ≤ c) && decide (c ≤ '9')) ||
        c == '_') := rfl
  simp [hword, or_assoc]

/-- The codes of the characters of words. -/
theorem toNat_of_isWordChar {c : Char} (h : isWordChar c = true) :
    (65 ≤ c.toNat ∧ c.toNat ≤ 90) ∨ (97 ≤ c.toNat ∧ c.toNat ≤ 122) ∨
      (48 ≤ c.toNat ∧ c.toNat ≤ 57) ∨ c.toNat = 95 := by
  rcases isWordChar_iff.mp h with h | h | h | rfl
  · exact Or.inl h
  · exact Or.inr (Or.inl h)
  · exact Or.inr (Or.inr (Or.inl h))
  · exact Or.inr (Or.inr (Or.inr rfl))

/-- No segment holds a dot. -/
theorem dot_not_mem_of_isSegment {s : String} (h : IsSegment s) : '.' ∉ s.toList := fun hdot =>
  absurd (h.2 '.' hdot) (by decide)

/-- Parts that do not hold the separator are the pieces of what they are joined to. -/
theorem Text.pieces_intercalate {sep : Char} {parts : List String} (hne : parts ≠ [])
    (h : ∀ s ∈ parts, sep ∉ s.toList) :
    (Text.pieces sep ((String.singleton sep).intercalate parts).toList).map String.ofList =
      parts := by
  have hparts : ∀ piece ∈ parts.map String.toList, sep ∉ piece := by
    intro piece hpiece
    obtain ⟨s, hs, rfl⟩ := List.mem_map.mp hpiece
    exact h s hs
  have htext : ((String.singleton sep).intercalate parts).toList =
      [sep].intercalate (parts.map String.toList) := by
    rw [String.toList_intercalate, String.toList_singleton]
  rw [Text.pieces_eq_splitOn, htext, List.splitOn_intercalate sep hparts (by simpa using hne),
    List.map_map]
  simp [Function.comp_def]

/-- The pieces of a written form between its dots are what is joined, if that holds no dots. -/
theorem pieces_dotted (hne : segments ≠ []) (h : ∀ s ∈ segments, '.' ∉ s.toList) :
    (Text.pieces '.' (dotted segments).toList).map String.ofList = segments :=
  Text.pieces_intercalate hne h

/-- A written form is not empty. -/
theorem dotted_ne_empty (hne : segments ≠ []) (h : ∀ s ∈ segments, IsSegment s) :
    dotted segments ≠ "" := by
  intro hempty
  have hpieces := pieces_dotted hne fun s hs => dot_not_mem_of_isSegment (h s hs)
  rw [hempty] at hpieces
  have hmem : "" ∈ segments := by
    rw [← hpieces]
    simp [Text.pieces]
  exact (h "" hmem).1 rfl

/-! ## Names in a text -/

namespace Name

/-- The segments of a name make that name and no other. -/
theorem ofSegments_eq_ok_iff : ofSegments segments = .ok n ↔ n.segments = segments := by
  unfold ofSegments
  split
  · rw [Except.ok.injEq]
    constructor
    · rintro rfl
      rfl
    · exact fun h => ext_segments h.symm
  · next hno =>
    simp only [reduceCtorEq, false_iff]
    rintro rfl
    exact hno ⟨n.segments_ne_nil, n.isSegment⟩

/-- A name is read back from its written form. -/
theorem parse_text (n : Name) : parse n.text = .ok n := by
  have htext : n.text ≠ "" := dotted_ne_empty n.segments_ne_nil n.isSegment
  have hpieces : (Text.pieces '.' n.text.toList).map String.ofList = n.segments :=
    pieces_dotted n.segments_ne_nil fun s hs => dot_not_mem_of_isSegment (n.isSegment s hs)
  unfold parse
  rw [if_neg htext, hpieces]
  exact ofSegments_eq_ok_iff.mpr rfl

/-- A written form has the characters of words, and dots. -/
theorem isWordChar_or_dot {c : Char} (h : c ∈ n.text.toList) : isWordChar c = true ∨ c = '.' := by
  obtain ⟨s, more, hn⟩ := List.exists_cons_of_ne_nil n.segments_ne_nil
  have hsegment : ∀ w ∈ s :: more, IsSegment w := hn ▸ n.isSegment
  rw [List.forall_mem_cons] at hsegment
  rw [text, hn, dotted_cons, String.toList_append, List.mem_append, trailing, String.toList_join,
    List.flatMap_map, List.mem_flatMap] at h
  rcases h with h | ⟨w, hw, h⟩
  · exact Or.inl (hsegment.1.2 c h)
  · rw [String.toList_append, List.mem_append] at h
    rcases h with h | h
    · exact Or.inr (by simpa using h)
    · exact Or.inl ((hsegment.2 w hw).2 c h)

/-- A written form is one line. -/
theorem lineFeed_not_mem_text (n : Name) : '\n' ∉ n.text.toList := by
  intro h
  rcases n.isWordChar_or_dot h with h | h
  · exact absurd h (by decide)
  · exact absurd h (by decide)

/-- A written form ends in a character of a word. -/
theorem exists_getLast?_text (n : Name) :
    ∃ c, n.text.toList.getLast? = some c ∧ isWordChar c = true := by
  obtain ⟨front, s, hn⟩ : ∃ front s, n.segments = front ++ [s] :=
    ⟨_, _, (List.dropLast_concat_getLast n.segments_ne_nil).symm⟩
  have hs : IsSegment s := n.isSegment s (by simp [hn])
  have htext : n.text.toList = (leading front).toList ++ s.toList := by
    simp [text, hn, dotted_append_cons, trailing]
  have hne : s.toList ≠ [] := fun h => hs.1 (String.toList_eq_nil_iff.mp h)
  refine ⟨s.toList.getLast hne, ?_, hs.2 _ (List.getLast_mem hne)⟩
  rw [htext, List.getLast?_append, List.getLast?_eq_some_getLast hne, Option.some_or]

/-- Names that are written alike are the same. -/
theorem text_injective (h : a.text = b.text) : a = b := by
  have hparse : (Except.ok a : Except NameError Name) = .ok b := by
    rw [← parse_text a, ← parse_text b, h]
  exact Except.ok.inj hparse

/-- The text of a name is in a list of texts of names exactly if the name is in that of the
names. -/
theorem text_mem_map_iff {names : List Name} : n.text ∈ names.map text ↔ n ∈ names := by
  constructor
  · intro h
    obtain ⟨m, hm, hmn⟩ := List.mem_map.mp h
    exact text_injective hmn ▸ hm
  · exact List.mem_map_of_mem

end Name

end NamespaceControl
