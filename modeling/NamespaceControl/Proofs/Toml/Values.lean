import NamespaceControl.Config.Saved
import NamespaceControl.Proofs.Toml.Quoted

/-!
# Written values are read back

Texts, truth values and lists of texts are read from their written forms, unless a mark follows
with which a quoted text could go on (`ReadsValue`). A list of several texts has one on a line, and
what stands between them is passed over.
-/

namespace NamespaceControl.Toml

open Config (writeFlag writeTexts)

variable {depth : Nat} {c : Char} {rest written : List Char} {d : Data}

/-! ## Values -/

/-- What may follow a value is no mark, with which a quoted text could go on. -/
def EndsValue (rest : List Char) : Prop := '"' ∉ rest.head? ∧ '\'' ∉ rest.head?

/-- The characters that a written value can begin with. -/
def valueOpenings : List Char := ['"', '\'', '[', 't', 'f']

/-- A text is the written form of a value: it begins like one, and is read as it whatever may
follow. -/
structure ReadsValue (depth : Nat) (written : List Char) (d : Data) : Prop where
  /-- It begins like a value. -/
  begins : ∃ c ∈ valueOpenings, written.head? = some c
  /-- It is read as the value. -/
  read : ∀ rest, EndsValue rest → value? depth (written ++ rest) = some (d, rest)

/-- A character that is no mark may follow a value. -/
theorem endsValue_cons (h : c ∉ ['"', '\'']) (rest : List Char) : EndsValue (c :: rest) := by
  simp only [List.mem_cons, List.not_mem_nil, or_false, not_or] at h
  simpa [EndsValue, eq_comm] using h

/-- A value begins neither with a character that is passed over nor with a closing bracket. -/
theorem valueOpening_ne (h : c ∈ valueOpenings) :
    c ∉ [' ', '\t', '\n', '\r', '#'] ∧ c ≠ ']' ∧ isSpace c = false := by
  have hall : (valueOpenings.all fun c =>
      !([' ', '\t', '\n', '\r', '#'].contains c) && (c != ']' && !isSpace c)) = true := by
    decide
  simpa using List.all_eq_true.mp hall c h

/-- No space is skipped in front of a value. -/
theorem ReadsValue.stopsAt (h : ReadsValue depth written d) (rest : List Char) :
    StopsAt isSpace (written ++ rest) := by
  obtain ⟨c, hc, hhead⟩ := h.begins
  obtain ⟨more, rfl⟩ := List.head?_eq_some_iff.mp hhead
  exact stopsAt_cons (valueOpening_ne hc).2.2 _

/-- A written text begins with a mark. -/
theorem head?_writeText (text : List Char) :
    (writeText text).head? = some '"' ∨ (writeText text).head? = some '\'' := by
  unfold writeText writeLiteral writeBasic
  repeat' split
  all_goals simp [tripleApostrophe, tripleQuote, writeOneLine]

/-- A text is read from its written form. -/
theorem readsValue_text (depth : Nat) (text : String) :
    ReadsValue depth (writeText text.toList) (.text text) where
  begins := by
    rcases head?_writeText text.toList with h | h
    · exact ⟨'"', by decide, h⟩
    · exact ⟨'\'', by decide, h⟩
  read rest hrest := by
    have hquoted := quoted?_writeText hrest.1 hrest.2 text.toList
    rw [String.ofList_toList] at hquoted
    rcases head?_writeText text.toList with h | h
    · obtain ⟨more, hwritten⟩ := List.head?_eq_some_iff.mp h
      rw [hwritten, List.cons_append] at hquoted ⊢
      cases depth <;> simp [value?, hquoted]
    · obtain ⟨more, hwritten⟩ := List.head?_eq_some_iff.mp h
      rw [hwritten, List.cons_append] at hquoted ⊢
      cases depth <;> simp [value?, hquoted]

/-- A truth value is read from its written form. -/
theorem readsValue_flag (depth : Nat) (b : Bool) :
    ReadsValue depth (writeFlag b) (.flag b) where
  begins := by
    cases b with
    | false => exact ⟨'f', by decide, rfl⟩
    | true => exact ⟨'t', by decide, rfl⟩
  read rest _ := by
    cases b with
    | false => cases depth <;> rfl
    | true => cases depth <;> rfl

/-! ## Lists -/

/-- Nothing is passed over in front of a character that is no space and begins no comment. -/
theorem skipTrivia_cons (h : c ∉ [' ', '\t', '\n', '\r', '#']) (rest : List Char) :
    skipTrivia (c :: rest) = c :: rest := by
  simp only [List.mem_cons, List.not_mem_nil, or_false, not_or] at h
  have hskip : skipSpaceLines (c :: rest) = c :: rest := by
    unfold skipSpaceLines
    split
    · next heq => exact absurd (List.cons.inj heq).1 h.1
    · next heq => exact absurd (List.cons.inj heq).1 h.2.1
    · next heq => exact absurd (List.cons.inj heq).1 h.2.2.1
    · next heq => exact absurd (List.cons.inj heq).1 h.2.2.2.1
    · rfl
  rw [skipTrivia]
  split
  · next heq =>
    rw [hskip] at heq
    exact absurd (List.cons.inj heq).1 h.2.2.2.2
  · exact hskip

/-- Texts that differ in the spaces in front of them leave the same behind what is passed over. -/
theorem skipTrivia_congr {s s' : List Char} (h : skipSpaceLines s = skipSpaceLines s') :
    skipTrivia s = skipTrivia s' := by
  rw [skipTrivia, skipTrivia]
  split
  · next heq =>
    split
    · next heq' =>
      rw [← h, heq] at heq'
      rw [(List.cons.inj heq').2]
    · next hne => exact absurd (h ▸ heq) (hne _)
  · next hne =>
    split
    · next heq' => exact absurd (h ▸ heq') (hne _)
    · exact h

/-- A list is over at its closing bracket. -/
theorem items?_nil {value : Scan Data} {s : List Char} (h : skipTrivia s = ']' :: rest) :
    items? value s = some ([], rest) := by
  rw [items?, h]
  rfl

/-- A value with a comma behind it is an item of a list, and others may follow. -/
theorem items?_cons (h : ReadsValue depth written d) {s left : List Char}
    (hs : skipTrivia s = skipTrivia (written ++ ',' :: left)) (hless : left.length < s.length) :
    items? (value? depth) s =
      (items? (value? depth) left).map fun (more, end') => (d :: more, end') := by
  have hread := h.read (',' :: left) (endsValue_cons (by decide) left)
  have hcomma : skipTrivia (',' :: left) = ',' :: left := skipTrivia_cons (by decide) left
  obtain ⟨c, hc, hhead⟩ := h.begins
  obtain ⟨more, rfl⟩ := List.head?_eq_some_iff.mp hhead
  obtain ⟨hskipped, hbracket, -⟩ := valueOpening_ne hc
  rw [List.cons_append] at hread hs
  rw [items?, hs, skipTrivia_cons hskipped]
  split
  · next heq => exact absurd (List.cons.inj heq).1 hbracket
  · simp only [hread, hcomma]
    exact if_pos hless

/-- A value with the closing bracket behind it is the last item of a list. -/
theorem items?_last (h : ReadsValue depth written d) (left : List Char) :
    items? (value? depth) (written ++ ']' :: left) = some ([d], left) := by
  have hread := h.read (']' :: left) (endsValue_cons (by decide) left)
  have hend : skipTrivia (']' :: left) = ']' :: left := skipTrivia_cons (by decide) left
  obtain ⟨c, hc, hhead⟩ := h.begins
  obtain ⟨more, rfl⟩ := List.head?_eq_some_iff.mp hhead
  obtain ⟨hskipped, hbracket, -⟩ := valueOpening_ne hc
  rw [List.cons_append] at hread ⊢
  rw [items?, skipTrivia_cons hskipped]
  split
  · next heq => exact absurd (List.cons.inj heq).1 hbracket
  · simp only [hread, hend]

/-- The line of an item in a list of several. -/
def itemLine (item : List Char) : List Char :=
  [' ', ' ', ' ', ' '] ++ writeText item ++ [',', '\n']

/-- Items that stand on a line each are read one by one. -/
theorem items?_lines (depth : Nat) (items : List String) (rest : List Char) :
    items? (value? depth) ('\n' :: ((items.map String.toList).flatMap itemLine ++ ']' :: rest)) =
      some (items.map .text, rest) := by
  induction items with
  | nil =>
    refine items?_nil ?_
    have hbreak : skipTrivia ('\n' :: ']' :: rest) = skipTrivia (']' :: rest) :=
      skipTrivia_congr rfl
    exact hbreak.trans (skipTrivia_cons (by decide) rest)
  | cons item items ih =>
    have hline : '\n' :: (((item :: items).map String.toList).flatMap itemLine ++ ']' :: rest) =
        '\n' :: ' ' :: ' ' :: ' ' :: ' ' :: (writeText item.toList ++
          ',' :: '\n' :: ((items.map String.toList).flatMap itemLine ++ ']' :: rest)) := by
      simp [itemLine]
    have hskip : skipTrivia
          ('\n' :: (((item :: items).map String.toList).flatMap itemLine ++ ']' :: rest)) =
        skipTrivia (writeText item.toList ++
          ',' :: '\n' :: ((items.map String.toList).flatMap itemLine ++ ']' :: rest)) := by
      rw [hline]
      exact skipTrivia_congr rfl
    rw [items?_cons (readsValue_text depth item) hskip, ih]
    · rfl
    · rw [hline]
      simp only [List.length_cons, List.length_append]
      omega

/-- A list of texts is read from its written form. -/
theorem readsValue_texts (depth : Nat) (items : List String) :
    ReadsValue (depth + 1) (writeTexts (items.map String.toList)) (.list (items.map .text)) where
  begins := by
    refine ⟨'[', by decide, ?_⟩
    unfold writeTexts
    split
    · rfl
    · rfl
    · rfl
  read rest _ := by
    have hlist : ∀ inner items', items? (value? depth) (inner ++ rest) = some (items', rest) →
        value? (depth + 1) ('[' :: (inner ++ rest)) = some (.list items', rest) := by
      intro inner items' h
      simp [value?, h]
    match items with
    | [] => exact hlist [']'] [] (items?_nil (skipTrivia_cons (by decide) rest))
    | [item] =>
      have hread := items?_last (readsValue_text depth item) rest
      simpa [writeTexts] using hlist (writeText item.toList ++ [']']) _ (by simpa using hread)
    | first :: second :: more =>
      have hread := items?_lines depth (first :: second :: more) rest
      have hwritten : writeTexts ((first :: second :: more).map String.toList) ++ rest =
          '[' :: ('\n' :: ((first :: second :: more).map String.toList).flatMap itemLine ++
            [']'] ++ rest) := by
        have hlines : writeTexts ((first :: second :: more).map String.toList) =
            ['[', '\n'] ++ ((first :: second :: more).map String.toList).flatMap itemLine ++ [']'] :=
          rfl
        rw [hlines]
        simp
      rw [hwritten]
      exact hlist _ _ (by simpa using hread)

end NamespaceControl.Toml
