import Mathlib.Data.List.TakeWhile
import NamespaceControl.Command.Source
import NamespaceControl.Proofs.Name.Text

/-!
# How a text is cut into tokens

The tokens of a text up to the end of the input are a cut of it (`Cuts`): their sources make up
the text, and none of them could go on with the character after it. There is only one such cut
(`Source.tokens_eq_iff`), so what stands in a text can be said without reading it.
-/

namespace NamespaceControl.Command

/-- No character of a word is blank. -/
theorem isBlank_eq_false_of_isWordChar {c : Char} (h : isWordChar c = true) :
    Text.isBlank c = false := by
  have hc := toNat_of_isWordChar h
  simp only [Text.isBlank, Text.blankRanges, List.any_cons, List.any_nil, Bool.or_false,
    Bool.or_eq_false_iff, Bool.and_eq_false_iff, decide_eq_false_iff_not]
  omega

/-- A blank belongs to no word. -/
theorem isWordChar_eq_false_of_isBlank {c : Char} (h : Text.isBlank c = true) :
    isWordChar c = false := by
  rw [← Bool.not_eq_true]
  intro hc
  rw [isBlank_eq_false_of_isWordChar hc] at h
  cases h

/-! ## Tokens of a text -/

namespace Token

/-- The tokens that stand in a text, the end of which is not in it. -/
def IsSpelled : Token → Prop
  | keyword _ | dot => True
  | identifier word => IsSegment word ∧ Keyword.ofText? word = none
  | blank run => run ≠ "" ∧ ∀ c ∈ run.toList, Text.isBlank c = true
  | endOfInput => False
  | illegal c => Text.isBlank c = false ∧ isWordChar c = false ∧ c ≠ '.'

/-- True if a token would go on with a character after it. -/
def goesOn : Token → Char → Bool
  | keyword _ | identifier _ => isWordChar
  | blank _ => Text.isBlank
  | dot | endOfInput | illegal _ => fun _ => false

/-- The written form of a keyword is a word. -/
theorem isSegment_text (k : Keyword) : IsSegment k.text := by
  cases k <;> decide

/-- A word stands in a text, whether it is reserved or not. -/
theorem isSpelled_ofWord {word : String} (h : IsSegment word) : (ofWord word).IsSpelled := by
  unfold ofWord
  split
  · trivial
  · next hword => exact ⟨h, hword⟩

/-- A word goes on with the characters of a word. -/
theorem goesOn_ofWord (word : String) : (ofWord word).goesOn = isWordChar := by
  unfold ofWord
  split <;> rfl

/-- A token of a text has a source. -/
theorem source_ne_nil {t : Token} (h : t.IsSpelled) : t.source.toList ≠ [] := by
  rw [Ne, String.toList_eq_nil_iff]
  cases t with
  | keyword k => exact (isSegment_text k).1
  | identifier word => exact h.1.1
  | dot => decide
  | blank run => exact h.1
  | endOfInput => exact h.elim
  | illegal c => exact String.singleton_ne_empty

/-- A keyword is what its written form is. -/
theorem ofWord_text (k : Keyword) : ofWord k.text = keyword k := by
  have h : Keyword.ofText? k.text = some k := Keyword.ofText?_eq_some_iff.mpr rfl
  simp only [ofWord, h]

/-- A word that is not reserved is an identifier. -/
theorem ofWord_eq_identifier {word : String} (h : Keyword.ofText? word = none) :
    ofWord word = identifier word := by
  simp only [ofWord, h]

end Token

/-- The tokens cut the text: their sources make it up, each is as long as it can be, and the last
one is the end of the input. -/
inductive Cuts : List Char → List Token → Prop where
  /-- There is nothing to cut. -/
  | nil : Cuts [] [.endOfInput]
  /-- The first token is cut off. -/
  | cons {t : Token} {text : List Char} {ts : List Token} (spelled : t.IsSpelled)
      (stops : ∀ c ∈ text.head?, t.goesOn c = false) (more : Cuts text ts) :
      Cuts (t.source.toList ++ text) (t :: ts)

/-- What is cut off stands in the text, but for the end of the input. -/
theorem Cuts.isSpelled {text : List Char} {ts : List Token} {t : Token} (h : Cuts text ts)
    (ht : t ∈ ts) (hend : t ≠ .endOfInput) : t.IsSpelled := by
  induction h with
  | nil => exact absurd (List.mem_singleton.mp ht) hend
  | cons spelled _ _ ih =>
    rcases List.mem_cons.mp ht with rfl | ht
    · exact spelled
    · exact ih ht

/-- Nothing is cut off behind the end of the input. -/
theorem Cuts.eq_nil_of_endOfInput {text : List Char} {ts : List Token}
    (h : Cuts text (.endOfInput :: ts)) : ts = [] := by
  cases h with
  | nil => rfl
  | cons spelled => exact spelled.elim

/-! ## Reading one token -/

namespace Source

variable {s : Source}

/-- A run ends where a character stands that is not of the class. -/
theorem takeRun_append {inClass : Char → Bool} {run rest : List Char} (place : Place)
    (hrun : ∀ c ∈ run, inClass c = true) (hrest : ∀ c ∈ rest.head?, inClass c = false) :
    ((⟨run ++ rest, place⟩ : Source).takeRun inClass).1 = String.ofList run ∧
      ((⟨run ++ rest, place⟩ : Source).takeRun inClass).2.rest = rest := by
  have htake : rest.takeWhile inClass = [] := by
    cases rest with
    | nil => rfl
    | cons c rest => rw [List.takeWhile_cons, hrest c rfl, if_neg Bool.false_ne_true]
  have hdrop : rest.dropWhile inClass = rest := by
    cases rest with
    | nil => rfl
    | cons c rest => rw [List.dropWhile_cons, hrest c rfl, if_neg Bool.false_ne_true]
  constructor
  · simp only [takeRun, List.takeWhile_append_of_pos hrun, htake, List.append_nil]
  · simp only [takeRun, List.dropWhile_append_of_pos hrun, hdrop]

/-- A run stands at the front of the text, is of the class, and is as long as it can be. -/
theorem takeRun_spec (s : Source) (inClass : Char → Bool) :
    s.rest = (s.takeRun inClass).1.toList ++ (s.takeRun inClass).2.rest ∧
      (∀ c ∈ (s.takeRun inClass).1.toList, inClass c = true) ∧
      ∀ c ∈ (s.takeRun inClass).2.rest.head?, inClass c = false := by
  simp only [takeRun, String.toList_ofList]
  refine ⟨List.takeWhile_append_dropWhile.symm, fun c => List.mem_takeWhile_imp, ?_⟩
  intro c hc
  have hnot := List.head?_dropWhile_not inClass s.rest
  rw [Option.mem_def.mp hc] at hnot
  exact hnot

/-- A run of a class is not empty if the text begins with a character of the class. -/
theorem takeRun_ne_empty {inClass : Char → Bool} {c : Char} {chars : List Char} {place : Place}
    (hc : inClass c = true) : ((⟨c :: chars, place⟩ : Source).takeRun inClass).1 ≠ "" := by
  rw [Ne, ← String.toList_eq_nil_iff, takeRun, String.toList_ofList, List.takeWhile_cons,
    if_pos hc]
  exact List.cons_ne_nil _ _

/-- A run of blanks is read as one token. -/
theorem next_blank {run text : List Char} (place : Place) (hne : run ≠ [])
    (hrun : ∀ c ∈ run, Text.isBlank c = true) (htext : ∀ c ∈ text.head?, Text.isBlank c = false) :
    (⟨run ++ text, place⟩ : Source).next.1.token = .blank (String.ofList run) ∧
      (⟨run ++ text, place⟩ : Source).next.2.rest = text := by
  obtain ⟨c, chars, rfl⟩ := List.exists_cons_of_ne_nil hne
  have hc : Text.isBlank c = true := hrun c List.mem_cons_self
  obtain ⟨hfirst, hrest⟩ := takeRun_append place hrun htext
  rw [List.cons_append] at hfirst hrest ⊢
  simp only [next, if_pos hc]
  exact ⟨congrArg Token.blank hfirst, hrest⟩

/-- A word is read as one token. -/
theorem next_word {run text : List Char} (place : Place) (hne : run ≠ [])
    (hrun : ∀ c ∈ run, isWordChar c = true) (htext : ∀ c ∈ text.head?, isWordChar c = false) :
    (⟨run ++ text, place⟩ : Source).next.1.token = .ofWord (String.ofList run) ∧
      (⟨run ++ text, place⟩ : Source).next.2.rest = text := by
  obtain ⟨c, chars, rfl⟩ := List.exists_cons_of_ne_nil hne
  have hc : isWordChar c = true := hrun c List.mem_cons_self
  have hblank : ¬ Text.isBlank c = true := by
    rw [isBlank_eq_false_of_isWordChar hc]
    exact Bool.false_ne_true
  obtain ⟨hfirst, hrest⟩ := takeRun_append place hrun htext
  rw [List.cons_append] at hfirst hrest ⊢
  simp only [next, if_neg hblank, if_pos hc]
  exact ⟨congrArg Token.ofWord hfirst, hrest⟩

/-- A token that a text can have is read if the text goes on behind it with a character that it
would not go on with. -/
theorem next_of_cut {t : Token} {text : List Char} (hs : s.rest = t.source.toList ++ text)
    (hspelled : t.IsSpelled) (hstops : ∀ c ∈ text.head?, t.goesOn c = false) :
    s.next.1.token = t ∧ s.next.2.rest = text := by
  obtain ⟨rest, place⟩ := s
  obtain rfl : rest = t.source.toList ++ text := hs
  -- a word is read in the same way, whether it is reserved or not
  have hword : ∀ word, IsSegment word → (∀ c ∈ text.head?, isWordChar c = false) →
      (⟨word.toList ++ text, place⟩ : Source).next.1.token = .ofWord word ∧
        (⟨word.toList ++ text, place⟩ : Source).next.2.rest = text := by
    intro word hsegment hstops
    have hread := next_word place
      (fun h => hsegment.1 (String.toList_eq_nil_iff.mp h)) hsegment.2 hstops
    rwa [String.ofList_toList] at hread
  cases t with
  | keyword k =>
    have hread := hword k.text (Token.isSegment_text k) hstops
    rwa [Token.ofWord_text] at hread
  | identifier word =>
    have hread := hword word hspelled.1 hstops
    rwa [Token.ofWord_eq_identifier hspelled.2] at hread
  | dot => exact ⟨rfl, rfl⟩
  | blank run =>
    have hread := next_blank place
      (fun h => hspelled.1 (String.toList_eq_nil_iff.mp h)) hspelled.2 hstops
    rwa [String.ofList_toList] at hread
  | endOfInput => exact hspelled.elim
  | illegal c =>
    obtain ⟨hblank, hword, hdot⟩ := hspelled
    have hsource : (Token.illegal c).source.toList = [c] := String.toList_singleton c
    rw [hsource, List.singleton_append]
    simp [next, hblank, hword, hdot]

/-- What is read first is a token that a text can have, its source stands at the front of the
text, and it does not go on with what is left. -/
theorem cut_next (h : s.rest ≠ []) :
    s.next.1.token.IsSpelled ∧ s.rest = s.next.1.token.source.toList ++ s.next.2.rest ∧
      ∀ c ∈ s.next.2.rest.head?, s.next.1.token.goesOn c = false := by
  obtain ⟨rest, place⟩ := s
  obtain ⟨c, chars, rfl⟩ := List.exists_cons_of_ne_nil h
  by_cases hblank : Text.isBlank c = true
  · obtain ⟨hrest, hrun, hstops⟩ := takeRun_spec ⟨c :: chars, place⟩ Text.isBlank
    simp only [next, if_pos hblank]
    exact ⟨⟨takeRun_ne_empty hblank, hrun⟩, hrest, hstops⟩
  by_cases hword : isWordChar c = true
  · obtain ⟨hrest, hrun, hstops⟩ := takeRun_spec ⟨c :: chars, place⟩ isWordChar
    simp only [next, if_neg hblank, if_pos hword, Token.source_ofWord, Token.goesOn_ofWord]
    exact ⟨Token.isSpelled_ofWord ⟨takeRun_ne_empty hword, hrun⟩, hrest, hstops⟩
  by_cases hdot : c = '.'
  · subst hdot
    simp only [next, if_neg hblank, if_neg hword, if_true]
    refine ⟨trivial, ?_, fun d _ => rfl⟩
    simp [Token.source]
  · simp only [next, if_neg hblank, if_neg hword, if_neg hdot]
    refine ⟨⟨?_, ?_, hdot⟩, ?_, fun d _ => rfl⟩
    · rwa [Bool.not_eq_true] at hblank
    · rwa [Bool.not_eq_true] at hword
    · rw [Token.source, String.toList_singleton, List.singleton_append]

/-! ## Reading some tokens -/

/-- As many lexemes are read as are asked for. -/
@[simp] theorem length_read (s : Source) (n : Nat) : (s.read n).length = n := by
  induction n generalizing s with
  | zero => rfl
  | succ n ih => rw [read, List.length_cons, ih]

/-- What is left behind the next lexemes. -/
def skip (s : Source) : Nat → Source
  | 0 => s
  | count + 1 => s.next.2.skip count

/-- Some lexemes, and then those of what is left. -/
theorem read_add (s : Source) (n m : Nat) : s.read (n + m) = s.read n ++ (s.skip n).read m := by
  induction n generalizing s with
  | zero => simp [read, skip]
  | succ n ih => rw [Nat.add_right_comm, read, ih, read, skip, List.cons_append]

/-- What is left behind some lexemes and then more. -/
theorem skip_add (s : Source) (n m : Nat) : s.skip (n + m) = (s.skip n).skip m := by
  induction n generalizing s with
  | zero => simp [skip]
  | succ n ih => rw [Nat.add_right_comm, skip, ih, skip]

/-- The last of some lexemes is the next one behind the others. -/
theorem read_succ (s : Source) (n : Nat) : s.read (n + 1) = s.read n ++ [(s.skip n).next.1] :=
  s.read_add n 1

/-- What is left behind the last of some lexemes. -/
theorem skip_succ (s : Source) (n : Nat) : s.skip (n + 1) = (s.skip n).next.2 := s.skip_add n 1

/-! ## Reading all tokens -/

/-- The tokens of a text before the end of the input, and that end. -/
def tokens (s : Source) : List Token := s.readAll.1.map (·.token)

/-- At the end of the text there is only that end. -/
theorem readAll_of_nil (h : s.rest = []) : s.readAll.1 = [s.next.1] := by
  rw [readAll, if_pos h]

/-- Before the end of the text one lexeme comes after the other. -/
theorem readAll_of_ne_nil (h : s.rest ≠ []) : s.readAll.1 = s.next.1 :: s.next.2.readAll.1 := by
  rw [readAll, if_neg h]

/-- At the end of the text there is only that end. -/
theorem tokens_of_nil (h : s.rest = []) : s.tokens = [.endOfInput] := by
  rw [tokens, readAll_of_nil h, List.map_singleton, token_next_eq_endOfInput_iff.mpr h]

/-- Before the end of the text one token comes after the other. -/
theorem tokens_of_ne_nil (h : s.rest ≠ []) : s.tokens = s.next.1.token :: s.next.2.tokens := by
  rw [tokens, readAll_of_ne_nil h, List.map_cons]
  rfl

/-- The tokens that are read are a cut of the text. -/
theorem cuts_tokens (s : Source) : Cuts s.rest s.tokens := by
  by_cases h : s.rest = []
  · rw [tokens_of_nil h, h]
    exact .nil
  · obtain ⟨hspelled, hrest, hstops⟩ := cut_next h
    rw [tokens_of_ne_nil h, hrest]
    exact .cons hspelled hstops (cuts_tokens s.next.2)
termination_by s.rest.length
decreasing_by exact length_rest_next h

/-- A cut of the text is what is read. -/
theorem tokens_of_cuts {text : List Char} {ts : List Token} (hs : s.rest = text)
    (h : Cuts text ts) : s.tokens = ts := by
  induction h generalizing s with
  | nil => exact tokens_of_nil hs
  | @cons t text ts spelled stops _ ih =>
    have hne : s.rest ≠ [] := by
      rw [hs]
      exact List.append_ne_nil_of_left_ne_nil (Token.source_ne_nil spelled) text
    obtain ⟨htoken, hrest⟩ := next_of_cut hs spelled stops
    rw [tokens_of_ne_nil hne, htoken, ih hrest]

/-- **Lexing.** A text has one cut, and that is what is read. -/
theorem tokens_eq_iff {ts : List Token} : s.tokens = ts ↔ Cuts s.rest ts := by
  constructor
  · rintro rfl
    exact cuts_tokens s
  · exact tokens_of_cuts rfl

end Source

end NamespaceControl.Command
