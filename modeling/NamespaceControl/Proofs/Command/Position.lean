import Mathlib.Data.List.DropRight
import NamespaceControl.Proofs.Command.Tokenization

/-!
# Where tokens stand

A source keeps its place as it reads. What it comes to can be told from what is read: behind a text
the line is told by its line feeds, and the column by what stands behind the last of them
(`Place.afterAll_start`). A token stands behind what the tokens before it cover
(`Source.place_skip_of_ne_nil`). Only at the end of the text does the place go on without the text:
each read moves it on by one, and so did the run at the end of the text, if there is one, when it
looked for more of it (`Source.place_skip_of_nil`).
-/

namespace NamespaceControl.Command

/-! ## Places behind a text -/

/-- What stands behind the last line feed of a text. -/
def lastLine (text : List Char) : List Char := text.rtakeWhile (· ≠ '\n')

/-- Nothing stands behind a line feed at the end. -/
theorem lastLine_append_lineFeed (text : List Char) : lastLine (text ++ ['\n']) = [] :=
  List.rtakeWhile_concat_neg _ _ _ (by simp)

/-- Any other character at the end goes on with the last line. -/
theorem lastLine_append_of_ne (text : List Char) {c : Char} (hc : c ≠ '\n') :
    lastLine (text ++ [c]) = lastLine text ++ [c] :=
  List.rtakeWhile_concat_pos _ _ _ (by simpa using hc)

namespace Place

/-- The place behind a text and more of it. -/
theorem afterAll_append (p : Place) (before more : List Char) :
    p.afterAll (before ++ more) = (p.afterAll before).afterAll more := List.foldl_append

/-- Behind a text, the line is the number of its line feeds, counted from one, and the column is the
length of its last line. -/
theorem afterAll_start (text : List Char) :
    start.afterAll text = ⟨1 + text.count '\n', (lastLine text).length⟩ := by
  induction text using List.reverseRecOn with
  | nil => rfl
  | append_singleton text c ih =>
    rw [afterAll_append, ih, List.count_append]
    by_cases hc : c = '\n'
    · subst hc
      rw [lastLine_append_lineFeed]
      rfl
    · rw [lastLine_append_of_ne text hc]
      simp [afterAll, after, hc]

/-- A text without line feeds leaves the line. -/
theorem afterAll_of_not_mem {text : List Char} (p : Place) (h : '\n' ∉ text) :
    p.afterAll text = ⟨p.line, p.column + text.length⟩ := by
  induction text generalizing p with
  | nil => rfl
  | cons c text ih =>
    rw [List.mem_cons, not_or] at h
    show (p.after c).afterAll text = _
    rw [ih (p.after c) h.2, after, if_neg (Ne.symm h.1), List.length_cons]
    simp only [Place.mk.injEq, true_and]
    omega

end Place

/-! ## Places behind tokens -/

/-- A token that goes on as far as it can. -/
def Token.isRun (t : Token) : Bool := t.isBlank || t.isWord

/-- A word goes on as far as it can, whether it is reserved or not. -/
theorem Token.isRun_ofWord (word : String) : (ofWord word).isRun = true := by
  unfold ofWord
  split
  · rfl
  · rfl

/-- What lexemes cover of a text. -/
def covered (lexemes : List Lexeme) : List Char := lexemes.flatMap (·.token.source.toList)

/-- What lexemes cover, and then what more of them do. -/
theorem covered_append (before more : List Lexeme) :
    covered (before ++ more) = covered before ++ covered more := List.flatMap_append

namespace Source

variable {s : Source} {n : Nat}

/-- A token stands where the source begins. -/
theorem position_next (s : Source) : s.next.1.position = s.place.next := by
  obtain ⟨rest, place⟩ := s
  cases rest with
  | nil => rfl
  | cons c rest =>
    simp only [next]
    split
    · rfl
    · split
      · rfl
      · split
        · rfl
        · rfl

/-- The place behind a run is the one behind its characters, and one further at the end of the
text. -/
theorem place_takeRun (s : Source) (inClass : Char → Bool) :
    (s.takeRun inClass).2.place =
      if (s.takeRun inClass).2.rest = [] then
        (s.place.afterAll (s.takeRun inClass).1.toList).pastEnd
      else s.place.afterAll (s.takeRun inClass).1.toList := by
  simp only [takeRun, String.toList_ofList, List.isEmpty_iff]

/-- The place behind a token is the one behind its source, and one further if it is a run that
comes to the end of the text. -/
theorem place_next (h : s.rest ≠ []) :
    s.next.2.place =
      if s.next.1.token.isRun = true ∧ s.next.2.rest = [] then
        (s.place.afterAll s.next.1.token.source.toList).pastEnd
      else s.place.afterAll s.next.1.token.source.toList := by
  obtain ⟨rest, place⟩ := s
  obtain ⟨c, chars, rfl⟩ := List.exists_cons_of_ne_nil h
  simp only [next]
  split
  · simp [place_takeRun, Token.isRun, Token.isBlank, Token.source]
  · split
    · simp [place_takeRun, Token.isRun_ofWord]
    · split
      · next hdot =>
        subst hdot
        simp [Token.isRun, Token.isBlank, Token.isWord, Token.source, Place.afterAll]
      · simp [Token.isRun, Token.isBlank, Token.isWord, Token.source, Place.afterAll]

/-- A token before the end of the input stands behind what the tokens before it cover. -/
theorem position_of_readAll {before after : List Lexeme} {l : Lexeme}
    (h : s.readAll.1 = before ++ l :: after) (hl : l.token ≠ .endOfInput) :
    l.position = (s.place.afterAll (covered before)).next := by
  induction before generalizing s with
  | nil =>
    have hfirst : s.readAll.1.head? = some s.next.1 := by
      by_cases hs : s.rest = []
      · rw [readAll_of_nil hs, List.head?_cons]
      · rw [readAll_of_ne_nil hs, List.head?_cons]
    obtain rfl : l = s.next.1 := by simpa [h] using hfirst
    exact position_next s
  | cons first before ih =>
    -- more comes behind the first token, so that it has not looked past the end
    have hs : s.rest ≠ [] := by
      intro hs
      rw [readAll_of_nil hs] at h
      simpa using congrArg List.length h
    rw [readAll_of_ne_nil hs, List.cons_append] at h
    obtain ⟨rfl, hmore⟩ := List.cons.inj h
    have hnext : s.next.2.rest ≠ [] := by
      intro hnil
      have hend := token_next_eq_endOfInput_iff.mpr hnil
      have hmem : l ∈ s.next.2.readAll.1 := by simp [hmore]
      rw [readAll_of_nil hnil, List.mem_singleton] at hmem
      exact hl (hmem ▸ hend)
    rw [ih hmore, place_next hs, if_neg fun hrun => hnext hrun.2, ← Place.afterAll_append]
    rfl

/-- Where nothing is left, nothing more is left behind any reads. -/
theorem rest_skip_of_nil (h : s.rest = []) (n : Nat) : (s.skip n).rest = [] := by
  induction n generalizing s with
  | zero => exact h
  | succ n ih =>
    refine ih ?_
    rw [next, h]

/-- What is left behind lexemes before the end is what they do not cover. -/
theorem rest_eq_covered_append (h : ∀ l ∈ s.read n, l.token ≠ .endOfInput) :
    s.rest = covered (s.read n) ++ (s.skip n).rest := by
  induction n generalizing s with
  | zero => rfl
  | succ n ih =>
    rw [read, List.forall_mem_cons] at h
    obtain ⟨-, hrest, -⟩ := cut_next (mt token_next_eq_endOfInput_iff.mpr h.1)
    rw [hrest, ih h.2, ← List.append_assoc]
    rfl

/-- As long as something is left, the place is the one behind what is covered. -/
theorem place_skip_of_ne_nil (h : (s.skip n).rest ≠ []) :
    (s.skip n).place = s.place.afterAll (covered (s.read n)) := by
  induction n generalizing s with
  | zero => rfl
  | succ n ih =>
    have hs : s.rest ≠ [] := fun hnil => h (rest_skip_of_nil hnil (n + 1))
    have hnext : s.next.2.rest ≠ [] := fun hnil => h (rest_skip_of_nil hnil n)
    rw [skip, ih h, place_next hs, if_neg fun hrun => hnext hrun.2, ← Place.afterAll_append]
    rfl

/-- At the end of the text the place is the one behind all of it, and one further if the last token
is a run. -/
theorem place_skip_of_nil (h : ∀ l ∈ s.read n, l.token ≠ .endOfInput)
    (hend : (s.skip n).rest = []) :
    (s.skip n).place =
      if (s.read n).getLast?.any (·.token.isRun) then (s.place.afterAll s.rest).pastEnd
      else s.place.afterAll s.rest := by
  rw [rest_eq_covered_append h, hend, List.append_nil]
  cases n with
  | zero => rfl
  | succ n =>
    -- up to the last token something is left, so that no token before it has looked past the end
    have hlast : (s.skip n).rest ≠ [] := by
      refine mt token_next_eq_endOfInput_iff.mpr (h _ ?_)
      simp [s.read_succ]
    rw [s.skip_succ] at hend
    rw [s.skip_succ, place_next hlast, place_skip_of_ne_nil hlast, s.read_succ, covered_append,
      List.getLast?_concat, ← Place.afterAll_append]
    simp [hend, covered]

/-- What is read in front of a lexeme, and that lexeme. -/
theorem read_eq_append_cons {before after : List Lexeme} {l : Lexeme}
    (h : s.read n = before ++ l :: after) :
    before = s.read before.length ∧ l = (s.skip before.length).next.1 := by
  have hn : n = before.length + (after.length + 1) := by
    have hlength := congrArg List.length h
    rwa [length_read, List.length_append, List.length_cons] at hlength
  rw [hn, read_add, read] at h
  obtain ⟨hbefore, hcons⟩ := List.append_inj h (length_read s _)
  exact ⟨hbefore.symm, (List.cons.inj hcons).1.symm⟩

/-- **Positions are exact.** The tokens of a text cover it. Each stands on the line that is told by
the line feeds in front of it, and at the character that is told by what stands behind the last of
these. From then on every read finds the end of the input, on the last line of the text, behind its
last character and one further each time; if the last token is a run, it has looked past the end
once before. -/
theorem positions_read (text : String) :
    ∃ n, let lexemes := (ofText text).read n
      (∀ l ∈ lexemes, l.token ≠ .endOfInput) ∧ covered lexemes = text.toList ∧
      (∀ before l after, lexemes = before ++ l :: after →
        l.position = ⟨1 + (covered before).count '\n',
          1 + (lastLine (covered before)).length⟩) ∧
      ∀ extra, (ofText text).read (n + extra) = lexemes ++ (List.range extra).map fun j =>
        ⟨.endOfInput, ⟨1 + text.toList.count '\n', (lastLine text.toList).length + (j + 1) +
          if lexemes.getLast?.any (·.token.isRun) then 1 else 0⟩⟩ := by
  obtain ⟨n, -, hread, hend⟩ := (ofText text).exists_read_to_end
  refine ⟨n, hread, ?_, ?_, ?_⟩
  · have hcovered := rest_eq_covered_append hread
    rw [hend, List.append_nil] at hcovered
    exact hcovered.symm
  · intro before l after hsplit
    obtain ⟨hbefore, hl⟩ := read_eq_append_cons hsplit
    have hne : ((ofText text).skip before.length).rest ≠ [] := by
      refine mt token_next_eq_endOfInput_iff.mpr ?_
      rw [← hl]
      exact hread l (by simp [hsplit])
    have hplace : ((ofText text).skip before.length).place =
        ⟨1 + (covered before).count '\n', (lastLine (covered before)).length⟩ := by
      rw [place_skip_of_ne_nil hne, ← hbefore]
      exact Place.afterAll_start (covered before)
    rw [hl, position_next, hplace, Place.next, Nat.add_comm 1 (lastLine _).length]
  · intro extra
    have hplace : (ofText text).place.afterAll (ofText text).rest =
        ⟨1 + text.toList.count '\n', (lastLine text.toList).length⟩ :=
      Place.afterAll_start text.toList
    rw [read_add, read_of_nil hend, place_skip_of_nil hread hend, hplace]
    refine congrArg _ (List.map_congr_left fun j _ => ?_)
    split
    · simp only [Place.pastEnd]
      congr 2
      omega
    · rfl

/-- A line feed begins a line within its run, and the word at the end has looked for more of it. -/
example : ((ofText "a\n b").read 5).map (·.position) =
    [⟨1, 1⟩, ⟨1, 2⟩, ⟨2, 2⟩, ⟨2, 4⟩, ⟨2, 5⟩] := by decide

end Source

end NamespaceControl.Command
