import Mathlib.Data.List.Chain
import NamespaceControl.Proofs.Command.Cursor
import NamespaceControl.Proofs.Command.Grammar

/-!
# Tokens without gaps

The tokens of a text tell it apart without loss (`Tokenizes`): their sources make it up, each has
the characters of its kind, and no two neighbours could be one. This says of neighbours what a cut
says of each token and the character after it, so there is only one such list of tokens
(`tokenizes_iff_cuts`). It is read to the end with at most one read for each character, and from
there on every read finds the end of the input (`Source.exists_read_to_end`,
`Source.read_of_nil`).
-/

namespace NamespaceControl.Command

variable {t u : Token} {ts : List Token} {text : List Char} {c : Char}

/-! ## Kinds of tokens -/

namespace Token

/-- A run of blanks. -/
def isBlank : Token → Bool
  | blank _ => true
  | keyword _ | identifier _ | dot | endOfInput | illegal _ => false

/-- A word, reserved or not. -/
def isWord : Token → Bool
  | keyword _ | identifier _ => true
  | dot | blank _ | endOfInput | illegal _ => false

/-- Two neighbours are apart if they are not both blanks and not both words. -/
def Apart (t u : Token) : Prop :=
  ¬ (t.isBlank = true ∧ u.isBlank = true) ∧ ¬ (t.isWord = true ∧ u.isWord = true)

/-- A token goes on with the characters of its kind. -/
theorem goesOn_eq_true_iff : t.goesOn c = true ↔
    t.isBlank = true ∧ Text.isBlank c = true ∨ t.isWord = true ∧ isWordChar c = true := by
  cases t <;> simp [goesOn, isBlank, isWord]

/-- The first character of a token is of its kind. -/
theorem kind_of_mem_head? (h : u.IsSpelled) (hc : c ∈ u.source.toList.head?) :
    Text.isBlank c = u.isBlank ∧ isWordChar c = u.isWord := by
  have hmem : c ∈ u.source.toList := List.mem_of_mem_head? hc
  have hkind (hword : isWordChar c = true) : Text.isBlank c = false ∧ isWordChar c = true :=
    ⟨isBlank_eq_false_of_isWordChar hword, hword⟩
  cases u with
  | keyword k => exact hkind ((isSegment_text k).2 c hmem)
  | identifier word => exact hkind (h.1.2 c hmem)
  | dot =>
    obtain rfl : '.' = c := by simpa [source] using hc
    decide
  | blank run =>
    have hblank : Text.isBlank c = true := h.2 c hmem
    exact ⟨hblank, isWordChar_eq_false_of_isBlank hblank⟩
  | endOfInput => exact h.elim
  | illegal d =>
    obtain rfl : d = c := by simpa [source] using hc
    exact ⟨h.1, h.2.1⟩

/-- A word is spelled like one, and it is a keyword exactly if it is a reserved word as a whole. -/
theorem IsSpelled.of_isWord (h : t.IsSpelled) (hword : t.isWord = true) :
    IsSegment t.source ∧ ((∃ k, t = keyword k) ↔ ∃ k : Keyword, t.source = k.text) := by
  cases t with
  | keyword k => exact ⟨isSegment_text k, fun _ => ⟨k, rfl⟩, fun _ => ⟨k, rfl⟩⟩
  | identifier word =>
    refine ⟨h.1, ?_, ?_⟩
    · rintro ⟨k, hk⟩
      cases hk
    · rintro ⟨k, hk⟩
      exact absurd hk (ofText?_eq_none_iff.mp h.2 k)
  | dot | blank _ | endOfInput | illegal _ => cases hword

end Token

/-! ## Tokens of a text -/

/-- The tokens make up the text, each has the characters of its kind, and neighbours are apart. -/
structure Tokenizes (text : String) (ts : List Token) : Prop where
  /-- Their sources, one after the other, are the text. -/
  join_eq : String.join (ts.map (·.source)) = text
  /-- Each of them can stand in a text. -/
  isSpelled : ∀ t ∈ ts, t.IsSpelled
  /-- No two neighbours are both blanks or both words. -/
  apart : ts.IsChain Token.Apart

/-- A token goes no further exactly if it is apart from the one after it. -/
theorem stops_iff_apart (hts : ∀ u ∈ ts, u.IsSpelled) :
    (∀ c ∈ (ts.flatMap (·.source.toList)).head?, t.goesOn c = false) ↔
      ∀ u ∈ ts.head?, t.Apart u := by
  cases ts with
  | nil => simp
  | cons u more =>
    -- the character after the token is the first one of the next token, and tells its kind
    have hu : u.IsSpelled := hts u List.mem_cons_self
    obtain ⟨c, chars, hchars⟩ := List.exists_cons_of_ne_nil (Token.source_ne_nil hu)
    have hhead : u.source.toList.head? = some c := by rw [hchars, List.head?_cons]
    obtain ⟨hblank, hword⟩ := Token.kind_of_mem_head? hu hhead
    have hfirst : ((u :: more).flatMap (·.source.toList)).head? = some c := by
      rw [List.flatMap_cons, hchars]
      rfl
    simp only [hfirst, List.head?_cons, Option.mem_some_iff, forall_eq']
    rw [← Bool.not_eq_true, Token.goesOn_eq_true_iff, hblank, hword, not_or]
    rfl

/-- A cut is made of tokens that are spelled, whose neighbours are apart, and of the end of the
input. -/
theorem cuts_append_endOfInput_iff :
    Cuts text (ts ++ [.endOfInput]) ↔ ts.flatMap (·.source.toList) = text ∧
      (∀ t ∈ ts, t.IsSpelled) ∧ ts.IsChain Token.Apart := by
  induction ts generalizing text with
  | nil =>
    rw [List.nil_append, cuts_endOfInput_iff]
    simp [eq_comm]
  | cons t ts ih =>
    rw [List.cons_append, List.forall_mem_cons, List.isChain_cons]
    constructor
    · intro h
      have ht : t ≠ .endOfInput := by
        rintro rfl
        exact List.append_ne_nil_of_right_ne_nil ts (by simp) h.eq_nil_of_endOfInput
      obtain ⟨hspelled, more, rfl, hstops, hmore⟩ := (cuts_cons_iff ht).mp h
      obtain ⟨rfl, hts, happart⟩ := ih.mp hmore
      exact ⟨rfl, ⟨hspelled, hts⟩, (stops_iff_apart hts).mp hstops, happart⟩
    · rintro ⟨rfl, ⟨hspelled, hts⟩, hfirst, happart⟩
      have ht : t ≠ .endOfInput := by
        rintro rfl
        exact hspelled
      refine (cuts_cons_iff ht).mpr ⟨hspelled, _, rfl, ?_, ih.mpr ⟨rfl, hts, happart⟩⟩
      exact (stops_iff_apart hts).mpr hfirst

/-- The tokens of a text are those of its cut, up to the end of the input. -/
theorem tokenizes_iff_cuts {text : String} :
    Tokenizes text ts ↔ Cuts text.toList (ts ++ [.endOfInput]) := by
  have hjoin : String.join (ts.map (·.source)) = text ↔
      ts.flatMap (·.source.toList) = text.toList := by
    rw [← String.toList_inj, String.toList_join, List.flatMap_map]
  rw [cuts_append_endOfInput_iff, ← hjoin]
  exact ⟨fun h => ⟨h.join_eq, h.isSpelled, h.apart⟩, fun ⟨h, h', h''⟩ => ⟨h, h', h''⟩⟩

/-! ## Reading to the end -/

namespace Source

variable {s : Source} {n : Nat}

/-- At the end of the text every read finds the end of the input, each one character further. -/
theorem read_of_nil (h : s.rest = []) (count : Nat) :
    s.read count = (List.range count).map fun j =>
      ⟨.endOfInput, ⟨s.place.line, s.place.column + j + 1⟩⟩ := by
  obtain ⟨rest, place⟩ := s
  obtain rfl : rest = [] := h
  induction count generalizing place with
  | zero => rfl
  | succ count ih =>
    rw [List.range_succ_eq_map, List.map_cons, List.map_map, read, next]
    refine congrArg₂ List.cons rfl ((ih place.pastEnd).trans ?_)
    refine List.map_congr_left fun j _ => ?_
    simp only [Place.pastEnd, Function.comp_apply, Nat.succ_eq_add_one]
    congr 2
    omega

/-- Reading comes to the end of the text, with at most one read for each character. -/
theorem exists_read_to_end (s : Source) :
    ∃ n ≤ s.rest.length, (∀ l ∈ s.read n, l.token ≠ .endOfInput) ∧ (s.skip n).rest = [] := by
  by_cases h : s.rest = []
  · exact ⟨0, Nat.zero_le _, by simp [read], h⟩
  · have hless := length_rest_next h
    obtain ⟨n, hn, hread, hend⟩ := exists_read_to_end s.next.2
    refine ⟨n + 1, by omega, ?_, hend⟩
    rw [read, List.forall_mem_cons]
    exact ⟨mt token_next_eq_endOfInput_iff.mp h, hread⟩
termination_by s.rest.length
decreasing_by exact hless

/-- The tokens of a text are those that are read up to its end. -/
theorem tokens_eq_of_read_to_end (h : ∀ l ∈ s.read n, l.token ≠ .endOfInput)
    (hend : (s.skip n).rest = []) :
    s.tokens = (s.read n).map (·.token) ++ [.endOfInput] := by
  induction n generalizing s with
  | zero => exact tokens_of_nil hend
  | succ n ih =>
    rw [read, List.forall_mem_cons] at h
    have hne : s.rest ≠ [] := mt token_next_eq_endOfInput_iff.mpr h.1
    rw [tokens_of_ne_nil hne, ih h.2 hend, read, List.map_cons, List.cons_append]

/-- **Tokens are read without loss, as long as they can be, and to an end.** The tokens of a text
are found with at most one read for each character, and every read after them finds the end of the
input. They tokenize the text, and no other tokens do: their sources make it up, each has the
characters of its kind, a word is a keyword exactly if it is a reserved word as a whole, and no two
neighbours are both blanks or both words. A lexer that steps back through one saved cursor reads
the same. -/
theorem tokenizes_read (text : String) :
    ∃ ts, Tokenizes text ts ∧ ts.length ≤ text.length ∧
      (∀ extra, ((ofText text).read (ts.length + extra)).map (·.token) =
        ts ++ List.replicate extra .endOfInput) ∧
      (∀ t ∈ ts, t.isWord = true →
        IsSegment t.source ∧ ((∃ k, t = .keyword k) ↔ ∃ k : Keyword, t.source = k.text)) ∧
      (∀ ts', Tokenizes text ts' → ts' = ts) ∧
      ∀ count, (Lexer.start text).lexemes count = (ofText text).read count := by
  obtain ⟨n, hn, hread, hend⟩ := (ofText text).exists_read_to_end
  have htokens := tokens_eq_of_read_to_end hread hend
  have hlength : (((ofText text).read n).map (·.token)).length = n := by
    rw [List.length_map, length_read]
  have htokenizes : Tokenizes text (((ofText text).read n).map (·.token)) :=
    tokenizes_iff_cuts.mpr (tokens_eq_iff.mp htokens)
  refine ⟨_, htokenizes, ?_, ?_, ?_, ?_, Lexer.lexemes_start text⟩
  · rw [hlength]
    exact hn
  · intro extra
    have hmore : (((ofText text).skip n).read extra).map (·.token) =
        List.replicate extra .endOfInput := by
      simp [read_of_nil hend, List.eq_replicate_iff]
    rw [hlength, read_add, List.map_append, hmore]
  · intro t ht hword
    exact (htokenizes.isSpelled t ht).of_isWord hword
  · intro ts' hts'
    have htokens' : (ofText text).tokens = ts' ++ [.endOfInput] :=
      tokens_eq_iff.mpr (tokenizes_iff_cuts.mp hts')
    exact List.append_cancel_right (htokens'.symm.trans htokens)

/-- Blanks on both sides of a line feed are one run, and words on both sides of another character
are two. -/
example : ((ofText " \n a$b").read 5).map (·.token) =
    [.blank " \n ", .identifier "a", .illegal '$', .identifier "b", .endOfInput] := by decide

end Source

end NamespaceControl.Command
