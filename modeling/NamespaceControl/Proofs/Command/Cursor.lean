import NamespaceControl.Command.Source

/-!
# A lexer that steps back

A source takes a run of characters as a whole. A lexer comes to the same a character at a time
(`Lexer.next_source`): it stands at an offset into its input, which is counted in bytes, reads on
until a character does not belong to the run, and then steps back over that one. It need not
remember more for this than the cursor before its last read, because it steps back only right
behind a read that found a character. Reading past the end is not stepped back over, so it moves the
place on.
-/

namespace NamespaceControl.Command

/-! ## Lexers -/

/-- Where the next read of an input happens. -/
structure Cursor (input : String) where
  /-- The offset in bytes, at which a character begins or the input ends. -/
  offset : input.Pos
  /-- The place there. -/
  place : Place

/-- What a lexer knows of its input. -/
structure Lexer (input : String) where
  /-- Where the next read happens. -/
  cursor : Cursor input
  /-- Where the last read happened. -/
  previous : Cursor input

namespace Lexer

variable {input : String}

/-- A lexer that has read nothing. -/
def start (input : String) : Lexer input :=
  ⟨⟨input.startPos, .start⟩, ⟨input.startPos, .start⟩⟩

/-- Read a character, if there is one left, and move behind it. At the end of the input only the
place moves. -/
def read (l : Lexer input) : (Option Char × Position) × Lexer input :=
  let position := l.cursor.place.next
  if h : l.cursor.offset = input.endPos then
    ((none, position), ⟨⟨l.cursor.offset, l.cursor.place.pastEnd⟩, l.cursor⟩)
  else
    let c := l.cursor.offset.get h
    ((some c, position), ⟨⟨l.cursor.offset.next h, l.cursor.place.after c⟩, l.cursor⟩)

/-- Step back over the last read. -/
def unread (l : Lexer input) : Lexer input := { l with cursor := l.previous }

/-- A character that is read moves the offset on. -/
theorem offset_lt_of_read {l : Lexer input} {c : Char} (h : l.read.1.1 = some c) :
    l.cursor.offset < l.read.2.cursor.offset := by
  unfold read at h ⊢
  split at h
  · cases h
  · next hend =>
    rw [dif_neg hend]
    exact (String.Pos.lt_next : _ < l.cursor.offset.next hend)

/-- Read on while the characters are of a class, and step back over the first one that is not. -/
def scanRun (inClass : Char → Bool) (l : Lexer input) (run : String) : String × Lexer input :=
  match _h : l.read.1.1 with
  | none => (run, l.read.2)
  | some c =>
    if inClass c then l.read.2.scanRun inClass (run.push c) else (run, l.read.2.unread)
termination_by l.cursor.offset
decreasing_by exact offset_lt_of_read _h

/-- The next token. A run has its first character already when it is read on. -/
def nextToken (l : Lexer input) : Lexeme × Lexer input :=
  let ((char, position), l') := l.read
  match char with
  | none => (⟨.endOfInput, position⟩, l')
  | some c =>
    if Text.isBlank c then
      let (run, l'') := l'.scanRun Text.isBlank (String.singleton c)
      (⟨.blank run, position⟩, l'')
    else if isWordChar c then
      let (run, l'') := l'.scanRun isWordChar (String.singleton c)
      (⟨.ofWord run, position⟩, l'')
    else if c = '.' then (⟨.dot, position⟩, l')
    else (⟨.illegal c, position⟩, l')

/-- The next `count` tokens. -/
def lexemes (l : Lexer input) : Nat → List Lexeme
  | 0 => []
  | count + 1 => l.nextToken.1 :: l.nextToken.2.lexemes count

/-! ## Lexers and sources -/

/-- What is left to read of the input. -/
def source (l : Lexer input) : Source :=
  ⟨(input.sliceFrom l.cursor.offset).copy.toList, l.cursor.place⟩

/-- At first it is all of the input. -/
theorem source_start (input : String) : (start input).source = .ofText input := by
  have hall : (input.sliceFrom input.startPos).copy = input :=
    input.startPos.splits.eq_right input.splits_startPos
  simp only [source, start, Source.ofText, hall]

/-- What is left to read when the last read is stepped back over is what was left before it. -/
@[simp] theorem source_unread_read (l : Lexer input) : l.read.2.unread.source = l.source := by
  unfold read
  split
  · rfl
  · rfl

/-- A character stands where the read of it began. -/
@[simp] theorem position_read (l : Lexer input) : l.read.1.2 = l.cursor.place.next := by
  unfold read
  split
  · rfl
  · rfl

/-- If a read finds nothing, nothing is left, and the place moves all the same. -/
theorem source_of_read_none {l : Lexer input} (h : l.read.1.1 = none) :
    l.source = ⟨[], l.cursor.place⟩ ∧ l.read.2.source = ⟨[], l.cursor.place.pastEnd⟩ := by
  unfold read at h ⊢
  split at h
  · next hend =>
    have hnil : (input.sliceFrom l.cursor.offset).copy.toList = [] := by
      rw [String.toList_eq_nil_iff]
      exact l.cursor.offset.splits.eq_endPos_iff.mp hend
    rw [dif_pos hend]
    simp only [source, hnil, and_self]
  · cases h

/-- A character that is read is taken off the front of what is left. -/
theorem source_of_read_some {l : Lexer input} {c : Char} (h : l.read.1.1 = some c) :
    ∃ rest, l.source = ⟨c :: rest, l.cursor.place⟩ ∧
      l.read.2.source = ⟨rest, l.cursor.place.after c⟩ := by
  unfold read at h ⊢
  split at h
  · cases h
  · next hend =>
    obtain rfl : l.cursor.offset.get hend = c := Option.some.inj h
    have hcons : (input.sliceFrom l.cursor.offset).copy.toList = l.cursor.offset.get hend ::
        (input.sliceFrom (l.cursor.offset.next hend)).copy.toList := by
      rw [l.cursor.offset.splits.eq_right (l.cursor.offset.splits_next_right hend),
        String.toList_append, String.toList_singleton, List.singleton_append]
    rw [dif_neg hend, source, hcons]
    exact ⟨_, rfl, rfl⟩

end Lexer

namespace Source

variable {inClass : Char → Bool} {c : Char} {rest : List Char} {place : Place}

/-- At the end of the text there is no run, and the place moves on. -/
theorem takeRun_nil : (⟨[], place⟩ : Source).takeRun inClass = ("", ⟨[], place.pastEnd⟩) := rfl

/-- A run goes on with a character of the class. -/
theorem takeRun_cons_of_pos (hc : inClass c = true) :
    (⟨c :: rest, place⟩ : Source).takeRun inClass =
      (String.singleton c ++ ((⟨rest, place.after c⟩ : Source).takeRun inClass).1,
        ((⟨rest, place.after c⟩ : Source).takeRun inClass).2) := by
  simp only [takeRun, List.takeWhile_cons_of_pos hc, List.dropWhile_cons_of_pos hc,
    String.ofList_cons]
  rfl

/-- A run goes no further than a character that is not of the class. -/
theorem takeRun_cons_of_neg (hc : ¬ inClass c = true) :
    (⟨c :: rest, place⟩ : Source).takeRun inClass = ("", ⟨c :: rest, place⟩) := by
  simp only [takeRun, List.takeWhile_cons_of_neg hc, List.dropWhile_cons_of_neg hc]
  rfl

end Source

namespace Lexer

variable {input : String}

/-- **A lexer takes a run as its source does.** What it has of the run already stands before. -/
theorem scanRun_source (inClass : Char → Bool) (l : Lexer input) (run : String) :
    (l.scanRun inClass run).1 = run ++ (l.source.takeRun inClass).1 ∧
      (l.scanRun inClass run).2.source = (l.source.takeRun inClass).2 := by
  fun_induction Lexer.scanRun inClass l run with
  | case1 l run hread =>
    obtain ⟨hsource, hleft⟩ := source_of_read_none hread
    rw [hsource, Source.takeRun_nil, String.append_empty]
    exact ⟨rfl, hleft⟩
  | case2 l run c hread hc ih =>
    obtain ⟨rest, hsource, hleft⟩ := source_of_read_some hread
    rw [hsource, Source.takeRun_cons_of_pos hc, ← hleft, ← String.append_assoc]
    exact ih
  | case3 l run c hread hc =>
    -- the character that was read too many is still there
    obtain ⟨rest, hsource, -⟩ := source_of_read_some hread
    rw [source_unread_read, hsource, Source.takeRun_cons_of_neg hc, String.append_empty]
    exact ⟨rfl, rfl⟩

/-- **A lexer reads the token that its source begins with**, and leaves what the source leaves. -/
theorem next_source (l : Lexer input) :
    l.source.next = (l.nextToken.1, l.nextToken.2.source) := by
  cases hread : l.read.1.1 with
  | none =>
    obtain ⟨hsource, hleft⟩ := source_of_read_none hread
    simp only [nextToken, hread, position_read, hsource, Source.next, hleft]
  | some c =>
    obtain ⟨rest, hsource, hleft⟩ := source_of_read_some hread
    have hrun (inClass : Char → Bool) :=
      scanRun_source inClass l.read.2 (String.singleton c)
    rw [hleft] at hrun
    simp only [nextToken, hread, position_read, hsource, Source.next]
    split
    · next hc =>
      obtain ⟨htoken, hmore⟩ := hrun Text.isBlank
      rw [Source.takeRun_cons_of_pos hc, htoken, hmore]
    · split
      · next hc =>
        obtain ⟨htoken, hmore⟩ := hrun isWordChar
        rw [Source.takeRun_cons_of_pos hc, htoken, hmore]
      · split
        · rw [hleft]
        · rw [hleft]

/-- A lexer reads one after the other the tokens that its source gives. -/
theorem lexemes_source (l : Lexer input) (count : Nat) : l.lexemes count = l.source.read count := by
  induction count generalizing l with
  | zero => rfl
  | succ count ih => rw [lexemes, Source.read, next_source, ih]

/-- A lexer of a text reads the tokens that the text gives. -/
theorem lexemes_start (input : String) (count : Nat) :
    (start input).lexemes count = (Source.ofText input).read count := by
  rw [lexemes_source, source_start]

end Lexer

end NamespaceControl.Command
