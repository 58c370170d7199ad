import Mathlib.Data.List.Forall2
import Mathlib.Data.List.TakeWhile
import Mathlib.Tactic.Conv
import NamespaceControl.Console

/-!
# The lines of a text

A console cuts its input at the bytes of line feeds. If the input is a text in UTF-8, these are the
places where the text has line feeds, so the lines of the input are the lines of the text
(`inputLines_encode`). What a line is does not depend on the blanks around it
(`Line.ofText_of_pads`), of which the carriage return before a line feed is one. It is told by the
text between those blanks (`Line.isOf_ofText`): nothing, a request to leave, the beginning of a
comment, or a text that asks for something, which is parsed or not.
-/

namespace NamespaceControl

/-! ## Texts as bytes -/

namespace Text.Utf8

/-- The form of two texts, one behind the other. -/
theorem encode_append (a b : String) : encode (a ++ b) = encode a ++ encode b := by
  simp [encode, String.toByteArray_append]

/-- The form of a text is that of its characters. -/
theorem encode_ofList (text : List Char) :
    encode (String.ofList text) = text.flatMap String.utf8EncodeChar := by
  rw [encode, String.toByteArray_ofList]
  simp [List.utf8Encode]

/-- The form of a character of ASCII is its code, and that of any other has no such code in it. -/
theorem encodeChar_cases (c : Char) :
    (c.toNat < 0x80 ∧ String.utf8EncodeChar c = [UInt8.ofNat c.toNat]) ∨
      ∀ b ∈ String.utf8EncodeChar c, 0x80 ≤ b.toNat := by
  by_cases hascii : c.val.toNat ≤ 0x7f
  · exact Or.inl ⟨Nat.lt_succ_of_le hascii, if_pos hascii⟩
  · right
    intro b hb
    have hcontinued : ∀ n : Nat, 0x80 ≤ (UInt8.ofNat (n % 0x40 + 0x80)).toNat := by
      intro n
      rw [UInt8.toNat_ofNat']
      omega
    unfold String.utf8EncodeChar at hb
    dsimp only at hb
    rw [if_neg hascii] at hb
    split at hb
    · simp only [List.mem_cons, List.not_mem_nil, or_false] at hb
      rcases hb with rfl | rfl
      · rw [UInt8.toNat_ofNat']
        omega
      · exact hcontinued _
    · split at hb
      · simp only [List.mem_cons, List.not_mem_nil, or_false] at hb
        rcases hb with rfl | rfl | rfl
        · rw [UInt8.toNat_ofNat']
          omega
        · exact hcontinued _
        · exact hcontinued _
      · simp only [List.mem_cons, List.not_mem_nil, or_false] at hb
        rcases hb with rfl | rfl | rfl | rfl
        · rw [UInt8.toNat_ofNat']
          omega
        · exact hcontinued _
        · exact hcontinued _
        · exact hcontinued _

/-- Only the line feed has its byte in its form. -/
theorem lineFeed_mem_encodeChar {c : Char} : 10 ∈ String.utf8EncodeChar c ↔ c = '\n' := by
  constructor
  · intro h
    rcases encodeChar_cases c with ⟨hascii, hbytes⟩ | hbytes
    · rw [hbytes, List.mem_singleton] at h
      have hcode : (10 : UInt8).toNat = (UInt8.ofNat c.toNat).toNat := congrArg UInt8.toNat h
      rw [UInt8.toNat_ofNat', Nat.mod_eq_of_lt (by omega)] at hcode
      exact Char.ext (UInt32.toNat_inj.mp hcode.symm)
    · exact absurd (hbytes 10 h) (by decide)
  · rintro rfl
    decide

/-- The byte of the line feed is in the form of a text exactly if the text has one. -/
theorem lineFeed_mem_encode {text : String} : 10 ∈ encode text ↔ '\n' ∈ text.toList := by
  conv_lhs => rw [← String.ofList_toList (s := text), encode_ofList]
  rw [List.mem_flatMap]
  simp only [lineFeed_mem_encodeChar, exists_eq_right]

end Text.Utf8

open Command (ParseError Statement)
open Text (Utf8.encode isBlank)

/-! ## Lines -/

/-- The lines of a text, each without its line feed. What follows the last line feed is a line
unless it is empty. -/
def textLines : List Char → List (List Char)
  | [] => []
  | c :: rest =>
    if c = '\n' then [] :: textLines rest
    else match textLines rest with
      | [] => [[c]]
      | line :: more => (c :: line) :: more

/-- The lines of a script. -/
def scriptLines (script : String) : List String := (textLines script.toList).map String.ofList

/-- A text without line feeds is one line, unless it is empty. -/
theorem textLines_of_not_mem {text : List Char} (hne : text ≠ []) (h : '\n' ∉ text) :
    textLines text = [text] := by
  induction text with
  | nil => exact absurd rfl hne
  | cons c rest ih =>
    rw [List.mem_cons, not_or] at h
    rw [textLines, if_neg (Ne.symm h.1)]
    by_cases hrest : rest = []
    · subst hrest
      rfl
    · rw [ih hrest h.2]

/-- A line feed ends the first line. -/
theorem inputLines_line {line : List UInt8} (h : 10 ∉ line) (rest : List UInt8) :
    inputLines (line ++ 10 :: rest) = line :: inputLines rest := by
  induction line with
  | nil => rfl
  | cons b line ih =>
    rw [List.mem_cons, not_or] at h
    rw [List.cons_append, inputLines, if_neg (Ne.symm h.1), ih h.2]

/-- Bytes without a line feed belong to the first line. -/
theorem inputLines_append_of_not_mem {bytes : List UInt8} (hne : bytes ≠ []) (h : 10 ∉ bytes)
    (rest : List UInt8) :
    inputLines (bytes ++ rest) =
      match inputLines rest with
      | [] => [bytes]
      | line :: more => (bytes ++ line) :: more := by
  induction bytes with
  | nil => exact absurd rfl hne
  | cons b bytes ih =>
    rw [List.mem_cons, not_or] at h
    rw [List.cons_append, inputLines, if_neg (Ne.symm h.1)]
    by_cases hbytes : bytes = []
    · subst hbytes
      rfl
    · rw [ih hbytes h.2]
      cases inputLines rest with
      | nil => rfl
      | cons line more => rfl

/-- No line of a script has a line feed. -/
theorem lineFeed_not_mem_of_mem_scriptLines {script line : String} (h : line ∈ scriptLines script) :
    '\n' ∉ line.toList := by
  have hchars : ∀ text : List Char, ∀ chars ∈ textLines text, '\n' ∉ chars := by
    intro text
    induction text with
    | nil => simp [textLines]
    | cons c rest ih =>
      rw [textLines]
      split
      · simpa using ih
      · next hc =>
        split
        · simp [Ne.symm hc]
        · next first more hrest =>
          rw [hrest, List.forall_mem_cons] at ih
          rw [List.forall_mem_cons, List.mem_cons, not_or]
          exact ⟨⟨Ne.symm hc, ih.1⟩, ih.2⟩
  obtain ⟨chars, hmem, rfl⟩ := List.mem_map.mp h
  rw [String.toList_ofList]
  exact hchars script.toList chars hmem

/-- Lines that are written one after the other, each with a line feed behind it, are read. -/
theorem inputLines_flatMap_encode {lines : List String} (h : ∀ line ∈ lines, '\n' ∉ line.toList) :
    inputLines (lines.flatMap fun line => Utf8.encode (line ++ "\n")) = lines.map Utf8.encode := by
  induction lines with
  | nil => rfl
  | cons line rest ih =>
    rw [List.forall_mem_cons] at h
    have hline : Utf8.encode (line ++ "\n") = Utf8.encode line ++ [10] :=
      Text.Utf8.encode_append line "\n"
    rw [List.flatMap_cons, hline, List.append_assoc, List.singleton_append,
      inputLines_line (mt Text.Utf8.lineFeed_mem_encode.mp h.1), ih h.2, List.map_cons]

/-- The lines of a text in UTF-8 are the lines of the text. -/
theorem inputLines_encode (script : String) :
    inputLines (Utf8.encode script) = (scriptLines script).map Utf8.encode := by
  have hchars : ∀ text : List Char, inputLines (text.flatMap String.utf8EncodeChar) =
      (textLines text).map (List.flatMap String.utf8EncodeChar) := by
    intro text
    induction text with
    | nil => rfl
    | cons c rest ih =>
      rw [List.flatMap_cons, textLines]
      by_cases hc : c = '\n'
      · subst hc
        rw [if_pos rfl, List.map_cons, ← ih]
        exact inputLines_line List.not_mem_nil _
      · rw [if_neg hc, inputLines_append_of_not_mem String.utf8EncodeChar_ne_nil
          (mt Text.Utf8.lineFeed_mem_encodeChar.mp hc), ih]
        cases textLines rest with
        | nil => simp
        | cons line more => rfl
  have hlines : (Text.Utf8.encode ∘ String.ofList) = List.flatMap String.utf8EncodeChar :=
    funext Text.Utf8.encode_ofList
  conv_lhs => rw [← String.ofList_toList (s := script), Text.Utf8.encode_ofList]
  rw [hchars, scriptLines, List.map_map, hlines]

/-! ## Blanks around a line -/

/-- A line with more blanks around it. -/
def Pads (line line' : String) : Prop :=
  ∃ left right, (∀ c ∈ left, isBlank c = true) ∧ (∀ c ∈ right, isBlank c = true) ∧
    line'.toList = left ++ line.toList ++ right

/-- Without more blanks a line stays. -/
theorem Pads.refl (line : String) : Pads line line :=
  ⟨[], [], by simp, by simp, by simp⟩

/-- Trimming takes all the blanks around a text. -/
theorem Text.trim_padded {left right : List Char} (hleft : ∀ c ∈ left, isBlank c = true)
    (hright : ∀ c ∈ right, isBlank c = true) (text : List Char) :
    trim (left ++ text ++ right) = trim text := by
  rw [trim, List.append_assoc, List.dropWhile_append_of_pos hleft, List.dropWhile_append, trim]
  by_cases htext : (text.dropWhile isBlank).isEmpty = true
  · have hnil : right.dropWhile isBlank = [] := List.dropWhile_eq_nil_iff.mpr hright
    rw [if_pos htext, hnil, List.isEmpty_iff.mp htext]
  · have hreverse : ∀ c ∈ right.reverse, isBlank c = true := by simpa using hright
    rw [if_neg htext, List.reverse_append, List.dropWhile_append_of_pos hreverse]

/-- A text that neither begins nor ends with a blank is trimmed already. -/
theorem Text.trim_eq_self {text : List Char} (hfirst : ∀ c ∈ text.head?, isBlank c = false)
    (hlast : ∀ c ∈ text.getLast?, isBlank c = false) : trim text = text := by
  have hdrop : ∀ chars : List Char, (∀ c ∈ chars.head?, isBlank c = false) →
      chars.dropWhile isBlank = chars := by
    intro chars h
    cases chars with
    | nil => rfl
    | cons c rest => rw [List.dropWhile_cons, h c rfl, if_neg Bool.false_ne_true]
  rw [trim, hdrop text hfirst, hdrop text.reverse (by simpa using hlast), List.reverse_reverse]

/-- Trimming leaves no character that was not there. -/
theorem Text.mem_of_mem_trim {c : Char} {text : List Char} (h : c ∈ trim text) : c ∈ text := by
  rw [trim, List.mem_reverse] at h
  have hinner := (List.dropWhile_sublist isBlank).subset h
  exact (List.dropWhile_sublist isBlank).subset (List.mem_reverse.mp hinner)

/-- What a line is does not depend on the blanks around it. -/
theorem Line.ofText_of_pads {line line' : String} (h : Pads line line') :
    Line.ofText line' = Line.ofText line := by
  obtain ⟨left, right, hleft, hright, hline⟩ := h
  unfold Line.ofText
  rw [hline, Text.trim_padded hleft hright]

/-! ## What a line is -/

/-- A line without the blanks around it. -/
def trimmed (line : String) : String := String.ofList (Text.trim line.toList)

/-- A line asks to leave if it says so between blanks. -/
def AsksToLeave (line : String) : Prop := trimmed line = "exit" ∨ trimmed line = "quit"

/-- A line is a comment if it begins as one, apart from the blanks in front. -/
def IsComment (line : String) : Prop :=
  ['/', '/'] <+: (trimmed line).toList ∨ ['-', '-'] <+: (trimmed line).toList

/-- A line asks for something if it is neither blank nor a request to leave nor a comment. -/
def Asks (line : String) : Prop := trimmed line ≠ "" ∧ ¬ AsksToLeave line ∧ ¬ IsComment line

instance : DecidablePred AsksToLeave :=
  fun line => inferInstanceAs (Decidable (trimmed line = "exit" ∨ trimmed line = "quit"))

instance : DecidablePred IsComment :=
  fun line => inferInstanceAs (Decidable (['/', '/'] <+: (trimmed line).toList ∨
    ['-', '-'] <+: (trimmed line).toList))

instance : DecidablePred Asks :=
  fun line => inferInstanceAs (Decidable
    (trimmed line ≠ "" ∧ ¬ AsksToLeave line ∧ ¬ IsComment line))

variable {line : String}

/-- A blank line is no request to leave. -/
theorem not_asksToLeave_of_blank (h : trimmed line = "") : ¬ AsksToLeave line := by
  unfold AsksToLeave
  rw [h]
  decide

/-- A comment is no request to leave. -/
theorem IsComment.not_asksToLeave (h : IsComment line) : ¬ AsksToLeave line := by
  unfold IsComment at h
  rintro (hword | hword)
  · rw [hword] at h
    exact absurd h (by decide)
  · rw [hword] at h
    exact absurd h (by decide)

/-- What a line is, told by its text. -/
inductive Line.IsOf (line : String) : Line → Prop where
  /-- Nothing is left without the blanks. -/
  | blank (h : trimmed line = "") : IsOf line .blank
  /-- The line asks to leave. -/
  | leave (h : AsksToLeave line) : IsOf line .leave
  /-- The line begins as a comment. -/
  | comment (h : IsComment line) : IsOf line (.comment (trimmed line))
  /-- The line asks for something, and is parsed. -/
  | statement {s : Statement} (h : Asks line) (hs : Statement.parse (trimmed line) = .ok s) :
    IsOf line (.statement s)
  /-- The line asks for something, and is not parsed. -/
  | invalid {e : ParseError} (h : Asks line) (he : Statement.parse (trimmed line) = .error e) :
    IsOf line (.invalid e)

/-- Each line is what its text tells. -/
theorem Line.isOf_ofText (line : String) : IsOf line (ofText line) := by
  unfold ofText
  dsimp only
  split
  · next hnil => exact .blank (by rw [trimmed, hnil, String.ofList_nil])
  · next hne =>
    split
    · next hleave => exact .leave hleave
    · next hstays =>
      have hcomment : (['/', '/'].isPrefixOf (Text.trim line.toList) ||
          ['-', '-'].isPrefixOf (Text.trim line.toList)) = true ↔ IsComment line := by
        rw [Bool.or_eq_true, List.isPrefixOf_iff_prefix, List.isPrefixOf_iff_prefix, IsComment,
          trimmed, String.toList_ofList]
      split
      · next hbegins => exact .comment (hcomment.mp hbegins)
      · next hbegins =>
        have hasks : Asks line :=
          ⟨mt String.ofList_eq_empty_iff.mp hne, hstays, mt hcomment.mpr hbegins⟩
        split
        · next s hs => exact .statement hasks hs
        · next e he => exact .invalid hasks he

/-- A line is a request to leave exactly if its text asks to leave. -/
theorem Line.ofText_eq_leave_iff : ofText line = .leave ↔ AsksToLeave line := by
  have hclass := isOf_ofText line
  generalize ofText line = l at hclass ⊢
  cases hclass with
  | blank h => exact iff_of_false nofun (not_asksToLeave_of_blank h)
  | leave h => exact iff_of_true rfl h
  | comment h => exact iff_of_false nofun h.not_asksToLeave
  | statement h _ | invalid h _ => exact iff_of_false nofun h.2.1

/-! ## Carriage returns -/

/-- The script with a carriage return before every line feed. -/
def withCarriageReturns (script : String) : String :=
  String.ofList (script.toList.flatMap fun c => if c = '\n' then ['\r', '\n'] else [c])

/-- Carriage returns before the line feeds are blanks at the ends of lines. -/
theorem pads_withCarriageReturns (script : String) :
    List.Forall₂ Pads (scriptLines script) (scriptLines (withCarriageReturns script)) := by
  have hchars : ∀ text : List Char,
      List.Forall₂ (fun line line' => line' = line ∨ line' = line ++ ['\r']) (textLines text)
        (textLines (text.flatMap fun c => if c = '\n' then ['\r', '\n'] else [c])) := by
    intro text
    induction text with
    | nil => exact .nil
    | cons c rest ih =>
      rw [List.flatMap_cons]
      by_cases hc : c = '\n'
      · subst hc
        exact .cons (Or.inr rfl) ih
      · rw [if_neg hc, List.singleton_append, textLines, textLines, if_neg hc, if_neg hc]
        generalize textLines rest = lines, textLines (rest.flatMap _) = lines' at ih ⊢
        cases ih with
        | nil => exact .cons (Or.inl rfl) .nil
        | cons hline hmore =>
          refine .cons ?_ hmore
          rcases hline with rfl | rfl
          · exact Or.inl rfl
          · exact Or.inr rfl
  unfold scriptLines withCarriageReturns
  rw [String.toList_ofList, List.forall₂_map_left_iff, List.forall₂_map_right_iff]
  refine (hchars script.toList).imp fun line line' h => ?_
  rcases h with rfl | rfl
  · exact .refl _
  · exact ⟨[], ['\r'], by simp, List.all_eq_true.mp (by decide), by simp⟩

end NamespaceControl
