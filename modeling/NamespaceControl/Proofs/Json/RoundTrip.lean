import NamespaceControl.Proofs.Json.Reader
import NamespaceControl.Proofs.Toml.Scan

/-!
# What is written in JSON is read back

Strings, truth values, lists of strings and objects of such members are read from their written
forms, whatever follows (`Reads`), and a written form has no character below U+0020, so that a line
of output with it is one line.
-/

namespace NamespaceControl.Text.Json

open Toml (IsReadAs Scan StopsAt after? separated stopsAt_cons)

variable {text : String} {rest : List Char} {depth : Nat} {c : Char} {v : Value}

/-! ## Strings -/

/-- The code of a control character is read from the two digits that it is written with. -/
theorem unit?_hexDigits {n : Nat} (h : n < 0x20) (rest : List Char) :
    unit? ('0' :: '0' :: hexDigit (n / 16) :: hexDigit (n % 16) :: rest) = some (n, rest) := by
  have hdigits : ∀ n < 0x20, ['0', '0', hexDigit (n / 16), hexDigit (n % 16)].all isHex = true ∧
      digitsValue 16 ['0', '0', hexDigit (n / 16), hexDigit (n % 16)] = n := by
    decide
  obtain ⟨hall, hvalue⟩ := hdigits n h
  rw [unit?, if_pos hall, hvalue]

/-- A character is read from its written form inside a string. -/
theorem body?_escape (c : Char) (rest : List Char) :
    body? (escape c ++ rest) = (body? rest).map fun (text, left) => (c :: text, left) := by
  have hescaped : ∀ written e, (∀ more, escaped? (written ++ more) = some (e, more)) →
      body? ('\\' :: (written ++ rest)) =
        (body? rest).map fun (text, left) => (e :: text, left) := by
    intro written e he
    have hless : rest.length ≤ (written ++ rest).length := by
      rw [List.length_append]
      omega
    rw [body?, if_neg (by decide), if_pos rfl, he]
    exact if_pos hless
  unfold escape
  split
  · exact hescaped ['"'] _ fun _ => rfl
  · exact hescaped ['\\'] _ fun _ => rfl
  · exact hescaped ['b'] _ fun _ => rfl
  · exact hescaped ['t'] _ fun _ => rfl
  · exact hescaped ['n'] _ fun _ => rfl
  · exact hescaped ['f'] _ fun _ => rfl
  · exact hescaped ['r'] _ fun _ => rfl
  · next hquote hbackslash _ _ _ _ _ =>
    split
    · next hcontrol =>
      refine hescaped ['u', '0', '0', hexDigit (c.toNat / 16), hexDigit (c.toNat % 16)] c ?_
      intro more
      have hunit := unit?_hexDigits hcontrol more
      have hlow : ¬ (0xD800 ≤ c.toNat ∧ c.toNat < 0xDC00) := by omega
      have hvalid : c.toNat.isValidChar := c.valid
      show named? ('0' :: '0' :: hexDigit (c.toNat / 16) :: hexDigit (c.toNat % 16) :: more) = _
      unfold named?
      rw [hunit]
      simp [hlow, hvalid]
    · next hplain =>
      rw [List.singleton_append, body?, if_neg hquote, if_neg hbackslash,
        if_pos (Nat.le_of_not_lt hplain)]

/-- A string is read from its written form. -/
theorem string?_quote (text : String) (rest : List Char) :
    string? ((quote text).toList ++ rest) = some (text, rest) := by
  have hbody : ∀ chars : List Char,
      body? (chars.flatMap escape ++ '"' :: rest) = some (chars, rest) := by
    intro chars
    induction chars with
    | nil =>
      rw [List.flatMap_nil, List.nil_append, body?, if_pos rfl]
    | cons c chars ih =>
      rw [List.flatMap_cons, List.append_assoc, body?_escape, ih]
      rfl
  have hquote : (quote text).toList ++ rest =
      '"' :: (text.toList.flatMap escape ++ '"' :: rest) := by
    simp [quote]
  rw [hquote, string?, Toml.after?_cons]
  simp [hbody]

/-! ## Values -/

/-- The characters that a value can begin with. -/
def openings : List Char := ['"', '[', '\x7b', 't', 'f']

/-- A text is the written form of a value: it begins like one, and is read as it whatever
follows. -/
structure Reads (depth : Nat) (written : String) (v : Value) : Prop where
  /-- It begins like a value. -/
  begins : ∃ c ∈ openings, written.toList.head? = some c
  /-- It is read as the value. -/
  read : ∀ rest, value? depth (written.toList ++ rest) = some (v, rest)

/-- No value begins with a space or a closing mark. -/
theorem not_space_of_opening (h : c ∈ openings) : isSpace c = false ∧ c ≠ ']' ∧ c ≠ '\x7d' := by
  have hall : (openings.all fun c => !isSpace c && (c != ']' && c != '\x7d')) = true := by decide
  simpa using List.all_eq_true.mp hall c h

/-- A thing is read with the spaces around it if none stand there. -/
theorem spaced?_of_stopsAt {α : Type} {thing : Scan α} {s : List Char} {a : α}
    (hs : StopsAt isSpace s) (hrest : StopsAt isSpace rest) (h : thing s = some (a, rest)) :
    spaced? thing s = some (a, rest) := by
  simp only [spaced?, skipSpaces, hs.dropWhile_eq, h, Option.map_some, hrest.dropWhile_eq]

/-- The written form of a value is no space. -/
theorem Reads.stopsAt {written : String} (h : Reads depth written v) (rest : List Char) :
    StopsAt isSpace (written.toList ++ rest) := by
  obtain ⟨c, hc, hhead⟩ := h.begins
  obtain ⟨more, hwritten⟩ := List.head?_eq_some_iff.mp hhead
  rw [hwritten]
  rintro d hd
  obtain rfl : c = d := by simpa using hd
  exact (not_space_of_opening hc).1

/-- A value is read between the marks that can stand around it. -/
theorem Reads.isReadAs {written : String} (h : Reads depth written v) :
    IsReadAs (spaced? (value? depth)) (StopsAt isSpace) written.toList v :=
  fun rest hrest => spaced?_of_stopsAt (h.stopsAt rest) hrest (h.read rest)

/-- A string is read from its written form. -/
theorem reads_quote (depth : Nat) (text : String) :
    Reads (depth + 1) (quote text) (.string text) where
  begins := ⟨'"', by decide, by simp [quote]⟩
  read rest := by
    have hquote : (quote text).toList = '"' :: (text.toList.flatMap escape ++ ['"']) := by
      simp [quote]
    have hread := string?_quote text rest
    rw [hquote, List.cons_append] at hread ⊢
    show (string? ('"' :: _)).map (fun r => (Value.string r.1, r.2)) = _
    rw [hread]
    rfl

/-- A truth value is read from its written form. -/
theorem reads_boolean (depth : Nat) (b : Bool) :
    Reads (depth + 1) (boolean b) (.boolean b) where
  begins := by
    cases b with
    | false => exact ⟨'f', by decide, rfl⟩
    | true => exact ⟨'t', by decide, rfl⟩
  read rest := by
    cases b with
    | false => rfl
    | true => rfl

/-! ## Lists and objects -/

/-- Things between a pair of marks are read one by one. -/
theorem listed?_intercalate {α : Type} {close : Char} {thing : Scan α} {parts : List (List Char)}
    {things : List α} (h : List.Forall₂ (IsReadAs thing (StopsAt isSpace)) parts things)
    (hclose : isSpace close = false ∧ close ≠ ',')
    (hbegins : ∀ part ∈ parts, ∃ c, part.head? = some c ∧ isSpace c = false ∧ c ≠ close)
    (rest : List Char) :
    listed? close thing ([','].intercalate parts ++ close :: rest) = some (things, rest) := by
  have hends : StopsAt isSpace (close :: rest) := stopsAt_cons hclose.1 rest
  have hcomma : ∀ more, StopsAt isSpace (',' :: more) := stopsAt_cons (by decide)
  by_cases hparts : parts = []
  · subst hparts
    cases h
    rw [List.intercalate_nil, List.nil_append, listed?, skipSpaces, hends.dropWhile_eq,
      Toml.after?_cons]
  · have hread := Toml.separated_intercalate h hparts hcomma hends
      (Toml.after?_eq_none (by simpa using hclose.2))
    obtain ⟨part, parts, rfl⟩ := List.exists_cons_of_ne_nil hparts
    obtain ⟨c, hhead, hspace, hne⟩ := hbegins part List.mem_cons_self
    obtain ⟨more, rfl⟩ := List.head?_eq_some_iff.mp hhead
    rw [List.intercalate_cons_cons_left, List.cons_append] at hread ⊢
    rw [listed?, skipSpaces, (stopsAt_cons hspace _).dropWhile_eq,
      Toml.after?_eq_none (by simpa using hne), hread]
    simp

/-- A list of strings is read from its written form. -/
theorem reads_strings (depth : Nat) (items : List String) :
    Reads (depth + 2) (strings items) (.list (items.map .string)) where
  begins := ⟨'[', by decide, by simp [strings]⟩
  read rest := by
    have hitems : List.Forall₂ (IsReadAs (spaced? (value? (depth + 1))) (StopsAt isSpace))
        (items.map fun item => (quote item).toList) (items.map .string) := by
      rw [List.forall₂_map_left_iff, List.forall₂_map_right_iff, List.forall₂_same]
      exact fun item _ => (reads_quote depth item).isReadAs
    have hbegins : ∀ part ∈ items.map fun item => (quote item).toList,
        ∃ c, part.head? = some c ∧ isSpace c = false ∧ c ≠ ']' := by
      intro part hpart
      obtain ⟨item, -, rfl⟩ := List.mem_map.mp hpart
      exact ⟨'"', by simp [quote], by decide, by decide⟩
    have hread := listed?_intercalate hitems (by decide) hbegins rest
    have hwritten : (strings items).toList ++ rest =
        '[' :: ([','].intercalate (items.map fun item => (quote item).toList) ++ ']' :: rest) := by
      simp [strings, commaSeparated, String.toList_intercalate, Function.comp_def]
    rw [hwritten]
    show (listed? ']' _ _).map (fun r => (Value.list r.1, r.2)) = _
    rw [hread]
    rfl

/-- The written form of a member. -/
def writeMember (m : String × String) : String := quote m.1 ++ ":" ++ m.2

/-- A member is read from its written form. -/
theorem isReadAs_member {key written : String} (h : Reads depth written v) :
    IsReadAs (member? (value? depth)) (StopsAt isSpace) (writeMember (key, written)).toList
      (key, v) := by
  intro rest hrest
  have hkey : spaced? string? ((quote key).toList ++ ':' :: (written.toList ++ rest)) =
      some (key, ':' :: (written.toList ++ rest)) := by
    refine spaced?_of_stopsAt ?_ (stopsAt_cons (by decide) _) (string?_quote key _)
    simp only [quote, String.toList_ofList, List.cons_append]
    exact stopsAt_cons (by decide) _
  have hwritten : (writeMember (key, written)).toList ++ rest =
      (quote key).toList ++ ':' :: (written.toList ++ rest) := by
    simp [writeMember]
  rw [hwritten, member?, hkey]
  simp [h.isReadAs rest hrest]

/-- An object is read from its written form. -/
theorem reads_object {members : List (String × String)} {values : List (String × Value)}
    (h : List.Forall₂ (fun m m' => m.1 = m'.1 ∧ Reads depth m.2 m'.2) members values) :
    Reads (depth + 1) (object members) (.object values) where
  begins := ⟨'\x7b', by decide, by simp [object]⟩
  read rest := by
    have hmembers : List.Forall₂ (IsReadAs (member? (value? depth)) (StopsAt isSpace))
        (members.map fun m => (writeMember m).toList) values := by
      rw [List.forall₂_map_left_iff]
      refine h.imp ?_
      rintro ⟨key, written⟩ ⟨-, v⟩ ⟨rfl, hread⟩
      exact isReadAs_member hread
    have hbegins : ∀ part ∈ members.map fun m => (writeMember m).toList,
        ∃ c, part.head? = some c ∧ isSpace c = false ∧ c ≠ '\x7d' := by
      intro part hpart
      obtain ⟨m, -, rfl⟩ := List.mem_map.mp hpart
      exact ⟨'"', by simp [writeMember, quote], by decide, by decide⟩
    have hread := listed?_intercalate hmembers (by decide) hbegins rest
    have hwritten : (object members).toList ++ rest = '\x7b' ::
        ([','].intercalate (members.map fun m => (writeMember m).toList) ++ '\x7d' :: rest) := by
      simp [object, commaSeparated, String.toList_intercalate, Function.comp_def, writeMember]
    rw [hwritten]
    show (listed? '\x7d' _ _).map (fun r => (Value.object r.1, r.2)) = _
    rw [hread]
    rfl

/-- A text that is the written form of a value is read as that value. -/
theorem parse?_of_reads (h : Reads depthLimit text v) : parse? text = some v := by
  have hread := h.isReadAs [] (by simp [StopsAt])
  rw [List.append_nil] at hread
  rw [parse?, hread]

/-! ## Lines -/

/-- A text without control characters. -/
def IsPrintable (text : String) : Prop := ∀ c ∈ text.toList, 0x20 ≤ c.toNat

instance : DecidablePred IsPrintable := fun text => List.decidableBAll _ text.toList

/-- Texts behind each other are printable if both are. -/
theorem isPrintable_append {a b : String} (ha : IsPrintable a) (hb : IsPrintable b) :
    IsPrintable (a ++ b) := by
  intro c hc
  rw [String.toList_append, List.mem_append] at hc
  exact hc.elim (ha c) (hb c)

/-- The written form of a string is printable, whatever the string. -/
theorem isPrintable_quote (text : String) : IsPrintable (quote text) := by
  have hdigit : ∀ n < 16, 0x20 ≤ (hexDigit n).toNat := by decide
  have hescape : ∀ c d, d ∈ escape c → 0x20 ≤ d.toNat := by
    intro c d hd
    unfold escape at hd
    split at hd
    case h_8 =>
      split at hd
      · next hcontrol =>
        simp only [List.mem_cons, List.not_mem_nil, or_false] at hd
        rcases hd with rfl | rfl | rfl | rfl | rfl | rfl
        · decide
        · decide
        · decide
        · decide
        · exact hdigit _ (by omega)
        · exact hdigit _ (by omega)
      · next hplain =>
        obtain rfl := List.mem_singleton.mp hd
        exact Nat.le_of_not_lt hplain
    all_goals
      simp only [List.mem_cons, List.not_mem_nil, or_false] at hd
      rcases hd with rfl | rfl
      · decide
      · decide
  intro c hc
  simp only [quote, String.toList_ofList, List.mem_append, List.mem_cons, List.mem_flatMap,
    List.not_mem_nil, or_false] at hc
  rcases hc with (rfl | ⟨d, -, hd⟩) | rfl
  · decide
  · exact hescape d c hd
  · decide

/-- Texts with commas between them are printable if they are. -/
theorem isPrintable_commaSeparated {parts : List String} (h : ∀ part ∈ parts, IsPrintable part) :
    IsPrintable (commaSeparated parts) := by
  induction parts with
  | nil => simp [IsPrintable, commaSeparated]
  | cons part parts ih =>
    obtain ⟨hpart, hparts⟩ := List.forall_mem_cons.mp h
    cases parts with
    | nil => simpa [commaSeparated] using hpart
    | cons next more =>
      have hcons : commaSeparated (part :: next :: more) =
          part ++ "," ++ commaSeparated (next :: more) := by
        simp [commaSeparated]
      rw [hcons]
      exact isPrintable_append (isPrintable_append hpart (by decide)) (ih hparts)

/-- A list of strings is printable. -/
theorem isPrintable_strings (items : List String) : IsPrintable (strings items) := by
  refine isPrintable_append (isPrintable_append (by decide) ?_) (by decide)
  refine isPrintable_commaSeparated fun part hpart => ?_
  obtain ⟨item, -, rfl⟩ := List.mem_map.mp hpart
  exact isPrintable_quote item

/-- An object is printable if the values of its members are. -/
theorem isPrintable_object {members : List (String × String)}
    (h : ∀ m ∈ members, IsPrintable m.2) : IsPrintable (object members) := by
  refine isPrintable_append (isPrintable_append (by decide) ?_) (by decide)
  refine isPrintable_commaSeparated fun part hpart => ?_
  obtain ⟨m, hm, rfl⟩ := List.mem_map.mp hpart
  exact isPrintable_append (isPrintable_append (isPrintable_quote m.1) (by decide)) (h m hm)

end NamespaceControl.Text.Json
