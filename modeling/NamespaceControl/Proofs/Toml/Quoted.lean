import NamespaceControl.Proofs.Toml.Scan
import NamespaceControl.Toml.Quoted

/-!
# Quoted texts are read back

A text is read from its written form, whichever of the four quoted forms that is, unless one more
mark follows it (`quoted?_writeText`). Between quotation marks every character is read from its
escape. Between apostrophes every character stands for itself, and a text is written there only if
no three apostrophes stand in it and none at its end, so its end is not found too early.
-/

namespace NamespaceControl.Toml

open Text

variable {q : Quoting} {c : Char} {text rest : List Char}

/-! ## Characters -/

/-- The code of a character of ASCII is read from the two digits that it is written with. -/
theorem codePoint?_hexDigits {n : Nat} (h : n < 0x80) (rest : List Char) :
    codePoint? 4 ('0' :: '0' :: upperHexDigit (n / 16) :: upperHexDigit (n % 16) :: rest) =
      some (Char.ofNat n, rest) := by
  have hdigits : ∀ n < 0x80,
      ['0', '0', upperHexDigit (n / 16), upperHexDigit (n % 16)].all isHex = true ∧
      digitsValue 16 ['0', '0', upperHexDigit (n / 16), upperHexDigit (n % 16)] = n := by
    decide
  have hvalid : n.isValidChar := Or.inl (by omega)
  obtain ⟨hall, hvalue⟩ := hdigits n h
  have htake : ('0' :: '0' :: upperHexDigit (n / 16) :: upperHexDigit (n % 16) :: rest).take 4 =
      ['0', '0', upperHexDigit (n / 16), upperHexDigit (n % 16)] := rfl
  simp only [codePoint?, htake, hvalue]
  exact if_pos ⟨rfl, hall, hvalid⟩

/-- What is no control character may stand anywhere. -/
theorem isPlain_of_not_isControl (h : isControl c = false) : isPlain c = true := by
  simp [isControl, isPlain] at h ⊢
  exact Or.inr h

/-- An escape is read between quotation marks, unless it joins lines. -/
theorem body_escaped (hmark : q.mark = '"') (written : List Char) {e : Char}
    (hread : escaped? (written ++ rest) = some (e, rest))
    (hjoin : afterJoin? (written ++ rest) = none) :
    q.body ('\\' :: (written ++ rest)) =
      (q.body rest).map fun (text, left) => (e :: text, left) := by
  have hescapes : q.escapes = true := by simp [Quoting.escapes, hmark]
  rw [Quoting.body, if_neg (by rw [hmark]; decide), if_pos ⟨hescapes, rfl⟩]
  split
  · next h =>
    rw [hjoin, ite_self] at h
    exact absurd h (Option.some_ne_none _).symm
  · split
    · next h =>
      rw [hread, Option.some.injEq, Prod.mk.injEq] at h
      obtain ⟨rfl, rfl⟩ := h
      rfl
    · next h =>
      rw [hread] at h
      exact absurd h (Option.some_ne_none _)

/-- A character that needs no escape stands for itself. -/
theorem body_plain (hmark : c ≠ q.mark) (hescape : q.escapes = true → c ≠ '\\')
    (hc : isPlain c = true ∨ (q.multiline = true ∧ c = '\n')) (rest : List Char) :
    q.body (c :: rest) = (q.body rest).map fun (text, left) => (c :: text, left) := by
  rw [Quoting.body, if_neg hmark, if_neg fun h => hescape h.1 h.2]
  by_cases hbreak : c = '\n'
  · subst hbreak
    have hmultiline : q.multiline = true := hc.resolve_left (by decide) |>.1
    split
    · next h =>
      rw [if_pos hmultiline] at h
      obtain rfl := Option.some.inj h
      rfl
    · next h =>
      rw [if_pos hmultiline] at h
      exact absurd h (Option.some_ne_none _)
  · have hplain : isPlain c = true := hc.resolve_right fun h => hbreak h.2
    split
    · next h =>
      rw [afterNewline?_of_isPlain hplain, ite_self] at h
      exact absurd h (Option.some_ne_none _).symm
    · exact if_pos hplain

/-- On several lines, a mark stands for itself unless two more follow it. -/
theorem body_lone_mark (hq : q.multiline = true) (h : rest.take 2 ≠ [q.mark, q.mark]) :
    q.body (q.mark :: rest) = (q.body rest).map fun (text, left) => (q.mark :: text, left) := by
  rw [Quoting.body, if_pos rfl, if_neg (by simp [hq]), if_neg h]

/-- A character is read from its written form between quotation marks on one line. -/
theorem body_escape (hmark : q.mark = '"') (c : Char) (rest : List Char) :
    q.body (escape c ++ rest) = (q.body rest).map fun (text, left) => (c :: text, left) := by
  unfold escape
  split
  · exact body_escaped hmark ['"'] rfl rfl
  · exact body_escaped hmark ['\\'] rfl rfl
  · exact body_escaped hmark ['b'] rfl rfl
  · exact body_escaped hmark ['t'] rfl rfl
  · exact body_escaped hmark ['n'] rfl rfl
  · exact body_escaped hmark ['f'] rfl rfl
  · exact body_escaped hmark ['r'] rfl rfl
  · next hquote hbackslash _ _ _ _ _ =>
    split
    · next hcontrol =>
      have hascii : c.toNat < 0x80 := by
        simp [isControl] at hcontrol
        omega
      have hcode := codePoint?_hexDigits hascii rest
      rw [Char.ofNat_toNat] at hcode
      exact body_escaped hmark
        ['u', '0', '0', upperHexDigit (c.toNat / 16), upperHexDigit (c.toNat % 16)]
        hcode rfl
    · next hplain =>
      exact body_plain (hmark ▸ hquote) (fun _ => hbackslash)
        (Or.inl (isPlain_of_not_isControl (Bool.eq_false_iff.mpr hplain))) rest

/-- A character is read from its written form between quotation marks on several lines. -/
theorem body_escapeMultiline (c : Char) (rest : List Char) :
    Quoting.multilineBasic.body (escapeMultiline c ++ rest) =
      (Quoting.multilineBasic.body rest).map fun (text, left) => (c :: text, left) := by
  unfold escapeMultiline
  split
  · next h =>
    subst h
    exact body_plain (by decide) (by decide) (Or.inr ⟨rfl, rfl⟩) rest
  · exact body_escape rfl c rest

/-! ## Whole texts -/

/-- The closing mark on one line ends the text. -/
theorem body_mark (hq : q.multiline = false) (rest : List Char) :
    q.body (q.mark :: rest) = some ([], rest) := by
  rw [Quoting.body, if_pos rfl, if_pos hq]

/-- Three closing marks end the text if no mark follows them. -/
theorem body_marks (hq : q.multiline = true) (h : q.mark ∉ rest.head?) :
    q.body (q.mark :: q.mark :: q.mark :: rest) = some ([], rest) := by
  have htake : (q.mark :: q.mark :: rest).take 2 = [q.mark, q.mark] := rfl
  have hmore : rest.takeWhile (· = q.mark) = [] := by
    cases rest with
    | nil => rfl
    | cons c more => exact List.takeWhile_cons_of_neg (by simpa using fun hc => h (by simp [hc]))
  rw [Quoting.body, if_pos rfl, if_neg (by simp [hq]), if_pos htake]
  simp [hmore]

/-- Characters that are read one by one are read as a text, up to its end. -/
theorem body_flatMap {write : Char → List Char}
    (h : ∀ c rest, q.body (write c ++ rest) =
      (q.body rest).map fun (text, left) => (c :: text, left))
    (closing : List Char) (hclosing : q.body (closing ++ rest) = some ([], rest))
    (text : List Char) : q.body (text.flatMap write ++ closing ++ rest) = some (text, rest) := by
  induction text with
  | nil => exact hclosing
  | cons c text ih =>
    rw [List.flatMap_cons, List.append_assoc, List.append_assoc, h, ← List.append_assoc, ih]
    rfl

/-- A text between apostrophes on one line is read up to the first apostrophe. -/
theorem body_literal (hmark : '\'' ∉ text) (hplain : ∀ c ∈ text, isPlain c = true)
    (rest : List Char) : Quoting.literal.body (text ++ '\'' :: rest) = some (text, rest) := by
  induction text with
  | nil => exact body_mark rfl rest
  | cons c text ih =>
    rw [List.mem_cons, not_or] at hmark
    obtain ⟨hc, htext⟩ := List.forall_mem_cons.mp hplain
    rw [List.cons_append,
      body_plain (q := .literal) (Ne.symm hmark.1) (absurd · (by decide)) (Or.inl hc),
      ih hmark.2 htext]
    rfl

/-- A text between three apostrophes is read up to them if it has no such row of its own and does
not end with one of them. -/
theorem body_multilineLiteral (hrow : hasTripleApostrophe text = false)
    (hlast : text.getLast? ≠ some '\'') (hplain : ∀ c ∈ text, isPlain c = true ∨ c = '\n')
    (hrest : '\'' ∉ rest.head?) :
    Quoting.multilineLiteral.body (text ++ tripleApostrophe ++ rest) = some (text, rest) := by
  induction text with
  | nil => exact body_marks rfl hrest
  | cons c text ih =>
    obtain ⟨hc, htext⟩ := List.forall_mem_cons.mp hplain
    rw [hasTripleApostrophe, Bool.or_eq_false_iff] at hrow
    have htail : text.getLast? ≠ some '\'' := by
      intro h
      apply hlast
      rw [List.getLast?_cons, h]
      rfl
    have hstep : Quoting.multilineLiteral.body (c :: (text ++ tripleApostrophe ++ rest)) =
        (Quoting.multilineLiteral.body (text ++ tripleApostrophe ++ rest)).map
          fun (text, left) => (c :: text, left) := by
      by_cases hmark : c = '\''
      · subst hmark
        -- What follows begins with two more apostrophes neither inside the text nor at its end.
        have htake : (text ++ tripleApostrophe ++ rest).take 2 ≠ ['\'', '\''] := by
          cases text with
          | nil => exact absurd rfl hlast
          | cons d more =>
            cases more with
            | nil =>
              have hd : d ≠ '\'' := fun h => hlast (by rw [h]; rfl)
              simpa [tripleApostrophe] using hd
            | cons e more =>
              have hprefix := hrow.1
              simp [tripleApostrophe, List.isPrefixOf] at hprefix
              simpa [eq_comm] using hprefix
        exact body_lone_mark rfl htake
      · exact body_plain (q := .multilineLiteral) hmark (absurd · (by decide))
          (hc.imp_right fun h => ⟨rfl, h⟩) _
    rw [List.cons_append, List.cons_append, hstep, ih hrow.2 htail htext]
    rfl

/-! ## Written texts -/

/-- A quotation mark without two more behind it opens a text on one line. -/
theorem quoted?_basic (h : rest.take 2 ≠ ['"', '"']) :
    quoted? ('"' :: rest) = Quoting.basic.scan rest := by
  unfold quoted?
  split
  · next heq =>
    obtain rfl := (List.cons.inj heq).2
    exact absurd rfl h
  · next heq => rw [(List.cons.inj heq).2]
  · next heq => exact absurd (List.cons.inj heq).1 (by decide)
  · next heq => exact absurd (List.cons.inj heq).1 (by decide)
  · next heq _ _ => exact absurd rfl (heq rest)

/-- An apostrophe without two more behind it opens a text on one line. -/
theorem quoted?_literal (h : rest.take 2 ≠ ['\'', '\'']) :
    quoted? ('\'' :: rest) = Quoting.literal.scan rest := by
  unfold quoted?
  split
  · next heq => exact absurd (List.cons.inj heq).1 (by decide)
  · next heq => exact absurd (List.cons.inj heq).1 (by decide)
  · next heq =>
    obtain rfl := (List.cons.inj heq).2
    exact absurd rfl h
  · next heq => rw [(List.cons.inj heq).2]
  · next heq => exact absurd rfl (heq rest)

/-- What is written between quotation marks on one line is read behind the opening mark. -/
theorem scan_escape (text rest : List Char) :
    Quoting.basic.scan (text.flatMap escape ++ '"' :: rest) = some (String.ofList text, rest) := by
  have hbody := body_flatMap (q := .basic) (body_escape rfl) ['"'] (body_mark rfl rest) text
  rw [List.append_assoc] at hbody
  exact congrArg (Option.map _) hbody

/-- No written character begins with the mark that would end the text. -/
theorem exists_escape_eq_cons (c : Char) : ∃ d more, escape c = d :: more ∧ d ≠ '"' := by
  unfold escape
  split
  case h_8 hquote _ _ _ _ _ _ =>
    split
    · exact ⟨_, _, rfl, by decide⟩
    · exact ⟨c, [], rfl, hquote⟩
  all_goals exact ⟨_, _, rfl, by decide⟩

/-- A text is read from its written form between quotation marks on one line. -/
theorem quoted?_writeOneLine (h : '"' ∉ rest.head?) (text : List Char) :
    quoted? (writeOneLine text ++ rest) = some (String.ofList text, rest) := by
  have htake : (text.flatMap escape ++ '"' :: rest).take 2 ≠ ['"', '"'] := by
    cases text with
    | nil =>
      cases rest with
      | nil => simp
      | cons d more => simpa using h
    | cons c text =>
      obtain ⟨d, more, hescape, hd⟩ := exists_escape_eq_cons c
      rw [List.flatMap_cons, hescape]
      simp [hd]
  have hwritten : writeOneLine text ++ rest = '"' :: (text.flatMap escape ++ '"' :: rest) := by
    simp [writeOneLine]
  rw [hwritten, quoted?_basic htake, scan_escape]

/-- A text is read from its written form between quotation marks. -/
theorem quoted?_writeBasic (h : '"' ∉ rest.head?) (text : List Char) :
    quoted? (writeBasic text ++ rest) = some (String.ofList text, rest) := by
  unfold writeBasic
  split
  · have hbody := body_flatMap (q := .multilineBasic) body_escapeMultiline tripleQuote
      (body_marks rfl h) text
    exact congrArg (Option.map _) hbody
  · exact quoted?_writeOneLine h text

/-- A text that is written between apostrophes is read from there. -/
theorem quoted?_writeLiteral (hprefers : prefersLiteral text = true) (h : '\'' ∉ rest.head?) :
    quoted? (writeLiteral text ++ rest) = some (String.ofList text, rest) := by
  simp only [prefersLiteral, Bool.and_eq_true, Bool.not_eq_true', bne_iff_ne, ne_eq] at hprefers
  obtain ⟨⟨⟨hbackslash, hchars⟩, hrow⟩, hlast⟩ := hprefers
  have hplain : ∀ c ∈ text, isPlain c = true ∨ c = '\n' := by
    intro c hc
    have hchar := List.all_eq_true.mp hchars c hc
    simp only [Bool.or_eq_true, beq_iff_eq, Bool.not_eq_true'] at hchar
    rcases hchar with (rfl | rfl) | hcontrol
    · exact Or.inl rfl
    · exact Or.inr rfl
    · exact Or.inl (isPlain_of_not_isControl hcontrol)
  have hbody := body_multilineLiteral hrow hlast hplain h
  unfold writeLiteral
  split
  · exact congrArg (Option.map _) hbody
  · next hbreak =>
    have hplain' : ∀ c ∈ text, isPlain c = true := by
      intro c hc
      refine (hplain c hc).resolve_right ?_
      rintro rfl
      exact hbreak (by simpa using hc)
    obtain ⟨c, more, rfl⟩ : ∃ c more, text = c :: more := by
      refine List.exists_cons_of_ne_nil ?_
      rintro rfl
      exact absurd hbackslash (by decide)
    have hc : isPlain c = true := hplain' c List.mem_cons_self
    split
    · have hbreak : afterNewline? (c :: more ++ tripleApostrophe ++ rest) = none :=
        afterNewline?_of_isPlain hc
      show Quoting.scanMultiline _ (c :: more ++ tripleApostrophe ++ rest) = _
      rw [Quoting.scanMultiline, hbreak]
      exact congrArg (Option.map _) hbody
    · next hmark =>
      have hmark' : '\'' ∉ c :: more := by simpa using hmark
      have hfirst : c ≠ '\'' := fun h => hmark' (by simp [h])
      have hwritten : '\'' :: (c :: more) ++ ['\''] ++ rest =
          '\'' :: (c :: more ++ '\'' :: rest) := by
        simp
      rw [hwritten, quoted?_literal (by simp [hfirst])]
      exact congrArg (Option.map _) (body_literal hmark' hplain' rest)

/-- **A text is read from its written form**, if no further mark follows. -/
theorem quoted?_writeText (hquote : '"' ∉ rest.head?) (hapostrophe : '\'' ∉ rest.head?)
    (text : List Char) : quoted? (writeText text ++ rest) = some (String.ofList text, rest) := by
  unfold writeText
  split
  · next hprefers => exact quoted?_writeLiteral hprefers hapostrophe
  · exact quoted?_writeBasic hquote text

end NamespaceControl.Toml
