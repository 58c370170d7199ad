import NamespaceControl.Proofs.Command.Reading

/-!
# The texts that are statements

The grammar of texts in full: a statement is its keywords and its path with at least one blank
between them, and blanks may stand around the whole. A text is parsed as a statement exactly if it
writes that statement.
-/

namespace NamespaceControl.Command

/-! ## The grammar of texts -/

/-- The texts that write a statement. -/
inductive Writes : Statement → String → Prop where
  /-- `USE` and a path. -/
  | useNamespace {before gap after : String} {n : Name} (hbefore : IsBlanks before)
      (hgap : IsSeparator gap) (hn : IsUnreserved n) (hafter : IsBlanks after) :
      Writes (.useNamespace n) (before ++ "USE" ++ gap ++ n.text ++ after)
  /-- `CREATE`, `NAMESPACE` and a path. -/
  | createNamespace {before gap gap' after : String} {n : Name} (hbefore : IsBlanks before)
      (hgap : IsSeparator gap) (hgap' : IsSeparator gap') (hn : IsUnreserved n)
      (hafter : IsBlanks after) :
      Writes (.createNamespace n)
        (before ++ "CREATE" ++ gap ++ "NAMESPACE" ++ gap' ++ n.text ++ after)
  /-- `DROP`, `NAMESPACE` and a path. -/
  | dropNamespace {before gap gap' after : String} {n : Name} (hbefore : IsBlanks before)
      (hgap : IsSeparator gap) (hgap' : IsSeparator gap') (hn : IsUnreserved n)
      (hafter : IsBlanks after) :
      Writes (.dropNamespace n)
        (before ++ "DROP" ++ gap ++ "NAMESPACE" ++ gap' ++ n.text ++ after)
  /-- `SHOW` and `NAMESPACES`. -/
  | showNamespaces {before gap after : String} (hbefore : IsBlanks before)
      (hgap : IsSeparator gap) (hafter : IsBlanks after) :
      Writes .showNamespaces (before ++ "SHOW" ++ gap ++ "NAMESPACES" ++ after)

variable {n : Name} {part : Part} {parts : List Part} {text input : String} {s : Statement}

/-- Nothing but blanks. -/
theorem written_nil_iff : Written [] text ↔ IsBlanks text := by
  constructor
  · intro h
    cases h with
    | nil hblank => exact hblank
  · exact .nil

/-- A part behind a separator, and the other parts. -/
theorem written_cons_iff :
    Written (part :: parts) text ↔ ∃ gap more, IsSeparator gap ∧ part.IsReadable ∧
      Written parts more ∧ text = gap ++ (part.text ++ more) := by
  constructor
  · intro h
    cases h with
    | @cons gap more _ _ hgap hreadable hmore => exact ⟨gap, more, hgap, hreadable, hmore, rfl⟩
  · rintro ⟨gap, more, hgap, hreadable, hmore, rfl⟩
    exact .cons hgap hreadable hmore

/-- A text writes a statement if blanks, its first part and the other parts make it up. -/
theorem writes_iff (hparts : s.parts = part :: parts) :
    Writes s input ↔ ∃ before rest, IsBlanks before ∧ part.IsReadable ∧ Written parts rest ∧
      input = before ++ (part.text ++ rest) := by
  constructor
  · intro h
    cases h with
    | useNamespace hbefore hgap hn hafter =>
      cases hparts
      refine ⟨_, _, hbefore, trivial, .cons hgap hn (.nil hafter), ?_⟩
      simp [Part.text, Keyword.text, String.append_assoc]
    | createNamespace hbefore hgap hgap' hn hafter =>
      cases hparts
      refine ⟨_, _, hbefore, trivial, .cons hgap trivial (.cons hgap' hn (.nil hafter)), ?_⟩
      simp [Part.text, Keyword.text, String.append_assoc]
    | dropNamespace hbefore hgap hgap' hn hafter =>
      cases hparts
      refine ⟨_, _, hbefore, trivial, .cons hgap trivial (.cons hgap' hn (.nil hafter)), ?_⟩
      simp [Part.text, Keyword.text, String.append_assoc]
    | showNamespaces hbefore hgap hafter =>
      cases hparts
      refine ⟨_, _, hbefore, trivial, .cons hgap trivial (.nil hafter), ?_⟩
      simp [Part.text, Keyword.text, String.append_assoc]
  · rintro ⟨before, rest, hbefore, -, hrest, rfl⟩
    cases s with
    | useNamespace n =>
      cases hparts
      obtain ⟨gap, after, hgap, hn, hafter, rfl⟩ := written_cons_iff.mp hrest
      have h := Writes.useNamespace hbefore hgap hn (written_nil_iff.mp hafter)
      simpa [Part.text, Keyword.text, String.append_assoc] using h
    | createNamespace n =>
      cases hparts
      obtain ⟨gap, more, hgap, -, hmore, rfl⟩ := written_cons_iff.mp hrest
      obtain ⟨gap', after, hgap', hn, hafter, rfl⟩ := written_cons_iff.mp hmore
      have h := Writes.createNamespace hbefore hgap hgap' hn (written_nil_iff.mp hafter)
      simpa [Part.text, Keyword.text, String.append_assoc] using h
    | dropNamespace n =>
      cases hparts
      obtain ⟨gap, more, hgap, -, hmore, rfl⟩ := written_cons_iff.mp hrest
      obtain ⟨gap', after, hgap', hn, hafter, rfl⟩ := written_cons_iff.mp hmore
      have h := Writes.dropNamespace hbefore hgap hgap' hn (written_nil_iff.mp hafter)
      simpa [Part.text, Keyword.text, String.append_assoc] using h
    | showNamespaces =>
      cases hparts
      obtain ⟨gap, after, hgap, -, hafter, rfl⟩ := written_cons_iff.mp hrest
      have h := Writes.showNamespaces hbefore hgap (written_nil_iff.mp hafter)
      simpa [Part.text, Keyword.text, String.append_assoc] using h

/-! ## Parsing -/

/-- A text is parsed as a statement if blanks, its first part and the other parts make the text
up. -/
theorem parse_eq_ok_iff_written (hparts : s.parts = part :: parts) :
    Statement.parse input = .ok s ↔ ∃ before rest, IsBlanks before ∧ part.IsReadable ∧
      Written parts rest ∧ input = before ++ (part.text ++ rest) := by
  have hparse : Statement.parse input = .ok s ↔
      ∃ q, (Parser.ofText input).statement = (.ok s, q) := by
    constructor
    · intro h
      exact ⟨(Parser.ofText input).statement.2, Prod.ext h rfl⟩
    · rintro ⟨q, h⟩
      exact congrArg Prod.fst h
  rw [hparse, Parser.statement_iff, hparts, Parser.tokens_ofText]
  exact spaced_tokens_iff

/-- **Parsing accepts exactly the grammar.** A text is parsed as a statement exactly if it writes
that statement: blanks, the keywords and the path of the statement with at least one blank between
them, and blanks, where no segment of the path is a reserved word. -/
theorem parse_eq_ok_iff (input : String) (s : Statement) :
    Statement.parse input = .ok s ↔ Writes s input := by
  obtain ⟨k, parts, hparts⟩ := Parser.exists_parts_eq_cons s
  calc
    Statement.parse input = .ok s
      ↔ ∃ before rest, IsBlanks before ∧ (Part.keyword k).IsReadable ∧ Written parts rest ∧
          input = before ++ ((Part.keyword k).text ++ rest) := parse_eq_ok_iff_written hparts
    _ ↔ Writes s input := (writes_iff hparts).symm

end NamespaceControl.Command
