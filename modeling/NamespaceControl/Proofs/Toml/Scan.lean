import Mathlib.Data.List.Forall2
import NamespaceControl.Toml.Scan

/-!
# Scanning what was written

Readers give back what was written: things with a separator between any two are read one by one
(`separated_intercalate`), if each is read from its written form whatever follows that may follow
it; and a run of characters of a class is read up to where it was written to.
-/

namespace NamespaceControl.Toml

variable {α : Type} {sep c : Char} {rest : List Char}

/-- A character is followed by what stands behind it. -/
@[simp] theorem after?_cons (c : Char) (rest : List Char) : after? c (c :: rest) = some rest :=
  if_pos rfl

/-- A character that does not stand in front is followed by nothing. -/
theorem after?_eq_none (h : c ∉ rest.head?) : after? c rest = none := by
  cases rest with
  | nil => rfl
  | cons d more => exact if_neg fun hd => h (by simp [hd])

/-- A character that may stand in a comment begins no line break. -/
theorem afterNewline?_of_isPlain (h : isPlain c = true) : afterNewline? (c :: rest) = none := by
  have hfeed : c ≠ '\n' := by
    rintro rfl
    exact absurd h (by decide)
  have hreturn : c ≠ '\r' := by
    rintro rfl
    exact absurd h (by decide)
  unfold afterNewline?
  split
  · next heq => exact absurd (List.cons.inj heq).1 hfeed
  · next heq => exact absurd (List.cons.inj heq).1 hreturn
  · rfl

/-- A text does not go on with characters of a class. -/
def StopsAt (inClass : Char → Bool) (s : List Char) : Prop := ∀ c ∈ s.head?, inClass c = false

/-- A text that begins with a character outside of a class does not go on with the class. -/
theorem stopsAt_cons {inClass : Char → Bool} (h : inClass c = false) (rest : List Char) :
    StopsAt inClass (c :: rest) := by
  intro d hd
  obtain rfl : c = d := by simpa using hd
  exact h

/-- Nothing is dropped from a text that does not go on with the class. -/
theorem StopsAt.dropWhile_eq {inClass : Char → Bool} (h : StopsAt inClass rest) :
    rest.dropWhile inClass = rest := by
  cases rest with
  | nil => rfl
  | cons c more => rw [List.dropWhile_cons, h c (by simp), if_neg Bool.false_ne_true]

/-- Nothing is taken from a text that does not go on with the class. -/
theorem StopsAt.takeWhile_eq {inClass : Char → Bool} (h : StopsAt inClass rest) :
    rest.takeWhile inClass = [] := by
  cases rest with
  | nil => rfl
  | cons c more => rw [List.takeWhile_cons, h c (by simp), if_neg Bool.false_ne_true]

/-- A thing of which it is known how it is read from its written form, if what follows may follow. -/
def IsReadAs (thing : Scan α) (may : List Char → Prop) (written : List Char) (a : α) : Prop :=
  ∀ rest, may rest → thing (written ++ rest) = some (a, rest)

/-- Things with a separator between any two are read one by one. -/
theorem separated_intercalate {thing : Scan α} {may : List Char → Prop} {parts : List (List Char)}
    {things : List α} (h : List.Forall₂ (IsReadAs thing may) parts things)
    (hne : parts ≠ []) (hsep : ∀ more, may (sep :: more)) (hrest : may rest)
    (hend : after? sep rest = none) :
    separated sep thing ([sep].intercalate parts ++ rest) = some (things, rest) := by
  induction h with
  | nil => exact absurd rfl hne
  | @cons part a parts things hpart hmore ih =>
    cases hmore with
    | nil =>
      rw [List.intercalate_singleton, separated, hpart rest hrest]
      simp only [hend]
    | @cons part' a' parts' things' hpart' hmore' =>
      have htail := ih (List.cons_ne_nil _ _)
      have hsplit : [sep].intercalate (part :: part' :: parts') ++ rest =
          part ++ sep :: ([sep].intercalate (part' :: parts') ++ rest) := by
        rw [List.intercalate_cons_cons]
        simp
      have hless : ([sep].intercalate (part' :: parts') ++ rest).length <
          (part ++ sep :: ([sep].intercalate (part' :: parts') ++ rest)).length := by
        simp only [List.length_append, List.length_cons]
        omega
      rw [hsplit, separated, hpart _ (hsep _)]
      simp only [after?_cons, if_pos hless, htail, Option.map_some]

end NamespaceControl.Toml
