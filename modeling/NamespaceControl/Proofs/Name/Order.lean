import Mathlib.Data.String.Basic
import NamespaceControl.Proofs.Console.Lines
import NamespaceControl.Proofs.Name.Text

/-!
# The order of names and of their texts

Names are compared segment by segment. Comparing their texts byte by byte comes to the same
(`Name.compare_eq_compare_encode`), because the dot comes before every character of a word: where
one segment ends and the other goes on, the dot or the end of the text decides as the segments do.
-/

namespace NamespaceControl

/-! ## Comparing lists -/

section Compare

variable {α β : Type} [Ord α] [LT α] [Std.LawfulLTOrd α] [Ord β] [LT β] [Std.LawfulLTOrd β]

/-- What is less and what is greater decides a comparison. -/
theorem compare_eq_compare {a b : α} {x y : β} (hlt : a < b ↔ x < y) (hgt : b < a ↔ y < x) :
    compare a b = compare x y := by
  have hl : compare a b = .lt ↔ compare x y = .lt := by
    rw [Std.LawfulLTCmp.eq_lt_iff_lt, Std.LawfulLTCmp.eq_lt_iff_lt, hlt]
  have hg : compare a b = .gt ↔ compare x y = .gt := by
    rw [Std.OrientedCmp.gt_iff_lt, Std.OrientedCmp.gt_iff_lt, Std.LawfulLTCmp.eq_lt_iff_lt,
      Std.LawfulLTCmp.eq_lt_iff_lt, hgt]
  cases hab : compare a b with
  | lt => exact (hl.mp hab).symm
  | gt => exact (hg.mp hab).symm
  | eq =>
    cases hxy : compare x y with
    | lt => rw [hl.mpr hxy] at hab; cases hab
    | gt => rw [hg.mpr hxy] at hab; cases hab
    | eq => rfl

/-- Lists are compared by the order of lists. -/
instance instLawfulLTOrdList [Std.LawfulEqOrd α] : Std.LawfulLTOrd (List α) where
  eq_lt_iff_lt {l l'} := by
    induction l generalizing l' with
    | nil =>
      cases l' with
      | nil => simp
      | cons b l' => simp
    | cons a l ih =>
      cases l' with
      | nil => simp
      | cons b l' =>
        rw [List.compare_eq_compareLex, List.compareLex_cons_cons, ← List.compare_eq_compareLex,
          Ordering.then_eq_lt, ih, Std.LawfulLTCmp.eq_lt_iff_lt, Std.LawfulEqCmp.compare_eq_iff_eq,
          List.cons_lt_cons_iff]

end Compare

/-- Texts are compared character by character. -/
theorem compare_eq_compare_toList (s t : String) : compare s t = compare s.toList t.toList :=
  compare_eq_compare String.lt_iff String.lt_iff

/-! ## Characters of words -/

variable {c d : Char}

/-- The dot comes before every character of a word. -/
theorem dot_lt_of_isWordChar (h : isWordChar c = true) : '.' < c := by
  have hcode := toNat_of_isWordChar h
  have hdot : '.'.toNat < c.toNat := by
    rw [show '.'.toNat = 46 from rfl]
    omega
  exact hdot

namespace Text.Utf8

/-- The form of a text in ASCII has a byte for each character. -/
theorem encode_eq_map {text : String} (h : ∀ c ∈ text.toList, c.toNat < 0x80) :
    encode text = text.toList.map fun c => UInt8.ofNat c.toNat := by
  have hform : ∀ c ∈ text.toList, String.utf8EncodeChar c = [UInt8.ofNat c.toNat] :=
    fun c hc => if_pos (Nat.le_of_lt_succ (h c hc))
  rw [← String.ofList_toList (s := text), encode_ofList, String.toList_ofList,
    List.flatMap_congr hform]
  exact List.flatMap_pure_eq_map _ _

/-- Bytes of ASCII are compared as the characters are. -/
theorem compare_ofNat (hc : c.toNat < 0x80) (hd : d.toNat < 0x80) :
    compare (UInt8.ofNat c.toNat) (UInt8.ofNat d.toNat) = compare c d := by
  have hbyte : ∀ n < 0x80, (UInt8.ofNat n).toNat = n := fun n hn => by
    rw [UInt8.toNat_ofNat']
    omega
  apply compare_eq_compare
  · rw [UInt8.lt_iff_toNat_lt, hbyte _ hc, hbyte _ hd]
    exact Iff.rfl
  · rw [UInt8.lt_iff_toNat_lt, hbyte _ hc, hbyte _ hd]
    exact Iff.rfl

/-- Texts in ASCII are compared as their forms are. -/
theorem compare_encode {s t : String} (hs : ∀ c ∈ s.toList, c.toNat < 0x80)
    (ht : ∀ c ∈ t.toList, c.toNat < 0x80) :
    compare (encode s) (encode t) = compare s.toList t.toList := by
  have hchars : ∀ l l' : List Char, (∀ c ∈ l, c.toNat < 0x80) → (∀ c ∈ l', c.toNat < 0x80) →
      compare (l.map fun c => UInt8.ofNat c.toNat) (l'.map fun c => UInt8.ofNat c.toNat) =
        compare l l' := by
    intro l
    induction l with
    | nil => intro l' _ _; cases l' <;> rfl
    | cons c l ih =>
      intro l' hl hl'
      cases l' with
      | nil => rfl
      | cons d l' =>
        rw [List.forall_mem_cons] at hl hl'
        simp only [List.map_cons, List.compare_eq_compareLex, List.compareLex_cons_cons] at ih ⊢
        rw [compare_ofNat hl.1 hl'.1, ih l' hl.2 hl'.2]
  rw [encode_eq_map hs, encode_eq_map ht, hchars _ _ hs ht]

end Text.Utf8

/-! ## Comparing names -/

/-- Words are compared first, and then what stands behind them, if that is nothing or begins with a
dot. -/
theorem compare_append {x y tail tail' : List Char} (hx : ∀ c ∈ x, isWordChar c = true)
    (hy : ∀ c ∈ y, isWordChar c = true) (htail : ∀ c ∈ tail.head?, c = '.')
    (htail' : ∀ c ∈ tail'.head?, c = '.') :
    compare (x ++ tail) (y ++ tail') = (compare x y).then (compare tail tail') := by
  simp only [List.compare_eq_compareLex]
  induction x generalizing y with
  | nil =>
    cases y with
    | nil => rfl
    | cons d y =>
      cases tail with
      | nil => rfl
      | cons c tail =>
        obtain rfl := htail c rfl
        have hlt : compare '.' d = .lt :=
          Std.LawfulLTCmp.eq_lt_iff_lt.mpr (dot_lt_of_isWordChar (hy d List.mem_cons_self))
        rw [List.nil_append, List.cons_append, List.compareLex_cons_cons, hlt]
        rfl
  | cons c x ih =>
    cases y with
    | nil =>
      cases tail' with
      | nil => rfl
      | cons d tail' =>
        obtain rfl := htail' d rfl
        have hgt : compare c '.' = .gt := by
          rw [Std.OrientedCmp.gt_iff_lt]
          exact Std.LawfulLTCmp.eq_lt_iff_lt.mpr (dot_lt_of_isWordChar (hx c List.mem_cons_self))
        rw [List.nil_append, List.cons_append, List.compareLex_cons_cons, hgt]
        rfl
    | cons d y =>
      rw [List.forall_mem_cons] at hx hy
      rw [List.cons_append, List.cons_append, List.compareLex_cons_cons, List.compareLex_cons_cons,
        ih hx.2 hy.2, Ordering.then_assoc]

/-- What stands behind a segment is nothing or begins with a dot. -/
theorem head?_trailing (segments : List String) :
    ∀ c ∈ (trailing segments).toList.head?, c = '.' := by
  intro c hc
  cases segments with
  | nil => simp [trailing] at hc
  | cons s more => simpa [trailing, eq_comm] using hc

/-- Segments that stand behind another one are compared as what stands there is. -/
theorem compare_trailing {xs ys : List String} (hxs : ∀ s ∈ xs, IsSegment s)
    (hys : ∀ s ∈ ys, IsSegment s) :
    compare (trailing xs).toList (trailing ys).toList = compare xs ys := by
  have htrailing : ∀ (s : String) (more : List String),
      (trailing (s :: more)).toList = '.' :: (s.toList ++ (trailing more).toList) := by
    intro s more
    simp [trailing]
  induction xs generalizing ys with
  | nil =>
    cases ys with
    | nil => rfl
    | cons y ys =>
      rw [htrailing]
      rfl
  | cons x xs ih =>
    cases ys with
    | nil =>
      rw [htrailing]
      rfl
    | cons y ys =>
      rw [List.forall_mem_cons] at hxs hys
      have hdot : compare '.' '.' = .eq := Std.ReflCmp.compare_self
      have hmore := compare_append hxs.1.2 hys.1.2 (head?_trailing xs) (head?_trailing ys)
      rw [ih hxs.2 hys.2, ← compare_eq_compare_toList] at hmore
      simp only [List.compare_eq_compareLex] at hmore ⊢
      rw [htrailing, htrailing, List.compareLex_cons_cons, hdot, Ordering.eq_then, hmore,
        List.compareLex_cons_cons]

namespace Name

/-- The text of a name is in ASCII. -/
theorem toNat_lt_of_mem_text {n : Name} (h : c ∈ n.text.toList) : c.toNat < 0x80 := by
  rcases n.isWordChar_or_dot h with h | rfl
  · have hcode := toNat_of_isWordChar h
    omega
  · decide

/-- **Names are compared as their texts are**, byte by byte. -/
theorem compare_eq_compare_encode (a b : Name) :
    compare a b = compare (Text.Utf8.encode a.text) (Text.Utf8.encode b.text) := by
  rw [Text.Utf8.compare_encode (fun c => toNat_lt_of_mem_text) fun c => toNat_lt_of_mem_text]
  show compare a.segments b.segments = _
  obtain ⟨x, xs, ha⟩ := List.exists_cons_of_ne_nil a.segments_ne_nil
  obtain ⟨y, ys, hb⟩ := List.exists_cons_of_ne_nil b.segments_ne_nil
  have hx : ∀ s ∈ x :: xs, IsSegment s := ha ▸ a.isSegment
  have hy : ∀ s ∈ y :: ys, IsSegment s := hb ▸ b.isSegment
  rw [List.forall_mem_cons] at hx hy
  rw [text, text, ha, hb, dotted_cons, dotted_cons, String.toList_append, String.toList_append,
    compare_append hx.1.2 hy.1.2 (head?_trailing xs) (head?_trailing ys),
    compare_trailing hx.2 hy.2, ← compare_eq_compare_toList]
  exact List.compareLex_cons_cons

end Name

end NamespaceControl
