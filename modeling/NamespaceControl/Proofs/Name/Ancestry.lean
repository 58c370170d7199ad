import NamespaceControl.Proofs.Name.Classification

/-!
# The way up to the root

What stands above a name can be asked for in three ways: by taking parents one after the other
(`Name.above?`), by the segments that a name begins with, and by the text that a written form begins
with. All of them come to the same. A text that only looks alike, as `acme` does in `acmex.lab`, is
told apart by the dot that has to follow: the text behind it has pieces of its own, and these are
the segments that a name has and the other one has not (`Name.text_eq_append_iff`).
-/

namespace NamespaceControl

variable {s text rest : String} {a c n p : Name} {k : Nat}

/-! ## Texts behind a name -/

/-- A text without dots is its own only piece. -/
theorem isCut_singleton_iff : IsCut [s] text ↔ s = text ∧ '.' ∉ text.toList := by
  constructor
  · intro h
    have htext : s = text := by simpa [dotted] using h.joined
    exact ⟨htext, htext ▸ h.dot_not_mem s (List.mem_singleton_self s)⟩
  · rintro ⟨rfl, hdot⟩
    exact ⟨by simp, by simpa using hdot, by simp [dotted]⟩

namespace Name

/-- The pieces of a written form are the segments. -/
theorem isCut_text (n : Name) : IsCut n.segments n.text where
  ne_nil := n.segments_ne_nil
  dot_not_mem s hs := dot_not_mem_of_isSegment (n.isSegment s hs)
  joined := rfl

/-- More segments stand behind a written form and a dot. -/
theorem dotted_append_of_isCut {pieces : List String} (a : Name) (h : IsCut pieces rest) :
    dotted (a.segments ++ pieces) = a.text ++ "." ++ rest := by
  rw [dotted, String.intercalate_append_of_ne_nil a.segments_ne_nil h.ne_nil, ← dotted, ← dotted,
    h.joined, Name.text]

/-- A written form goes on with a dot behind another one exactly if the segments go on, and then
with the pieces of the text that is behind the dot. -/
theorem text_eq_append_iff :
    n.text = a.text ++ "." ++ rest ↔
      ∃ pieces, IsCut pieces rest ∧ n.segments = a.segments ++ pieces := by
  constructor
  · intro htext
    obtain ⟨pieces, hcut⟩ := exists_isCut rest
    have hdots : ∀ s ∈ a.segments ++ pieces, '.' ∉ s.toList := by
      intro s hs
      rcases List.mem_append.mp hs with hs | hs
      · exact dot_not_mem_of_isSegment (a.isSegment s hs)
      · exact hcut.dot_not_mem s hs
    have hjoined : dotted (a.segments ++ pieces) = n.text := by
      rw [dotted_append_of_isCut a hcut, htext]
    -- a text has only one list of pieces
    exact ⟨pieces, hcut, n.isCut_text.unique ⟨by simp [hcut.ne_nil], hdots, hjoined⟩⟩
  · rintro ⟨pieces, hcut, hsegments⟩
    rw [Name.text, hsegments, dotted_append_of_isCut a hcut]

/-- The written form of a child is that of its parent, a dot, and a text that is not empty and has
no dots. -/
theorem parent?_eq_some_iff_text :
    c.parent? = some p ↔
      ∃ last, last ≠ "" ∧ '.' ∉ last.toList ∧ c.text = p.text ++ "." ++ last := by
  rw [parent?_eq_some_iff]
  constructor
  · intro h
    have hsegments : c.segments = p.segments ++ [c.segments.getLast c.segments_ne_nil] := by
      rw [h, List.dropLast_concat_getLast]
    have hlast := c.isSegment _ (List.getLast_mem c.segments_ne_nil)
    have hdot := dot_not_mem_of_isSegment hlast
    exact ⟨_, hlast.1, hdot,
      text_eq_append_iff.mpr ⟨_, isCut_singleton_iff.mpr ⟨rfl, hdot⟩, hsegments⟩⟩
  · rintro ⟨last, -, hdot, htext⟩
    obtain ⟨pieces, hcut, hsegments⟩ := text_eq_append_iff.mp htext
    obtain rfl := hcut.unique (isCut_singleton_iff.mpr ⟨rfl, hdot⟩)
    rw [hsegments, List.dropLast_concat]

/-- A name has more segments behind those of another one exactly if its written form begins with
that of the other and a dot. -/
theorem properPrefix_iff_text :
    a.segments <+: n.segments ∧ a.segments ≠ n.segments ↔
      (a.text ++ ".").toList <+: n.text.toList := by
  constructor
  · rintro ⟨⟨pieces, hsegments⟩, hne⟩
    have hpieces : pieces ≠ [] := by
      rintro rfl
      exact hne (by simpa using hsegments)
    have hcut : IsCut pieces (dotted pieces) := by
      refine ⟨hpieces, fun s hs => dot_not_mem_of_isSegment (n.isSegment s ?_), rfl⟩
      rw [← hsegments]
      exact List.mem_append_right _ hs
    refine ⟨(dotted pieces).toList, ?_⟩
    rw [text_eq_append_iff.mpr ⟨pieces, hcut, hsegments.symm⟩, ← String.toList_append]
  · rintro ⟨chars, hchars⟩
    have htext : n.text = a.text ++ "." ++ String.ofList chars := by
      apply String.toList_injective
      rw [String.toList_append, String.toList_ofList, hchars]
    obtain ⟨pieces, hcut, hsegments⟩ := text_eq_append_iff.mp htext
    rw [hsegments]
    exact ⟨List.prefix_append _ _, by simpa using hcut.ne_nil⟩

/-! ## Steps up -/

/-- The name that is reached by taking the parent a number of times, if there are so many. -/
def above? (n : Name) : Nat → Option Name
  | 0 => some n
  | k + 1 => (n.above? k).bind parent?

/-- The first step up can be taken first. -/
theorem above?_succ (n : Name) (k : Nat) : n.above? (k + 1) = n.parent?.bind (·.above? k) := by
  induction k with
  | zero => simp [above?]
  | succ k ih => rw [above?, ih, Option.bind_assoc]; rfl

/-- What is reached in some steps up begins the name, and has one segment less for every step. -/
theorem covers_and_depth_of_above? (h : n.above? k = some a) :
    a.Covers n ∧ a.depth + k = n.depth := by
  induction k generalizing a with
  | zero =>
    obtain rfl : n = a := Option.some.inj h
    exact ⟨covers_refl n, rfl⟩
  | succ k ih =>
    obtain ⟨b, hb, ha⟩ := Option.bind_eq_some_iff.mp h
    obtain ⟨hcovers, hdepth⟩ := ih hb
    have hstep := depth_of_parent? ha
    exact ⟨(covers_of_parent? ha).trans hcovers, by omega⟩

/-- A step up can be taken as long as there are two segments. -/
theorem exists_above? (h : k < n.depth) : ∃ a, n.above? k = some a := by
  induction k with
  | zero => exact ⟨n, rfl⟩
  | succ k ih =>
    obtain ⟨b, hb⟩ := ih (Nat.lt_of_succ_lt h)
    obtain ⟨-, hdepth⟩ := covers_and_depth_of_above? hb
    have hroot : b.isRoot = false := by
      rw [isRoot, beq_eq_false_iff_ne]
      omega
    obtain ⟨a, ha⟩ := exists_parent?_of_not_isRoot hroot
    exact ⟨a, Option.bind_eq_some_iff.mpr ⟨b, hb, ha⟩⟩

/-- What is reached in some steps up is the one name that begins the name and has one segment less
for every step. -/
theorem above?_eq_some_iff :
    n.above? k = some a ↔ a.segments <+: n.segments ∧ a.depth + k = n.depth := by
  constructor
  · exact covers_and_depth_of_above?
  · rintro ⟨hbegins, hdepth⟩
    have hpos := a.depth_pos
    obtain ⟨b, hb⟩ := exists_above? (n := n) (k := k) (by omega)
    obtain ⟨hcovers, hdepth'⟩ := covers_and_depth_of_above? hb
    -- both begin the same name, and are equally deep
    have hlength : a.segments.length = b.segments.length := by
      change a.depth = b.depth
      omega
    have hab : a.segments <+: b.segments :=
      List.prefix_of_prefix_length_le hbegins hcovers hlength.le
    rw [hb, ext_segments (hab.eq_of_length hlength)]

/-- The root is reached after one step less than there are segments. -/
theorem exists_root_above?_iff :
    (∃ root, n.above? k = some root ∧ root.isRoot = true) ↔ k = n.depth - 1 := by
  simp only [isRoot, beq_iff_eq]
  have hpos := n.depth_pos
  constructor
  · rintro ⟨root, hroot, hdepth⟩
    obtain ⟨-, hsum⟩ := covers_and_depth_of_above? hroot
    omega
  · rintro rfl
    obtain ⟨root, hroot⟩ := exists_above? (Nat.sub_lt hpos Nat.one_pos)
    obtain ⟨-, hsum⟩ := covers_and_depth_of_above? hroot
    exact ⟨root, hroot, by omega⟩

/-! ## The names on the way -/

/-- Above a root there is nothing. -/
theorem ancestors_of_none (h : n.parent? = none) : n.ancestors = [] := by
  rw [ancestors]
  split
  · rfl
  · next p hp => rw [h] at hp; cases hp

/-- Above a name that has a parent there are the parent and what is above it. -/
theorem ancestors_of_some (h : n.parent? = some p) : n.ancestors = p :: p.ancestors := by
  rw [ancestors]
  split
  · next hp => rw [h] at hp; cases hp
  · next q hq =>
    rw [h] at hq
    cases hq
    rfl

/-- The names on the way up are those that are reached in steps up, in their order. -/
theorem getElem?_ancestors (n : Name) (k : Nat) : n.ancestors[k]? = n.above? (k + 1) := by
  induction k generalizing n with
  | zero =>
    cases hp : n.parent? with
    | none => simp [ancestors_of_none hp, above?, hp]
    | some p => simp [ancestors_of_some hp, above?, hp]
  | succ k ih =>
    rw [above?_succ]
    cases hp : n.parent? with
    | none => simp [ancestors_of_none hp]
    | some p => rw [ancestors_of_some hp, List.getElem?_cons_succ, ih]; rfl

/-- On the way up there are the names that begin the name and are not all of it. -/
theorem mem_ancestors_iff :
    a ∈ n.ancestors ↔ a.segments <+: n.segments ∧ a.segments ≠ n.segments := by
  simp only [List.mem_iff_getElem?, getElem?_ancestors, above?_eq_some_iff]
  constructor
  · rintro ⟨k, hbegins, hdepth⟩
    refine ⟨hbegins, fun hsegments => ?_⟩
    rw [ext_segments hsegments] at hdepth
    omega
  · rintro ⟨hbegins, hne⟩
    have hlt : a.depth < n.depth :=
      lt_of_le_of_ne hbegins.length_le fun h => hne (hbegins.eq_of_length h)
    exact ⟨n.depth - a.depth - 1, hbegins, by omega⟩

/-- There is one name on the way up for every segment but one. -/
theorem length_ancestors (n : Name) : n.ancestors.length = n.depth - 1 := by
  induction n using inductionOnParent with
  | step n ih =>
    cases hp : n.parent? with
    | none =>
      have hroot : n.depth = 1 := by simpa [isRoot] using parent?_eq_none_iff.mp hp
      rw [ancestors_of_none hp, hroot]
      rfl
    | some p =>
      have hpos := p.depth_pos
      rw [ancestors_of_some hp, List.length_cons, ih p hp, depth_of_parent? hp]
      omega

/-- **Parents, the test for them and written forms agree, and so they do all the way up.** The test
finds one name to be the parent of another exactly if it is, and exactly if the other is written
like it with a dot behind, and then a text that is not empty and has no dots. Taking parents, a root
is reached after one step less than there are segments and at no other time. What is met on the way
are the names that begin the name without being all of it, each of them as many steps up as it has
segments less; and these are the names of which the written form, with a dot behind it, begins that
of the name. -/
theorem parents_agree_with_text (p c n : Name) :
    (p.isParentOf c = true ↔ c.parent? = some p) ∧
    (c.parent? = some p ↔
      ∃ last, last ≠ "" ∧ '.' ∉ last.toList ∧ c.text = p.text ++ "." ++ last) ∧
    (∀ k, (∃ root, n.above? k = some root ∧ root.isRoot = true) ↔ k = n.depth - 1) ∧
    (∀ k a, n.above? k = some a ↔ a.segments <+: n.segments ∧ a.depth + k = n.depth) ∧
    (n.ancestors.length = n.depth - 1 ∧ ∀ k, n.ancestors[k]? = n.above? (k + 1)) ∧
    (∀ a, a ∈ n.ancestors ↔ a.segments <+: n.segments ∧ a.segments ≠ n.segments) ∧
    ∀ a : Name, a.segments <+: n.segments ∧ a.segments ≠ n.segments ↔
      (a.text ++ ".").toList <+: n.text.toList :=
  ⟨isParentOf_iff, parent?_eq_some_iff_text, fun _ => exists_root_above?_iff,
    fun _ _ => above?_eq_some_iff, ⟨n.length_ancestors, n.getElem?_ancestors⟩,
    fun _ => mem_ancestors_iff, fun _ => properPrefix_iff_text⟩

/-- A name that only looks alike is not on the way up. -/
example :
    let acme : Name := ⟨["acme"], by decide, by decide⟩
    let lab : Name := ⟨["acmex", "lab"], by decide, by decide⟩
    acme.text.toList <+: lab.text.toList ∧ ¬ (acme.text ++ ".").toList <+: lab.text.toList ∧
      acme.isParentOf lab = false := by decide

end Name

end NamespaceControl
