import NamespaceControl.Name

/-!
# The hierarchy of names

A name says by itself where it stands: its parent is the name without the last segment, and a name
*covers* every name that begins with its segments. Both ways in which the hierarchy is asked for,
taking the parent of a name and testing one name against another, agree (`isParentOf_iff`), and
every name is reached from its root through its parents (`inductionOnParent`).
-/

namespace NamespaceControl.Name

variable {a n p : Name}

/-! ## Parents -/

/-- A name has a segment. -/
theorem depth_pos (n : Name) : 0 < n.depth := List.length_pos_iff.mpr n.segments_ne_nil

/-- The parent is the one name with all segments but the last. -/
theorem parent?_eq_some_iff : n.parent? = some p ↔ p.segments = n.segments.dropLast := by
  constructor
  · exact segments_of_parent?
  · intro h
    have hne : n.segments.dropLast ≠ [] := h ▸ p.segments_ne_nil
    rw [parent?, dif_neg hne]
    exact congrArg some (ext_segments h.symm)

/-- A name is the parent of another exactly if the test says so. -/
theorem isParentOf_iff {c : Name} : p.isParentOf c = true ↔ c.parent? = some p := by
  rw [parent?_eq_some_iff]
  simp only [isParentOf, Bool.and_eq_true, beq_iff_eq, List.isPrefixOf_iff_prefix]
  constructor
  · rintro ⟨hdepth, hprefix⟩
    rw [List.dropLast_eq_take, show c.segments.length - 1 = p.segments.length from
      Nat.sub_eq_of_eq_add hdepth]
    exact List.prefix_iff_eq_take.mp hprefix
  · intro h
    refine ⟨?_, h ▸ List.dropLast_prefix c.segments⟩
    have hpos := c.depth_pos
    rw [depth] at hpos
    rw [depth, depth, h, List.length_dropLast]
    omega

/-- Exactly the roots have no parent. -/
theorem parent?_eq_none_iff : n.parent? = none ↔ n.isRoot = true := by
  have hpos := n.depth_pos
  rw [depth] at hpos
  simp only [parent?, isRoot, depth, beq_iff_eq, ← List.length_eq_zero_iff, List.length_dropLast]
  split
  · next h =>
    simp only [true_iff]
    omega
  · next h =>
    simp only [reduceCtorEq, false_iff]
    omega

/-- A name that is no root has a parent. -/
theorem exists_parent?_of_not_isRoot (h : n.isRoot = false) : ∃ p, n.parent? = some p := by
  cases hp : n.parent? with
  | none => rw [parent?_eq_none_iff.mp hp] at h; cases h
  | some p => exact ⟨p, rfl⟩

/-- No name is its own parent. -/
theorem parent?_ne_self : n.parent? ≠ some n := fun h =>
  Nat.succ_ne_self n.depth (depth_of_parent? h).symm

/-- What holds of a name as soon as it holds of its parent holds of every name. -/
theorem inductionOnParent {motive : Name → Prop}
    (step : ∀ n, (∀ p, n.parent? = some p → motive p) → motive n) (n : Name) : motive n := by
  refine step n fun p hp => ?_
  have : p.depth < n.depth := by
    rw [depth_of_parent? hp]
    exact Nat.lt_succ_self _
  exact inductionOnParent step p
termination_by n.depth

/-! ## Names that cover each other -/

/-- A name covers itself and every name below it: those that begin with its segments. -/
def Covers (a n : Name) : Prop := a.segments <+: n.segments

instance : Decidable (a.Covers n) := inferInstanceAs (Decidable (_ <+: _))

/-- A name covers itself. -/
theorem covers_refl (n : Name) : n.Covers n := List.prefix_refl _

/-- A name covers what is covered by a name that it covers. -/
theorem Covers.trans {b : Name} (hab : a.Covers b) (hbn : b.Covers n) : a.Covers n :=
  List.IsPrefix.trans hab hbn

/-- Two names that cover each other are the same. -/
theorem Covers.antisymm (han : a.Covers n) (hna : n.Covers a) : a = n :=
  ext_segments (han.eq_of_length (Nat.le_antisymm han.length_le hna.length_le))

/-- A parent covers its child. -/
theorem covers_of_parent? (h : n.parent? = some p) : p.Covers n := by
  rw [Covers, parent?_eq_some_iff.mp h]
  exact List.dropLast_prefix _

/-- A parent is not covered by its child. -/
theorem not_covers_of_parent? (h : n.parent? = some p) : ¬ n.Covers p := fun hn =>
  parent?_ne_self (((covers_of_parent? h).antisymm hn) ▸ h)

/-- A name that has a parent is covered by itself and by what covers the parent. -/
theorem covers_iff_of_parent? (h : n.parent? = some p) : a.Covers n ↔ a = n ∨ a.Covers p := by
  constructor
  · intro han
    rcases Nat.lt_or_eq_of_le han.length_le with hlt | heq
    · right
      rw [Covers, parent?_eq_some_iff.mp h, List.prefix_iff_eq_take, List.dropLast_eq_take,
        List.take_take, Nat.min_eq_left (by omega)]
      exact List.prefix_iff_eq_take.mp han
    · exact Or.inl (ext_segments (han.eq_of_length heq))
  · rintro (rfl | hap)
    · exact covers_refl a
    · exact hap.trans (covers_of_parent? h)

/-- A root is covered by itself only. -/
theorem covers_iff_of_isRoot (h : n.parent? = none) : a.Covers n ↔ a = n := by
  constructor
  · intro han
    have hn : n.depth = 1 := by simpa [isRoot] using parent?_eq_none_iff.mp h
    have hle : a.depth ≤ n.depth := han.length_le
    have hpos := a.depth_pos
    exact ext_segments (han.eq_of_length (show a.depth = n.depth by omega))
  · rintro rfl
    exact covers_refl a

end NamespaceControl.Name
