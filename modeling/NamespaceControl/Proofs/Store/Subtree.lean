import NamespaceControl.Proofs.Name.Hierarchy
import NamespaceControl.Proofs.Store.Records

/-!
# Trees, and removing what lies below a name

In a store that is a *tree* the child sets say the same as the names (`IsTree`). Removing subtrees
follows the child sets, while what ought to go is told by the names: everything that a name on the
list covers. The two agree (`record?_removeSubtrees`) as long as a namespace that is no longer
listed by its parent is itself on the list (`ListsOrPends`); that is what holds between two steps of
a removal, when the store is no tree.
-/

namespace NamespaceControl.Store

variable {s : Store} {a m n p c : Name} {pending rest : List Name}

/-! ## Trees -/

/-- In a tree the children of a namespace are the namespaces whose parent it is. -/
def IsTree (s : Store) : Prop :=
  ∀ p c, c ∈ s.children p ↔ s.contains c = true ∧ c.parent? = some p

/-- The empty store is a tree. -/
theorem isTree_empty : empty.IsTree := by
  intro p c
  simp [mem_children, contains_iff]

/-- In a tree a parent exists if its child does. -/
theorem IsTree.contains_parent (h : s.IsTree) (hc : s.contains c = true)
    (hp : c.parent? = some p) : s.contains p = true :=
  contains_of_mem_children ((h p c).mpr ⟨hc, hp⟩)

/-! ## Between two steps of a removal -/

/-- Only true children are listed, and a namespace that its parent does not list is on the list of
names whose subtrees are still to go. -/
structure ListsOrPends (s : Store) (pending : List Name) : Prop where
  /-- What a record lists are children. -/
  parent_eq : ∀ p c, c ∈ s.children p → c.parent? = some p
  /-- What no record lists is to go. -/
  listed_or_pending : ∀ p c, s.contains c = true → c.parent? = some p →
    c ∈ s.children p ∨ c ∈ pending

/-- A name that exists and is covered by the first one on the list is that name, or is covered by
one of its listed children, or by a later name on the list. -/
theorem ListsOrPends.cases_of_covers (h : s.ListsOrPends (n :: rest)) (hm : s.contains m = true)
    (hnm : n.Covers m) :
    m = n ∨ (∃ c ∈ s.children n, c.Covers m) ∨ ∃ a ∈ rest, a.Covers m := by
  -- the way from `m` up to `n` either passes a pending name or arrives at a listed child
  induction m using Name.inductionOnParent with
  | step m ih =>
    cases hp : m.parent? with
    | none => exact Or.inl ((Name.covers_iff_of_isRoot hp).mp hnm).symm
    | some p =>
      rcases h.listed_or_pending p m hm hp with hlisted | hpending
      · rcases (Name.covers_iff_of_parent? hp).mp hnm with rfl | hnp
        · exact Or.inl rfl
        · have hpm : p.Covers m := Name.covers_of_parent? hp
          have hpresent : s.contains p = true := contains_of_mem_children hlisted
          rcases ih p hp hpresent hnp with rfl | ⟨c, hc, hcp⟩ | ⟨a, ha, hap⟩
          · exact Or.inr (Or.inl ⟨m, hlisted, Name.covers_refl m⟩)
          · exact Or.inr (Or.inl ⟨c, hc, hcp.trans hpm⟩)
          · exact Or.inr (Or.inr ⟨a, ha, hap.trans hpm⟩)
      · rcases List.mem_cons.mp hpending with rfl | hrest
        · exact Or.inl rfl
        · exact Or.inr (Or.inr ⟨m, hrest, Name.covers_refl m⟩)

/-- Other records list what they listed before one was erased. -/
theorem mem_children_erase : c ∈ (s.erase n).children p ↔ p ≠ n ∧ c ∈ s.children p := by
  simp only [mem_children, record?_erase]
  by_cases hp : p = n
  · simp [hp]
  · simp [hp]

/-- Other namespaces exist as before one was erased. -/
theorem contains_erase : (s.erase n).contains m = true ↔ m ≠ n ∧ s.contains m = true := by
  simp only [contains_iff, record?_erase]
  by_cases hm : m = n
  · simp [hm]
  · simp [hm]

/-- A name without a record can be struck off the list. -/
theorem ListsOrPends.skip (h : s.ListsOrPends (n :: rest)) (hn : s.record? n = none) :
    s.ListsOrPends rest where
  parent_eq := h.parent_eq
  listed_or_pending p c hc hp := by
    rcases h.listed_or_pending p c hc hp with hlisted | hpending
    · exact Or.inl hlisted
    · rcases List.mem_cons.mp hpending with rfl | hrest
      · rw [record?_eq_none_iff.mp hn] at hc
        cases hc
      · exact Or.inr hrest

/-- Erasing the first record on the list puts the children that it listed on the list. -/
theorem ListsOrPends.erase (h : s.ListsOrPends (n :: rest)) :
    (s.erase n).ListsOrPends (s.children n ++ rest) where
  parent_eq p c hc := h.parent_eq p c (mem_children_erase.mp hc).2
  listed_or_pending p c hc hp := by
    obtain ⟨hcn, hc⟩ := contains_erase.mp hc
    rcases h.listed_or_pending p c hc hp with hlisted | hpending
    · by_cases hpn : p = n
      · exact Or.inr (List.mem_append_left _ (hpn ▸ hlisted))
      · exact Or.inl (mem_children_erase.mpr ⟨hpn, hlisted⟩)
    · exact Or.inr (List.mem_append_right _ ((List.mem_cons.mp hpending).resolve_left hcn))

/-- In a tree nothing is to go. -/
theorem IsTree.listsOrPends (h : s.IsTree) (pending : List Name) : s.ListsOrPends pending where
  parent_eq p c hc := ((h p c).mp hc).2
  listed_or_pending p c hc hp := Or.inl ((h p c).mpr ⟨hc, hp⟩)

/-! ## What a removal takes -/

/-- Of the namespaces that exist, the list covers the first name on it and what is covered by the
children that are listed there and by the rest. -/
theorem ListsOrPends.covers_cons_iff (h : s.ListsOrPends (n :: rest))
    (hm : s.contains m = true) :
    (∃ a ∈ n :: rest, a.Covers m) ↔ m = n ∨ ∃ a ∈ s.children n ++ rest, a.Covers m := by
  constructor
  · rintro ⟨a, ha, ham⟩
    rcases List.mem_cons.mp ha with rfl | ha
    · rcases h.cases_of_covers hm ham with hmn | ⟨c, hc, hcm⟩ | ⟨b, hb, hbm⟩
      · exact Or.inl hmn
      · exact Or.inr ⟨c, List.mem_append_left _ hc, hcm⟩
      · exact Or.inr ⟨b, List.mem_append_right _ hb, hbm⟩
    · exact Or.inr ⟨a, List.mem_append_right _ ha, ham⟩
  · rintro (rfl | ⟨a, ha, ham⟩)
    · exact ⟨m, List.mem_cons_self, Name.covers_refl m⟩
    · rcases List.mem_append.mp ha with ha | ha
      · have hna : n.Covers a := Name.covers_of_parent? (h.parent_eq n a ha)
        exact ⟨n, List.mem_cons_self, hna.trans ham⟩
      · exact ⟨a, List.mem_cons_of_mem _ ha, ham⟩

/-- Which names without a record are said to be taken makes no difference. -/
theorem ite_record?_congr {P Q : Prop} [Decidable P] [Decidable Q]
    (h : s.contains m = true → (P ↔ Q)) :
    (if P then none else s.record? m) = if Q then none else s.record? m := by
  by_cases hm : s.contains m = true
  · simp only [h hm]
  · rw [Bool.not_eq_true, ← record?_eq_none_iff] at hm
    simp [hm]

/-- Removing subtrees takes exactly what the names on the list cover. -/
theorem record?_removeSubtrees (h : s.ListsOrPends pending) (m : Name) :
    (s.removeSubtrees pending).record? m =
      if ∃ a ∈ pending, a.Covers m then none else s.record? m := by
  induction s, pending using removeSubtrees.induct with
  | case1 s => simp [removeSubtrees]
  | case2 s n rest hn ih =>
    have hchildren : s.children n = [] := by rw [children, hn]
    rw [removeSubtrees, hn]
    rw [ih (h.skip hn)]
    refine ite_record?_congr fun hm => ?_
    have hmn : m ≠ n := by
      rintro rfl
      rw [record?_eq_none_iff.mp hn] at hm
      cases hm
    rw [h.covers_cons_iff hm, hchildren, List.nil_append]
    simp [hmn]
  | case3 s n rest r hn ih =>
    have hchildren : s.children n = r.children.toList := by rw [children, hn]
    rw [removeSubtrees, hn]
    rw [ih (hchildren ▸ h.erase), record?_erase, ← hchildren]
    by_cases hmn : m = n
    · have hcovers : ∃ a ∈ n :: rest, a.Covers m :=
        ⟨n, List.mem_cons_self, hmn ▸ Name.covers_refl n⟩
      simp only [if_pos hmn, if_pos hcovers, ite_self]
    · rw [if_neg hmn]
      refine ite_record?_congr fun hm => ?_
      rw [h.covers_cons_iff hm]
      simp [hmn]

end NamespaceControl.Store
