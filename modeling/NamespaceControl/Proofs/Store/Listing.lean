import Mathlib.Data.List.Sort
import NamespaceControl.Proofs.Store.Subtree

/-!
# What a store lists

The names of a store and the children of a namespace are listed in strictly ascending order, so
what is listed is determined by what there is. In this order a name comes before everything below
it. Together with the grants the names determine a tree (`IsTree.eq_of_contains_of_hasPermission`):
its child sets say nothing more.
-/

namespace NamespaceControl

/-! ## The order of names -/

namespace Name

variable {a n : Name}

/-- Lists of names in strictly ascending order are the same if they have the same members. -/
theorem eq_of_ascending {names names' : List Name}
    (h : names.Pairwise fun a b => compare a b = .lt)
    (h' : names'.Pairwise fun a b => compare a b = .lt)
    (hmem : ∀ n, n ∈ names ↔ n ∈ names') : names = names' := by
  have hirrefl : Std.Irrefl fun a b : Name => compare a b = .lt :=
    ⟨fun a ha => by simp [Std.ReflCmp.compare_self] at ha⟩
  have hantisymm : Std.Antisymm fun a b : Name => compare a b = .lt :=
    ⟨fun a b hab hba => absurd hab (Std.OrientedCmp.not_lt_of_lt hba)⟩
  exact h.eq_of_mem_iff h' hmem

/-- No name is twice in a list in strictly ascending order. -/
theorem nodup_of_ascending {names : List Name}
    (h : names.Pairwise fun a b => compare a b = .lt) : names.Nodup := by
  refine h.imp fun {a b} hlt => ?_
  rintro rfl
  simp [Std.ReflCmp.compare_self] at hlt

/-- Segments do not come behind those that they begin. -/
theorem isLE_compare_append (segments more : List String) :
    (compare segments (segments ++ more)).isLE = true := by
  induction segments with
  | nil => cases more <;> rfl
  | cons s rest ih =>
    have hs : compare s s = .eq := Std.ReflCmp.compare_self
    show (List.compareLex compare (s :: rest) (s :: (rest ++ more))).isLE = true
    rw [List.compareLex_cons_cons, hs]
    exact ih

/-- A name does not come behind a name that it covers. -/
theorem Covers.isLE (h : a.Covers n) : (compare a n).isLE = true := by
  obtain ⟨more, hmore⟩ := h
  show (compare a.segments n.segments).isLE = true
  rw [← hmore]
  exact isLE_compare_append a.segments more

/-- A name covers no name that comes before it. -/
theorem not_covers_of_lt (h : compare n a = .lt) : ¬ a.Covers n := fun hcovers =>
  Std.OrientedCmp.not_isLE_of_lt h hcovers.isLE

end Name

/-! ## Listings -/

namespace Store

variable {s t : Store} {n : Name}

/-- A store lists the namespaces that exist. -/
theorem mem_names : n ∈ s.names ↔ s.contains n = true := by
  rw [names, Std.ExtTreeMap.mem_keys, contains, Std.ExtTreeMap.contains_iff_mem]

/-- The names of a store are listed in strictly ascending order. -/
theorem ascending_names (s : Store) : s.names.Pairwise fun a b => compare a b = .lt :=
  Std.ExtTreeMap.ordered_keys

/-- Stores with the same namespaces list the same names. -/
theorem names_congr (h : ∀ n, s.contains n = t.contains n) : s.names = t.names := by
  refine Name.eq_of_ascending s.ascending_names t.ascending_names fun n => ?_
  rw [mem_names, mem_names, h n]

/-- The children of a namespace are listed in strictly ascending order. -/
theorem ascending_children (s : Store) (n : Name) :
    (s.children n).Pairwise fun a b => compare a b = .lt := by
  unfold children
  split
  · exact Std.ExtTreeSet.ordered_toList
  · exact List.Pairwise.nil

/-! ## Trees -/

/-- In a tree a namespace has children exactly if it is the parent of some namespace. -/
theorem IsTree.children_eq_nil_iff (hs : s.IsTree) :
    s.children n = [] ↔ ∀ c, s.contains c = true → c.parent? ≠ some n := by
  rw [List.eq_nil_iff_forall_not_mem]
  refine forall_congr' fun c => ?_
  rw [hs n c, not_and]

/-- Trees with the same namespaces have the same child sets. -/
theorem IsTree.children_congr (hs : s.IsTree) (ht : t.IsTree)
    (h : ∀ n, s.contains n = t.contains n) (n : Name) : s.children n = t.children n := by
  refine Name.eq_of_ascending (s.ascending_children n) (t.ascending_children n) fun c => ?_
  rw [hs n c, ht n c, h c]

/-- Trees with the same namespaces and the same grants are the same. -/
theorem IsTree.eq_of_contains_of_hasPermission (hs : s.IsTree) (ht : t.IsTree)
    (hcontains : ∀ n, s.contains n = true ↔ t.contains n = true)
    (hgrants : ∀ n role permission,
      s.hasPermission n role permission = true ↔ t.hasPermission n role permission = true) :
    s = t := by
  ext n : 1
  cases hr : s.record? n with
  | none =>
    symm
    rw [record?_eq_none_iff, ← Bool.not_eq_true, ← hcontains n, Bool.not_eq_true,
      ← record?_eq_none_iff]
    exact hr
  | some r =>
    obtain ⟨r', hr'⟩ := contains_iff.mp ((hcontains n).mp (contains_iff.mpr ⟨r, hr⟩))
    have hsame : r.grants = r'.grants := by
      apply Std.ExtTreeSet.ext_mem
      rintro ⟨role, permission⟩
      simpa [hasPermission_iff, hr, hr'] using hgrants n role permission
    have hchildren : r.children = r'.children := by
      apply Std.ExtTreeSet.ext_mem
      intro c
      have hc : c ∈ s.children n ↔ c ∈ t.children n := by rw [hs n c, ht n c, hcontains c]
      simpa [mem_children, hr, hr'] using hc
    rw [hr', Record.eq_of_grants_of_children hsame hchildren]

end Store

end NamespaceControl
