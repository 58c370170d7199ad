import NamespaceControl.Config.Basic
import NamespaceControl.Proofs.Store.Subtree

/-!
# What an operation changes

Whatever is done to a store comes down to three changes: a namespace without grants and children
is added (`Grows`), a namespace goes with everything below it (`Prunes`), or a grant is made
(`GainsGrant`). Each says for every name what its record is afterwards. From that alone it follows
that the change keeps a tree a tree, and what it does to the names, the child sets and the
permissions; none of these is shown again for an operation.
-/

namespace NamespaceControl.Store

variable {s s' : Store} {n m p c : Name} {role : String} {permission : Permission}

/-! ## A namespace is added -/

/-- The second store is the first one with a new namespace, which is registered with its parent. -/
structure Grows (s s' : Store) (n : Name) : Prop where
  /-- The namespace was not there. -/
  absent : s.contains n = false
  /-- Its parent was there, if it has one. -/
  contains_parent : ∀ p, n.parent? = some p → s.contains p = true
  /-- Its record is empty, the parent lists it, and all other records stay. -/
  record?_eq : ∀ m, s'.record? m =
    if m = n then some .empty
    else if n.parent? = some m then (s.record? m).map (·.addChild n)
    else s.record? m

namespace Grows

/-- The record of the new namespace is empty. -/
theorem record?_self (h : s.Grows s' n) : s'.record? n = some .empty := by
  rw [h.record?_eq, if_pos rfl]

/-- One more namespace exists. -/
theorem contains_iff (h : s.Grows s' n) :
    s'.contains m = true ↔ m = n ∨ s.contains m = true := by
  rw [contains_eq, contains_eq, h.record?_eq]
  by_cases hm : m = n
  · simp [hm]
  · by_cases hp : n.parent? = some m <;> simp [hm, hp]

/-- One more child is listed. -/
theorem mem_children_iff (h : s.Grows s' n) :
    c ∈ s'.children p ↔ c ∈ s.children p ∨ (c = n ∧ n.parent? = some p) := by
  simp only [mem_children, h.record?_eq]
  by_cases hp : p = n
  · subst hp
    have habsent : s.record? p = none := record?_eq_none_iff.mpr h.absent
    simp [habsent, Record.empty, Name.parent?_ne_self]
  · by_cases hparent : n.parent? = some p
    · obtain ⟨r, hr⟩ := Store.contains_iff.mp (h.contains_parent p hparent)
      simp only [if_neg hp, hparent, if_true, hr, Option.map_some, Option.some.injEq,
        exists_eq_left', Record.addChild, Std.ExtTreeSet.mem_insert,
        Std.LawfulEqCmp.compare_eq_iff_eq, and_true, @eq_comm _ n c]
      exact Or.comm
    · simp [hp, hparent]

/-- Nothing is granted that was not granted before, and nothing is taken away. -/
theorem hasPermission_eq (h : s.Grows s' n) (m : Name) (role : String)
    (permission : Permission) :
    s'.hasPermission m role permission = s.hasPermission m role permission := by
  rw [Bool.eq_iff_iff, hasPermission_iff, hasPermission_iff, h.record?_eq]
  by_cases hm : m = n
  · subst hm
    have habsent : s.record? m = none := record?_eq_none_iff.mpr h.absent
    simp [habsent, Record.empty]
  · by_cases hp : n.parent? = some m
    · cases hr : s.record? m <;> simp [hm, hp, Record.addChild]
    · simp [hm, hp]

/-- A tree stays a tree. -/
theorem isTree (h : s.Grows s' n) (hs : s.IsTree) : s'.IsTree := by
  intro p c
  rw [h.mem_children_iff, h.contains_iff, hs p c]
  constructor
  · rintro (⟨hc, hp⟩ | ⟨rfl, hp⟩)
    · exact ⟨Or.inr hc, hp⟩
    · exact ⟨Or.inl rfl, hp⟩
  · rintro ⟨rfl | hc, hp⟩
    · exact Or.inr ⟨rfl, hp⟩
    · exact Or.inl ⟨hc, hp⟩

end Grows

/-! ## A namespace goes -/

/-- The second store is the first one without a namespace and all that lies below it. -/
structure Prunes (s s' : Store) (n : Name) : Prop where
  /-- The namespace was there. -/
  present : s.contains n = true
  /-- What it covers is gone, its parent forgets it, and all other records stay. -/
  record?_eq : ∀ m, s'.record? m =
    if n.Covers m then none
    else if n.parent? = some m then (s.record? m).map (·.forgetChild n)
    else s.record? m

namespace Prunes

/-- Exactly what the namespace covers is gone. -/
theorem contains_iff (h : s.Prunes s' n) :
    s'.contains m = true ↔ ¬ n.Covers m ∧ s.contains m = true := by
  rw [contains_eq, contains_eq, h.record?_eq]
  by_cases hm : n.Covers m
  · simp [hm]
  · by_cases hp : n.parent? = some m <;> simp [hm, hp]

/-- What is left lists what it listed, without the namespace that went. -/
theorem mem_children_iff (h : s.Prunes s' n) (hs : s.IsTree) :
    c ∈ s'.children p ↔ ¬ n.Covers p ∧ c ≠ n ∧ c ∈ s.children p := by
  by_cases hp : n.Covers p
  · simp [mem_children, h.record?_eq, hp]
  · by_cases hparent : n.parent? = some p
    · cases hr : s.record? p <;>
        simp [mem_children, h.record?_eq, hp, hparent, hr, Record.forgetChild, @eq_comm _ n c]
    · have hcn : c ∈ s.children p → c ≠ n := by
        rintro hc rfl
        exact hparent ((hs p c).mp hc).2
      have hsame : c ∈ s'.children p ↔ c ∈ s.children p := by
        simp [mem_children, h.record?_eq, hp, hparent]
      rw [hsame]
      exact ⟨fun hc => ⟨hp, hcn hc, hc⟩, fun hc => hc.2.2⟩

/-- What was granted on the names that go is granted no more, and all else stays. -/
theorem hasPermission_iff (h : s.Prunes s' n) :
    s'.hasPermission m role permission = true ↔
      ¬ n.Covers m ∧ s.hasPermission m role permission = true := by
  rw [Store.hasPermission_iff, Store.hasPermission_iff, h.record?_eq]
  by_cases hm : n.Covers m
  · simp [hm]
  · by_cases hp : n.parent? = some m
    · cases hr : s.record? m <;> simp [hm, hp, Record.forgetChild]
    · simp [hm, hp]

/-- A tree stays a tree. -/
theorem isTree (h : s.Prunes s' n) (hs : s.IsTree) : s'.IsTree := by
  intro p c
  rw [h.mem_children_iff hs, h.contains_iff, hs p c]
  constructor
  · rintro ⟨hnp, hcn, hc, hp⟩
    refine ⟨⟨fun hnc => ?_, hc⟩, hp⟩
    rcases (Name.covers_iff_of_parent? hp).mp hnc with hnc | hnp'
    · exact hcn hnc.symm
    · exact hnp hnp'
  · rintro ⟨⟨hnc, hc⟩, hp⟩
    refine ⟨fun hnp => hnc (hnp.trans (Name.covers_of_parent? hp)), ?_, hc, hp⟩
    rintro rfl
    exact hnc (Name.covers_refl c)

end Prunes

/-- The second store is the first one without a namespace that has no children. -/
structure Sheds (s s' : Store) (n : Name) : Prop where
  /-- The namespace was there. -/
  present : s.contains n = true
  /-- It had no children. -/
  leaf : s.children n = []
  /-- Its record is gone, its parent forgets it, and all other records stay. -/
  record?_eq : ∀ m, s'.record? m =
    if m = n then none
    else if n.parent? = some m then (s.record? m).map (·.forgetChild n)
    else s.record? m

/-- In a tree, a namespace that has no children covers nothing else. -/
theorem IsTree.eq_of_covers_of_leaf (hs : s.IsTree) (hleaf : s.children n = [])
    (hm : s.contains m = true) (hnm : n.Covers m) : m = n := by
  rcases (hs.listsOrPends [n]).cases_of_covers hm hnm with hmn | ⟨c, hc, -⟩ | ⟨a, ha, -⟩
  · exact hmn
  · rw [hleaf] at hc
    cases hc
  · cases ha

/-- When a namespace without children goes from a tree, it goes alone. -/
theorem Prunes.sheds (h : s.Prunes s' n) (hs : s.IsTree) (hleaf : s.children n = []) :
    s.Sheds s' n where
  present := h.present
  leaf := hleaf
  record?_eq m := by
    rw [h.record?_eq]
    by_cases hmn : m = n
    · simp [hmn, Name.covers_refl]
    · by_cases hnm : n.Covers m
      · have habsent : s.record? m = none := by
          rw [record?_eq_none_iff, ← Bool.not_eq_true]
          exact fun hm => hmn (hs.eq_of_covers_of_leaf hleaf hm hnm)
        simp [hmn, habsent]
      · simp [hmn, hnm]

/-! ## A grant is made -/

/-- The second store is the first one with one more grant on a namespace. -/
structure GainsGrant (s s' : Store) (n : Name) (g : Grant) : Prop where
  /-- The namespace is there. -/
  present : s.contains n = true
  /-- Its record has the grant, and all other records stay. -/
  record?_eq : ∀ m, s'.record? m =
    if m = n then (s.record? m).map (·.addGrant g) else s.record? m

namespace GainsGrant

variable {g : Grant}

/-- The same namespaces exist. -/
theorem contains_eq (h : s.GainsGrant s' n g) (m : Name) : s'.contains m = s.contains m := by
  rw [Store.contains_eq, Store.contains_eq, h.record?_eq]
  by_cases hm : m = n <;> simp [hm]

/-- The same children are listed. -/
theorem mem_children_iff (h : s.GainsGrant s' n g) : c ∈ s'.children p ↔ c ∈ s.children p := by
  simp only [mem_children, h.record?_eq]
  by_cases hp : p = n
  · subst hp
    cases s.record? p <;> simp [Record.addGrant]
  · simp [hp]

/-- One more permission is granted. -/
theorem hasPermission_iff (h : s.GainsGrant s' n g) :
    s'.hasPermission m role permission = true ↔
      s.hasPermission m role permission = true ∨ (m = n ∧ g = ⟨role, permission⟩) := by
  rw [Store.hasPermission_iff, Store.hasPermission_iff, h.record?_eq]
  by_cases hm : m = n
  · subst hm
    obtain ⟨r, hr⟩ := Store.contains_iff.mp h.present
    simp [hr, Record.addGrant, or_comm]
  · simp [hm]

/-- A tree stays a tree. -/
theorem isTree (h : s.GainsGrant s' n g) (hs : s.IsTree) : s'.IsTree := by
  intro p c
  rw [h.mem_children_iff, h.contains_eq]
  exact hs p c

end GainsGrant

/-! ## The operations -/

/-- Creating a root that is not there adds it. -/
theorem grows_of_create (h : s.create n = .ok s') : n.isRoot = true ∧ s.Grows s' n := by
  rw [create] at h
  split at h
  · cases h
  · next hroot =>
    split at h
    · cases h
    · next habsent =>
      obtain rfl := Except.ok.inj h
      have hroot : n.isRoot = true := by simpa using hroot
      have hparent : n.parent? = none := Name.parent?_eq_none_iff.mpr hroot
      refine ⟨hroot, by simpa using habsent, ?_, ?_⟩
      · simp [hparent]
      · simp [hparent, record?_add]

/-- Creating a child that is not there adds it below the namespace of the handle. -/
theorem grows_of_createChild {handle : Handle} (h : s.createChild handle n = .ok s') :
    n.parent? = some handle ∧ s.Grows s' n := by
  rw [createChild] at h
  split at h
  · cases h
  · next hparent =>
    split at h
    · cases h
    · next hhandle =>
      split at h
      · cases h
      · next habsent =>
        split at h
        · next t ht =>
          obtain rfl := Except.ok.inj h
          have hparent : n.parent? = some handle := Name.isParentOf_iff.mp (by simpa using hparent)
          have hne : handle ≠ n := by
            rintro rfl
            exact Name.parent?_ne_self hparent
          obtain ⟨r, hr, hrecord⟩ := exists_of_modify? ht
          rw [record?_add, if_neg hne] at hr
          refine ⟨hparent, by simpa using habsent, ?_, fun m => ?_⟩
          · intro p hp
            rw [hparent] at hp
            obtain rfl := Option.some.inj hp
            simpa using hhandle
          · rw [hrecord, record?_add, hparent]
            by_cases hm : m = handle
            · subst hm
              simp [hne, hr]
            · simp [hm, Ne.symm hm]
        · cases h

/-- A grant that succeeds is made. -/
theorem gainsGrant_of_grant {g : Grant} (h : s.grant n g = .ok s') : s.GainsGrant s' n g := by
  rw [grant] at h
  split at h
  · next t ht =>
    obtain rfl := Except.ok.inj h
    obtain ⟨r, hr, hrecord⟩ := exists_of_modify? ht
    refine ⟨Store.contains_iff.mpr ⟨r, hr⟩, fun m => ?_⟩
    rw [hrecord]
    by_cases hm : m = n
    · subst hm
      simp [hr]
    · simp [hm]
  · cases h

/-- A name that is not covered by its child is told to forget it. -/
theorem record?_unregister :
    (s.unregister n).record? m =
      if n.parent? = some m then (s.record? m).map (·.forgetChild n) else s.record? m := by
  rw [unregister]
  split
  · next hp => simp [hp]
  · next p hp =>
    cases hmod : s.modify? p (·.forgetChild n) with
    | none =>
      have hr : s.record? p = none := modify?_eq_none_iff.mp hmod
      by_cases hm : p = m
      · subst hm
        simp [hr]
      · simp [hp, hm]
    | some t =>
      obtain ⟨r, hr, hrecord⟩ := exists_of_modify? hmod
      rw [Option.getD_some, hrecord, hp]
      by_cases hm : m = p
      · subst hm
        simp [hr]
      · simp [hm, Ne.symm hm]

/-- Removing a namespace from a tree takes it with all that lies below it; without leave to do so
there is nothing below it. -/
theorem prunes_of_remove {cascade : Bool} (hs : s.IsTree) (h : s.remove n cascade = .ok s') :
    s.Prunes s' n ∧ (cascade = false → s.children n = []) := by
  rw [remove] at h
  split at h
  · cases h
  · next r hr =>
    split at h
    · cases h
    · next hleaf =>
      obtain rfl := Except.ok.inj h
      -- erasing the record first is the first step of removing the subtree
      have hsubtree : s.removeSubtrees [n] = (s.erase n).removeSubtrees r.children.toList := by
        rw [removeSubtrees, hr]
        exact congrArg _ (List.append_nil _)
      refine ⟨⟨contains_iff.mpr ⟨r, hr⟩, fun m => ?_⟩, fun hcascade => ?_⟩
      · rw [record?_unregister, ← hsubtree, record?_removeSubtrees (hs.listsOrPends [n])]
        simp only [List.mem_singleton, exists_eq_left]
        by_cases hp : n.parent? = some m
        · have hm : ¬ n.Covers m := Name.not_covers_of_parent? hp
          simp only [if_pos hp, if_neg hm]
        · simp only [if_neg hp]
      · have hempty : r.children.isEmpty = true := by simpa [hcascade] using hleaf
        rw [children, hr]
        exact List.isEmpty_iff.mp (Std.ExtTreeSet.isEmpty_toList.trans hempty)

/-! ## Inserting and seeding -/

/-- Inserting a namespace adds it and then makes the grants on it. -/
theorem exists_grows_of_insert {grants : List Grant} (h : s.insert n grants = .ok s') :
    ∃ t, s.Grows t n ∧ grants.foldlM (fun t g => t.grant n g) t = .ok s' := by
  rw [insert] at h
  split at h
  · obtain ⟨t, ht, hgrants⟩ := bind_eq_ok_iff.mp h
    exact ⟨t, (grows_of_create ht).2, hgrants⟩
  · obtain ⟨handle, -, h⟩ := bind_eq_ok_iff.mp h
    obtain ⟨t, ht, hgrants⟩ := bind_eq_ok_iff.mp h
    exact ⟨t, (grows_of_createChild ht).2, hgrants⟩

/-- Inserting a namespace keeps a tree a tree. -/
theorem isTree_insert {grants : List Grant} (hs : s.IsTree) (h : s.insert n grants = .ok s') :
    s'.IsTree := by
  obtain ⟨t, hgrows, hgrants⟩ := exists_grows_of_insert h
  refine foldlM_keeps (fun u g u' hu hg => ?_) (hgrows.isTree hs) hgrants
  exact (gainsGrant_of_grant hg).isTree hu

/-- Inserting a namespace whose name is given as a text keeps a tree a tree. -/
theorem isTree_withNamespace {text : String} {grants : List Grant} (hs : s.IsTree)
    (h : s.withNamespace text grants = .ok s') : s'.IsTree := by
  unfold withNamespace at h
  split at h
  · exact isTree_insert hs h
  · cases h

/-- A seeded store is a tree. -/
theorem isTree_seed {declarations : List Declaration} (h : Store.seed declarations = .ok s) :
    s.IsTree :=
  foldlM_keeps (fun _ _ _ hu hd => isTree_insert hu hd) isTree_empty h

end NamespaceControl.Store
