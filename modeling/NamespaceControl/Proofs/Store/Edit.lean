import NamespaceControl.Proofs.Store.Change

/-!
# Edits at one name

A statement changes a store at one name, in one of two ways: the namespace is added or dropped,
and its parent learns of it (`Edit`). Either way the record of the name is set, the child set of the
parent is touched, and nothing else is looked at or changed. So an edit comes to one result
(`Makes.unique`), it leaves what other names hold (`Makes.contains_of_ne`,
`Makes.hasPermission_of_ne`), and edits at two names that are not parent and child can be made in
either order (`Makes.comm`). A namespace that is added and dropped again leaves no trace
(`Sheds.eq_of_grows`).
-/

namespace NamespaceControl

namespace Store

/-- A change at one name. -/
inductive Edit where
  /-- The namespace is added. -/
  | add
  /-- The namespace is dropped. -/
  | drop

namespace Edit

/-- The record of the name after the edit. -/
def own : Edit → Option Record
  | add => some .empty
  | drop => none

/-- What the edit at a name makes of the record of another name: only the parent learns of it. -/
def touch (e : Edit) (n m : Name) (r : Record) : Record :=
  if n.parent? = some m then
    match e with
    | add => r.addChild n
    | drop => r.forgetChild n
  else r

/-- The second store is the first one after an edit at a name. -/
def Makes (e : Edit) (n : Name) (s s' : Store) : Prop :=
  ∀ m, s'.record? m = if m = n then e.own else (s.record? m).map (e.touch n m)

variable {e d : Edit} {n m k : Name}

/-- Other names than the parent are not touched. -/
theorem touch_of_not_parent (h : n.parent? ≠ some m) : e.touch n m = id := by
  funext r
  exact if_neg h

/-- Grants are not touched. -/
theorem grants_touch (e : Edit) (n m : Name) (r : Record) : (e.touch n m r).grants = r.grants := by
  unfold touch
  split
  · cases e <;> rfl
  · rfl

/-- A record can be touched for two names in either order. -/
theorem touch_comm (h : n ≠ m) (r : Record) :
    e.touch n k (d.touch m k r) = d.touch m k (e.touch n k r) := by
  by_cases hn : n.parent? = some k
  · by_cases hm : m.parent? = some k
    · -- both names are children of `k`
      have hchildren : (e.touch n k (d.touch m k r)).children =
          (d.touch m k (e.touch n k r)).children := by
        apply Std.ExtTreeSet.ext_mem
        intro c
        cases e <;> cases d <;>
          simp [touch, hn, hm, Record.addChild, Record.forgetChild] <;> grind
      have hgrants : (e.touch n k (d.touch m k r)).grants =
          (d.touch m k (e.touch n k r)).grants := by
        simp only [grants_touch]
      exact Record.eq_of_grants_of_children hgrants hchildren
    · rw [touch_of_not_parent hm, id, id]
  · rw [touch_of_not_parent hn, id, id]

end Edit

variable {s s' t t' u : Store} {e d : Edit} {n m k : Name} {role : String} {permission : Permission}

/-- A namespace that is added is an edit. -/
theorem Grows.makes (h : s.Grows s' n) : Edit.add.Makes n s s' := by
  intro m
  rw [h.record?_eq]
  by_cases hp : n.parent? = some m
  · have htouch : Edit.add.touch n m = (·.addChild n) := funext fun r => if_pos hp
    rw [if_pos hp, htouch]
    rfl
  · rw [if_neg hp, Edit.touch_of_not_parent hp, Option.map_id]
    rfl

/-- A namespace without children that goes is an edit. -/
theorem Sheds.makes (h : s.Sheds s' n) : Edit.drop.Makes n s s' := by
  intro m
  rw [h.record?_eq]
  by_cases hp : n.parent? = some m
  · have htouch : Edit.drop.touch n m = (·.forgetChild n) := funext fun r => if_pos hp
    rw [if_pos hp, htouch]
    rfl
  · rw [if_neg hp, Edit.touch_of_not_parent hp, Option.map_id]
    rfl

namespace Edit.Makes

/-! ## What an edit changes -/

/-- An edit sets the record of its name. -/
theorem record?_self (h : e.Makes n s s') : s'.record? n = e.own := by
  rw [h n, if_pos rfl]

/-- An edit touches the record of another name, if there is one. -/
theorem record?_of_ne (h : e.Makes n s s') (hne : m ≠ n) :
    s'.record? m = (s.record? m).map (e.touch n m) := by
  rw [h m, if_neg hne]

/-- Other namespaces exist as before. -/
theorem contains_of_ne (h : e.Makes n s s') (hne : m ≠ n) : s'.contains m = s.contains m := by
  rw [contains_eq, contains_eq, h.record?_of_ne hne, Option.isSome_map]

/-- On other namespaces the same is granted as before. -/
theorem hasPermission_of_ne (h : e.Makes n s s') (hne : m ≠ n) (role : String)
    (permission : Permission) :
    s'.hasPermission m role permission = s.hasPermission m role permission := by
  rw [Bool.eq_iff_iff, hasPermission_iff, hasPermission_iff, h.record?_of_ne hne]
  cases s.record? m <;> simp [grants_touch]

/-- Other names than the parent list the same children as before. -/
theorem children_of_ne (h : e.Makes n s s') (hne : m ≠ n) (hp : n.parent? ≠ some m) :
    s'.children m = s.children m := by
  rw [children, children, h.record?_of_ne hne, touch_of_not_parent hp, Option.map_id, id]

/-- An edit comes to one result. -/
theorem unique (h : e.Makes n s s') (h' : e.Makes n s t') : s' = t' := by
  ext m : 1
  rw [h m, h' m]

/-- Edits at two names that are not parent and child can be made in either order. -/
theorem comm (hne : n ≠ m) (hnm : n.parent? ≠ some m) (hmn : m.parent? ≠ some n)
    (hs : e.Makes n s s') (hs' : d.Makes m s' u) (ht : d.Makes m s t) (ht' : e.Makes n t t') :
    u = t' := by
  ext k : 1
  by_cases hkm : k = m
  · subst hkm
    rw [hs'.record?_self, ht'.record?_of_ne (Ne.symm hne), touch_of_not_parent hnm,
      Option.map_id, id, ht.record?_self]
  · by_cases hkn : k = n
    · subst hkn
      rw [ht'.record?_self, hs'.record?_of_ne hne, touch_of_not_parent hmn, Option.map_id, id,
        hs.record?_self]
    · rw [hs'.record?_of_ne hkm, hs.record?_of_ne hkn, ht'.record?_of_ne hkn,
        ht.record?_of_ne hkm, Option.map_map, Option.map_map]
      exact congrArg (Option.map · (s.record? k)) (funext fun r => touch_comm (Ne.symm hne) r)

end Edit.Makes

/-! ## Adding a namespace and dropping it again -/

/-- A namespace that is added to a tree and then dropped leaves the tree as it was. -/
theorem Sheds.eq_of_grows (h : t.Sheds u n) (hgrows : s.Grows t n) (hs : s.IsTree) : u = s := by
  ext m : 1
  rw [h.record?_eq, hgrows.record?_eq]
  by_cases hm : m = n
  · subst hm
    rw [if_pos rfl, record?_eq_none_iff.mpr hgrows.absent]
  · by_cases hp : n.parent? = some m
    · -- The parent may only forget what it has not listed before the creation.
      cases hr : s.record? m with
      | none => simp [hm]
      | some r =>
        have hunlisted : n ∉ r.children := by
          intro hlisted
          have hthere := ((hs m n).mp (mem_children.mpr ⟨r, hr, hlisted⟩)).1
          rw [hgrows.absent] at hthere
          cases hthere
        simp [hm, hp, Record.forgetChild_addChild hunlisted]
    · simp [hm, hp]

end Store

end NamespaceControl
