import NamespaceControl.Store.Basic

/-!
# Stores as maps of records

What each part of a store operation does to the records, one equation for each. A store is no more
than its records (`ext_record?`), and whether a namespace exists, which children it has and what
is granted on it are read off its record.
-/

namespace NamespaceControl

/-! ## Operations that may fail -/

/-- One operation after another succeeds if both do. -/
theorem bind_eq_ok_iff {ε α β : Type} {x : Except ε α} {f : α → Except ε β} {b : β} :
    x >>= f = .ok b ↔ ∃ a, x = .ok a ∧ f a = .ok b := by
  cases x with
  | error e => simp [bind, Except.bind]
  | ok a => simp [bind, Except.bind]

/-- Records with the same grants and the same children are the same. -/
theorem Record.eq_of_grants_of_children {a b : Record} (hgrants : a.grants = b.grants)
    (hchildren : a.children = b.children) : a = b := by
  cases a
  cases b
  cases hgrants
  cases hchildren
  rfl

/-- A record that gets a child and loses it is as before, unless it had the child already. -/
theorem Record.forgetChild_addChild {r : Record} {c : Name} (h : c ∉ r.children) :
    (r.addChild c).forgetChild c = r := by
  refine Record.eq_of_grants_of_children rfl (Std.ExtTreeSet.ext_mem fun m => ?_)
  simp only [Record.forgetChild, Record.addChild, Std.ExtTreeSet.mem_erase,
    Std.ExtTreeSet.mem_insert, ne_eq, Std.LawfulEqCmp.compare_eq_iff_eq]
  constructor
  · rintro ⟨hcm, hm⟩
    exact hm.resolve_left hcm
  · intro hm
    refine ⟨?_, Or.inr hm⟩
    rintro rfl
    exact h hm

namespace Store

variable {s s' : Store} {m n : Name}

/-- What every operation keeps, a sequence of operations keeps that succeeds as a whole. -/
theorem foldlM_keeps {α : Type} {P : Store → Prop} {f : Store → α → Except StoreError Store}
    (hf : ∀ s a s', P s → f s a = .ok s' → P s') {l : List α} (hs : P s)
    (h : l.foldlM f s = .ok s') : P s' := by
  induction l generalizing s with
  | nil => exact Except.ok.inj h ▸ hs
  | cons a l ih =>
    rw [List.foldlM_cons, bind_eq_ok_iff] at h
    obtain ⟨t, ha, hl⟩ := h
    exact ih (hf s a t hs ha) hl

/-! ## Reading -/

/-- Stores with the same records are the same. -/
@[ext] theorem ext_record? {t : Store} (h : ∀ n, s.record? n = t.record? n) : s = t := by
  obtain ⟨records⟩ := s
  obtain ⟨records'⟩ := t
  exact congrArg Store.mk (Std.ExtTreeMap.ext_getElem? h)

/-- The empty store has no record. -/
@[simp] theorem record?_empty : empty.record? n = none :=
  Std.ExtTreeMap.getElem?_empty

/-- A namespace exists if it has a record. -/
theorem contains_eq : s.contains n = (s.record? n).isSome :=
  Std.ExtTreeMap.contains_eq_isSome_getElem?

/-- A namespace that exists has a record, and the other way round. -/
theorem contains_iff : s.contains n = true ↔ ∃ r, s.record? n = some r := by
  rw [contains_eq, Option.isSome_iff_exists]

/-- A namespace that does not exist has no record, and the other way round. -/
theorem record?_eq_none_iff : s.record? n = none ↔ s.contains n = false := by
  rw [contains_eq, Option.isSome_eq_false_iff, Option.isNone_iff_eq_none]

/-- The children of a namespace are those that its record lists. -/
theorem mem_children {c : Name} :
    c ∈ s.children n ↔ ∃ r, s.record? n = some r ∧ c ∈ r.children := by
  rw [children]
  split
  · next r h => simp [h]
  · next h => simp [h]

/-- Only a namespace that exists has children. -/
theorem contains_of_mem_children {c : Name} (h : c ∈ s.children n) : s.contains n = true := by
  obtain ⟨r, hr, -⟩ := mem_children.mp h
  exact contains_iff.mpr ⟨r, hr⟩

/-- A permission is granted if the record says so. -/
theorem hasPermission_iff {role : String} {permission : Permission} :
    s.hasPermission n role permission = true ↔
      ∃ r, s.record? n = some r ∧ ⟨role, permission⟩ ∈ r.grants := by
  rw [hasPermission]
  split
  · next r h => simp [h]
  · next h => simp [h]

/-- Permissions are granted only on a namespace that exists. -/
theorem contains_of_hasPermission {role : String} {permission : Permission}
    (h : s.hasPermission n role permission = true) : s.contains n = true := by
  obtain ⟨r, hr, -⟩ := hasPermission_iff.mp h
  exact contains_iff.mpr ⟨r, hr⟩

/-- A handle is given out for a namespace that exists, and it is its name. -/
theorem get_eq_ok_iff {h : Handle} : s.get n = .ok h ↔ s.contains n = true ∧ h = n := by
  rw [get]
  split
  · next hn => simp [hn, eq_comm]
  · next hn => simp [hn]

/-! ## Changing one record -/

/-- A new record is empty, and the others stay. -/
theorem record?_add : (s.add n).record? m = if m = n then some .empty else s.record? m := by
  rw [record?, record?, add, Std.ExtTreeMap.getElem?_insert]
  simp only [Std.LawfulEqCmp.compare_eq_iff_eq, @eq_comm _ n m]

/-- An erased record is gone, and the others stay. -/
theorem record?_erase : (s.erase n).record? m = if m = n then none else s.record? m := by
  rw [record?, record?, erase, Std.ExtTreeMap.getElem?_erase]
  simp only [Std.LawfulEqCmp.compare_eq_iff_eq, @eq_comm _ n m]

/-- A record that is there can be changed, and the others stay. -/
theorem exists_of_modify? {f : Record → Record} (h : s.modify? n f = some s') :
    ∃ r, s.record? n = some r ∧
      ∀ m, s'.record? m = if m = n then some (f r) else s.record? m := by
  obtain ⟨r, hr, rfl⟩ := Option.map_eq_some_iff.mp h
  refine ⟨r, hr, fun m => ?_⟩
  rw [record?, record?, Std.ExtTreeMap.getElem?_insert]
  simp only [Std.LawfulEqCmp.compare_eq_iff_eq, @eq_comm _ n m]

/-- A record that is not there cannot be changed. -/
theorem modify?_eq_none_iff {f : Record → Record} :
    s.modify? n f = none ↔ s.record? n = none := Option.map_eq_none_iff

/-- A namespace that exists can be told of a new child. -/
theorem exists_modify?_add (child : Name) (f : Record → Record) (h : s.contains n = true) :
    ∃ s', (s.add child).modify? n f = some s' := by
  obtain ⟨r, hr⟩ := contains_iff.mp h
  refine Option.ne_none_iff_exists'.mp fun hnone => ?_
  rw [modify?_eq_none_iff, record?_add, hr] at hnone
  split at hnone <;> cases hnone

end Store

end NamespaceControl
