import NamespaceControl.Proofs.Execution.Effect
import NamespaceControl.Proofs.Store.Edit

/-!
# What a statement sees of the store

A statement about a namespace sees little of the store: whether the namespace and its parent exist,
whether the namespace has children, and what the user is allowed on the two (`SameView`). On two
stores that look the same in this way, and with the same calls failing, the statement comes to the
same (`SameOutcome`): the same response, the same selection, and the same change of the store
(`SameChange`), which may be none. Whatever a statement does not see does not influence it.
-/

namespace NamespaceControl

open Command (Statement)

variable {s t : Store} {n : Name} {user : User}

/-! ## Answers of two stores -/

namespace Store

/-- Two stores answer a call in the same way: both refuse for the same reason, or neither
refuses. -/
def SameAnswer (x y : Except StoreError Store) : Prop :=
  (∃ e, x = .error e ∧ y = .error e) ∨ ∃ s t, x = .ok s ∧ y = .ok t

/-- Both refuse. -/
theorem SameAnswer.refused (e : StoreError) : SameAnswer (.error e) (.error e) :=
  Or.inl ⟨e, rfl, rfl⟩

/-- Neither refuses. -/
theorem SameAnswer.done (s t : Store) : SameAnswer (.ok s) (.ok t) := Or.inr ⟨s, t, rfl, rfl⟩

/-- Calls that are answered in the same way are so too where a fault may take them. -/
theorem SameAnswer.call {x y : Except StoreError Store} (h : SameAnswer x y) (faults : Faults)
    (kind : StoreCall) (k : Nat) : SameAnswer (faults.call kind k x) (faults.call kind k y) := by
  unfold Faults.call
  cases faults kind k with
  | none => exact h
  | some e => exact .refused e

/-- A handle is given out for a namespace that exists. -/
theorem get_congr (h : s.contains n = t.contains n) : s.get n = t.get n := by
  rw [get, get, h]

/-- Creating a root depends on whether it exists. -/
theorem sameAnswer_create (h : s.contains n = t.contains n) :
    SameAnswer (s.create n) (t.create n) := by
  unfold create
  rw [h]
  split
  · exact .refused _
  · split
    · exact .refused _
    · exact .done _ _

/-- Creating a child depends on whether it and its parent exist. -/
theorem sameAnswer_createChild {h : Handle} (hparent : s.contains h = t.contains h)
    (hchild : s.contains n = t.contains n) :
    SameAnswer (s.createChild h n) (t.createChild h n) := by
  unfold createChild
  rw [hparent, hchild]
  split
  · exact .refused _
  · split
    · exact .refused _
    · next hthere =>
      split
      · exact .refused _
      · have ht : t.contains h = true := by simpa using hthere
        obtain ⟨s', hs'⟩ := exists_modify?_add n (·.addChild n) (hparent.trans ht)
        obtain ⟨t', ht'⟩ := exists_modify?_add n (·.addChild n) ht
        rw [hs', ht']
        exact .done s' t'

/-- Removing a namespace depends on whether it exists and on whether it has children. -/
theorem sameAnswer_remove (hn : s.contains n = t.contains n)
    (hchildren : s.children n = t.children n) :
    SameAnswer (s.remove n false) (t.remove n false) := by
  rw [contains_eq, contains_eq] at hn
  cases hs : s.record? n with
  | none =>
    have ht : t.record? n = none := by simpa [hs] using hn.symm
    simp only [remove, hs, ht]
    exact .refused _
  | some r =>
    obtain ⟨r', ht⟩ : ∃ r', t.record? n = some r' := by
      simpa [hs, Option.isSome_iff_exists] using hn.symm
    have hleaf : r.children.isEmpty = r'.children.isEmpty := by
      simp only [children, hs, ht] at hchildren
      rw [← Std.ExtTreeSet.isEmpty_toList, hchildren, Std.ExtTreeSet.isEmpty_toList]
    simp only [remove, hs, ht, hleaf]
    split
    · exact .refused _
    · exact .done _ _

end Store

namespace Execution

/-! ## The same view and the same outcome -/

/-- Two stores look the same to a statement of a user about a namespace. -/
structure SameView (s t : Store) (user : User) (n : Name) : Prop where
  /-- The namespace exists in both or in neither. -/
  contains_eq : s.contains n = t.contains n
  /-- It has the same children. -/
  children_eq : s.children n = t.children n
  /-- The user may drop it in both or in neither. -/
  drop_iff : Allowed s user n .dropNamespace ↔ Allowed t user n .dropNamespace
  /-- Its parent exists in both or in neither. -/
  contains_parent_eq : ∀ p, n.parent? = some p → s.contains p = t.contains p
  /-- The user may create children of the parent in both or in neither. -/
  create_iff : ∀ p, n.parent? = some p →
    (Allowed s user p .createNamespace ↔ Allowed t user p .createNamespace)

/-- A statement about a namespace changes two stores in the same way. -/
inductive SameChange (n : Name) (s t : Store) : Store → Store → Prop where
  /-- Neither is changed. -/
  | kept : SameChange n s t s t
  /-- Both get the namespace, or both lose it. -/
  | edited {s' t' : Store} (e : Store.Edit) (left : e.Makes n s s') (right : e.Makes n t t') :
      SameChange n s t s' t'

/-- A handler comes to the same on two stores. -/
structure SameStep (n : Name) (s t : Store) (x y : Store × Response) : Prop where
  /-- The responses are the same. -/
  response_eq : x.2 = y.2
  /-- The stores are changed in the same way. -/
  change : SameChange n s t x.1 y.1

/-- Two runs of a statement, on two stores and for two sessions, come to the same. -/
structure SameOutcome (n : Name) (s t : Store) (σ τ : Session) (e f : Execution) : Prop where
  /-- The responses are the same. -/
  response_eq : e.response = f.response
  /-- Both sessions stay, or both select the namespace. -/
  session : (e.session = σ ∧ f.session = τ) ∨ (e.session = σ.select n ∧ f.session = τ.select n)
  /-- The stores are changed in the same way. -/
  change : SameChange n s t e.store f.store

/-! ## The handlers -/

section

variable {faults : Faults} {p : Name} {permission : Permission}

/-- The check of a handler turns out the same for a user who is allowed the same. -/
theorem check_congr (h : Allowed s user n permission ↔ Allowed t user n permission) :
    (!user.admin && !authorizes s user n permission) =
      (!user.admin && !authorizes t user n permission) := by
  rw [Bool.eq_iff_iff, check_iff, check_iff, h]

/-- Creating a root comes to the same if it exists in both stores or in neither. -/
theorem sameStep_createRoot (hn : s.contains n = t.contains n) :
    SameStep n s t (createRoot faults s user n) (createRoot faults t user n) := by
  unfold createRoot
  split
  · exact ⟨rfl, .kept⟩
  · obtain ⟨e, hs, ht⟩ | ⟨s', t', hs, ht⟩ :=
      (Store.sameAnswer_create hn).call faults .create 1
    · rw [hs, ht]
      cases e <;> exact ⟨rfl, .kept⟩
    · have hleft := (Store.grows_of_create (Faults.eq_ok_of_call hs)).2
      have hright := (Store.grows_of_create (Faults.eq_ok_of_call ht)).2
      rw [hs, ht]
      exact ⟨rfl, .edited .add hleft.makes hright.makes⟩

/-- Creating a child comes to the same on two stores that look the same. -/
theorem sameStep_createBelow (h : SameView s t user n) (hp : n.parent? = some p) :
    SameStep n s t (createBelow faults s user p n) (createBelow faults t user p n) := by
  have hparent := h.contains_parent_eq p hp
  unfold createBelow
  rw [Store.get_congr hparent]
  split
  · exact ⟨rfl, .kept⟩
  · exact ⟨rfl, .kept⟩
  · next handle hget =>
    obtain ⟨-, rfl⟩ := Store.get_eq_ok_iff.mp (Faults.eq_ok_of_call hget)
    rw [check_congr (h.create_iff handle hp)]
    split
    · exact ⟨rfl, .kept⟩
    · obtain ⟨e, hs, ht⟩ | ⟨s', t', hs, ht⟩ :=
        (Store.sameAnswer_createChild hparent h.contains_eq).call faults .createChild 1
      · rw [hs, ht]
        cases e <;> exact ⟨rfl, .kept⟩
      · have hleft := (Store.grows_of_createChild (Faults.eq_ok_of_call hs)).2
        have hright := (Store.grows_of_createChild (Faults.eq_ok_of_call ht)).2
        rw [hs, ht]
        exact ⟨rfl, .edited .add hleft.makes hright.makes⟩

/-- Creating a namespace comes to the same on two stores that look the same. -/
theorem sameStep_createNamespace (h : SameView s t user n) :
    SameStep n s t (createNamespace faults s user n) (createNamespace faults t user n) := by
  unfold createNamespace
  rw [Store.get_congr h.contains_eq]
  split
  · exact ⟨rfl, .kept⟩
  · exact ⟨rfl, .kept⟩
  · split
    · exact sameStep_createRoot h.contains_eq
    · next p hp => exact sameStep_createBelow h hp

/-- Dropping a namespace of a tree comes to the same on two trees that look the same. -/
theorem sameStep_dropNamespace (hs : s.IsTree) (ht : t.IsTree) (h : SameView s t user n) :
    SameStep n s t (dropNamespace faults s user n) (dropNamespace faults t user n) := by
  unfold dropNamespace
  rw [Store.get_congr h.contains_eq]
  split
  · exact ⟨rfl, .kept⟩
  · exact ⟨rfl, .kept⟩
  · next handle hget =>
    obtain ⟨-, rfl⟩ := Store.get_eq_ok_iff.mp (Faults.eq_ok_of_call hget)
    rw [check_congr h.drop_iff]
    split
    · exact ⟨rfl, .kept⟩
    · obtain ⟨e, hleft, hright⟩ | ⟨s', t', hleft, hright⟩ :=
        (Store.sameAnswer_remove h.contains_eq h.children_eq).call faults .remove 1
      · rw [hleft, hright]
        cases e <;> exact ⟨rfl, .kept⟩
      · obtain ⟨hprunes, hleaf⟩ := Store.prunes_of_remove hs (Faults.eq_ok_of_call hleft)
        obtain ⟨hprunes', hleaf'⟩ := Store.prunes_of_remove ht (Faults.eq_ok_of_call hright)
        rw [hleft, hright]
        have hsheds := hprunes.sheds hs (hleaf rfl)
        have hsheds' := hprunes'.sheds ht (hleaf' rfl)
        exact ⟨rfl, .edited .drop hsheds.makes hsheds'.makes⟩

/-- Selecting a namespace comes to the same if it exists in both stores or in neither. -/
theorem sameOutcome_useNamespace {σ τ : Session} (hn : s.contains n = t.contains n)
    (huser : σ.user = τ.user) :
    SameOutcome n s t σ τ (execute faults s σ (.useNamespace n))
      (execute faults t τ (.useNamespace n)) := by
  simp only [execute, useNamespace, Store.get_congr hn, huser]
  split
  · exact ⟨rfl, Or.inl ⟨rfl, rfl⟩, .kept⟩
  · exact ⟨rfl, Or.inl ⟨rfl, rfl⟩, .kept⟩
  · split
    · exact ⟨rfl, Or.inr ⟨rfl, rfl⟩, .kept⟩
    · exact ⟨rfl, Or.inl ⟨rfl, rfl⟩, .kept⟩

/-- **What a statement does not see does not influence it.** Run for two sessions of one user on
two trees that look the same, and with the same calls failing, it comes to the same. -/
theorem sameOutcome_execute {σ τ : Session} {statement : Statement} (hs : s.IsTree)
    (ht : t.IsTree) (huser : σ.user = τ.user) (htarget : statement.target? = some n)
    (h : SameView s t σ.user n) :
    SameOutcome n s t σ τ (execute faults s σ statement) (execute faults t τ statement) := by
  cases statement with
  | useNamespace target =>
    obtain rfl := Option.some.inj htarget
    exact sameOutcome_useNamespace h.contains_eq huser
  | createNamespace target =>
    obtain rfl := Option.some.inj htarget
    have hstep : SameStep target s t (createNamespace faults s σ.user target)
        (createNamespace faults t σ.user target) := sameStep_createNamespace h
    simp only [execute, ← huser]
    exact ⟨hstep.response_eq, Or.inl ⟨rfl, rfl⟩, hstep.change⟩
  | dropNamespace target =>
    obtain rfl := Option.some.inj htarget
    have hstep : SameStep target s t (dropNamespace faults s σ.user target)
        (dropNamespace faults t σ.user target) := sameStep_dropNamespace hs ht h
    simp only [execute, ← huser]
    exact ⟨hstep.response_eq, Or.inl ⟨rfl, rfl⟩, hstep.change⟩
  | showNamespaces => cases htarget

end

end Execution

end NamespaceControl
