import NamespaceControl.Proofs.Store.InPlace
import NamespaceControl.Proofs.Store.Removal

/-!
# When a store refuses

For each operation there is a list of reasons to refuse it (`Refuses`), of which the first that
applies is given. They speak of names only: which of them exist, and which is the parent of which.
An operation fails exactly for such a reason, it does so before its first write, and without such a
reason it is done (`refused_or_done`). The handle of an operation may be one to a namespace that is
gone.
-/

namespace NamespaceControl.Store

/-- What a store refuses to do, and why. -/
inductive Refuses (s : Store) : Update → StoreError → Prop where
  /-- Only roots are created without a parent. -/
  | notARoot {n : Name} (hroot : n.isRoot = false) : Refuses s (.create n) (.notARoot n)
  /-- The root exists. -/
  | rootExists {n : Name} (hroot : n.isRoot = true) (hn : s.contains n = true) :
      Refuses s (.create n) (.namespaceAlreadyExists n)
  /-- The handle names no parent of the child. -/
  | notAChild {h : Handle} {child : Name} (hchild : child.parent? ≠ some h) :
      Refuses s (.createChild h child) (.notAChild h child)
  /-- The namespace of the handle does not exist. -/
  | parentGone {h : Handle} {child : Name} (hchild : child.parent? = some h)
      (hgone : s.contains h = false) :
      Refuses s (.createChild h child) (.namespaceDoesNotExist h)
  /-- The child exists. -/
  | childExists {h : Handle} {child : Name} (hchild : child.parent? = some h)
      (hparent : s.contains h = true) (hn : s.contains child = true) :
      Refuses s (.createChild h child) (.namespaceAlreadyExists child)
  /-- The parent of the namespace to insert does not exist. -/
  | orphan {n p : Name} {grants : List Grant} (hp : n.parent? = some p)
      (hgone : s.contains p = false) : Refuses s (.insert n grants) (.namespaceDoesNotExist p)
  /-- The namespace to insert exists. -/
  | inserted {n : Name} {grants : List Grant}
      (hparent : ∀ p, n.parent? = some p → s.contains p = true) (hn : s.contains n = true) :
      Refuses s (.insert n grants) (.namespaceAlreadyExists n)
  /-- The namespace to make a grant on does not exist. -/
  | grantedNowhere {n : Name} {g : Grant} (hn : s.contains n = false) :
      Refuses s (.grant n g) (.namespaceDoesNotExist n)
  /-- The namespace to remove does not exist. -/
  | removedAlready {n : Name} {cascade : Bool} (hn : s.contains n = false) :
      Refuses s (.remove n cascade) (.namespaceDoesNotExist n)
  /-- The namespace to remove is the parent of one that exists, which is to stay. -/
  | hasChildren {n c : Name} (hn : s.contains n = true) (hc : s.contains c = true)
      (hp : c.parent? = some n) : Refuses s (.remove n false) (.namespaceHasChildren n)

variable {s : Store} {u : Update} {e : StoreError} {n : Name}

/-! ## What is refused -/

/-- What a tree refuses fails, and for that reason. -/
theorem Refuses.result_eq (h : s.Refuses u e) (hs : s.IsTree) : u.result s = .error e := by
  cases h with
  | notARoot hroot => simp [Update.result, create, hroot]
  | rootExists hroot hn => simp [Update.result, create, hroot, hn]
  | notAChild hchild => simp [Update.result, createChild, Name.isParentOf_iff, hchild]
  | parentGone hchild hgone => simp [Update.result, createChild, Name.isParentOf_iff, hchild, hgone]
  | childExists hchild hparent hn =>
    simp [Update.result, createChild, Name.isParentOf_iff.mpr hchild, hparent, hn]
  | orphan hp hgone => exact insert_of_orphan _ hp hgone
  | inserted hparent hn => exact insert_of_contains _ hn hparent
  | grantedNowhere hn =>
    simp [Update.result, grant, modify?_eq_none_iff.mpr (record?_eq_none_iff.mpr hn)]
  | removedAlready hn => exact remove_of_absent _ hn
  | hasChildren hn hc hp =>
    exact remove_of_children (List.ne_nil_of_mem ((hs _ _).mpr ⟨hc, hp⟩))

/-! ## What is not refused -/

/-- Creating a root is refused, or it is done. -/
theorem refused_or_created (s : Store) (n : Name) :
    (∃ e, s.Refuses (.create n) e) ∨ ∃ s', s.create n = .ok s' := by
  cases hroot : n.isRoot with
  | false => exact Or.inl ⟨_, .notARoot hroot⟩
  | true =>
    cases hn : s.contains n with
    | true => exact Or.inl ⟨_, .rootExists hroot hn⟩
    | false => exact Or.inr (exists_create (Name.parent?_eq_none_iff.mpr hroot) hn)

/-- Creating a child is refused, or it is done. -/
theorem refused_or_createdChild (s : Store) (h : Handle) (child : Name) :
    (∃ e, s.Refuses (.createChild h child) e) ∨ ∃ s', s.createChild h child = .ok s' := by
  by_cases hchild : child.parent? = some h
  · cases hparent : s.contains h with
    | false => exact Or.inl ⟨_, .parentGone hchild hparent⟩
    | true =>
      cases hn : s.contains child with
      | true => exact Or.inl ⟨_, .childExists hchild hparent hn⟩
      | false => exact Or.inr (exists_createChild hchild hparent hn)
  · exact Or.inl ⟨_, .notAChild hchild⟩

/-- Inserting a namespace is refused, or it is done with all its grants. -/
theorem refused_or_inserted (s : Store) (n : Name) (grants : List Grant) :
    (∃ e, s.Refuses (.insert n grants) e) ∨ ∃ s', s.insert n grants = .ok s' := by
  by_cases horphan : ∃ p, n.parent? = some p ∧ s.contains p = false
  · obtain ⟨p, hp, hgone⟩ := horphan
    exact Or.inl ⟨_, .orphan hp hgone⟩
  · have hparent : ∀ p, n.parent? = some p → s.contains p = true := fun p hp => by
      rw [← Bool.not_eq_false]
      exact fun hgone => horphan ⟨p, hp, hgone⟩
    cases hn : s.contains n with
    | true => exact Or.inl ⟨_, .inserted hparent hn⟩
    | false =>
      obtain ⟨s', hs', -⟩ := exists_inserts grants hn hparent
      exact Or.inr ⟨s', hs'⟩

/-- Making a grant is refused, or it is done. -/
theorem refused_or_granted (s : Store) (n : Name) (g : Grant) :
    (∃ e, s.Refuses (.grant n g) e) ∨ ∃ s', s.grant n g = .ok s' := by
  cases hn : s.contains n with
  | false => exact Or.inl ⟨_, .grantedNowhere hn⟩
  | true => exact Or.inr (exists_grant g hn)

/-- Removing a namespace of a tree is refused, or it is done. -/
theorem refused_or_removed (hs : s.IsTree) (n : Name) (cascade : Bool) :
    (∃ e, s.Refuses (.remove n cascade) e) ∨ ∃ s', s.remove n cascade = .ok s' := by
  cases hn : s.contains n with
  | false => exact Or.inl ⟨_, .removedAlready hn⟩
  | true =>
    by_cases hstay : cascade = false ∧ ∃ c, s.contains c = true ∧ c.parent? = some n
    · obtain ⟨rfl, c, hc, hp⟩ := hstay
      exact Or.inl ⟨_, .hasChildren hn hc hp⟩
    · refine Or.inr (exists_remove hn fun hcascade => ?_)
      rw [hs.children_eq_nil_iff]
      exact fun c hc hp => hstay ⟨hcascade, c, hc, hp⟩

/-- An operation on a tree is refused, or it is done. -/
theorem refused_or_ok (hs : s.IsTree) (u : Update) :
    (∃ e, s.Refuses u e) ∨ ∃ s', u.result s = .ok s' := by
  cases u with
  | create n => exact refused_or_created s n
  | createChild h child => exact refused_or_createdChild s h child
  | insert n grants => exact refused_or_inserted s n grants
  | grant n g => exact refused_or_granted s n g
  | remove n cascade => exact refused_or_removed hs n cascade

/-- **Operations fail exactly when they should, and then change nothing.** Whatever has been done to
a store before: an operation fails exactly if the store refuses it, with the reason for that; it
then has not changed any record, also where it writes in place; and an operation that is not
refused is done, in place as well. None of this depends on what would take a child back that
is created while its parent goes. -/
theorem refused_or_done (hs : s.Reachable) (u : Update) (takeBack : Handle → Name → InPlace) :
    (∀ e, u.result s = .error e ↔ s.Refuses u e) ∧
    (∀ e, s.Refuses u e → (u.inPlace takeBack).run s = .error e s) ∧
    ((∀ e, ¬ s.Refuses u e) →
      ∃ s', u.result s = .ok s' ∧ (u.inPlace takeBack).run s = .ok () s') := by
  have htree := hs.isTree
  refine ⟨fun e => ⟨fun he => ?_, fun h => h.result_eq htree⟩, fun e h => ?_, fun hno => ?_⟩
  · -- The reasons exclude each other, since each of them is the result.
    rcases refused_or_ok htree u with ⟨e', h⟩ | ⟨s', hs'⟩
    · obtain rfl := Except.error.inj ((h.result_eq htree).symm.trans he)
      exact h
    · rw [hs'] at he
      cases he
  · rw [u.run_inPlace, h.result_eq htree]
    rfl
  · obtain ⟨s', hs'⟩ := (refused_or_ok htree u).resolve_left fun ⟨e, h⟩ => hno e h
    refine ⟨s', hs', ?_⟩
    rw [u.run_inPlace, hs']
    rfl

/-- While `acme.lab` is there, `acme` is not removed by itself, and a handle to `acme.attic`, which
is not there, creates nothing; a new root gets its grants. -/
theorem refused_or_done_acme :
    let acme : Name := ⟨["acme"], by decide, by decide⟩
    let lab : Name := ⟨["acme", "lab"], by decide, by decide⟩
    let attic : Name := ⟨["acme", "attic"], by decide, by decide⟩
    let shelf : Name := ⟨["acme", "attic", "shelf"], by decide, by decide⟩
    let globex : Name := ⟨["globex"], by decide, by decide⟩
    let grants : List Grant := [⟨"owner", .dropNamespace⟩, ⟨"guest", .showNamespaces⟩]
    let s := empty.afterAll [.create acme, .createChild acme lab]
    s.Reachable ∧
      ((Update.remove acme false).inPlace .withdraw).run s = .error (.namespaceHasChildren acme) s ∧
      ((Update.createChild attic shelf).inPlace .withdraw).run s =
        .error (.namespaceDoesNotExist attic) s ∧
      ∃ s', ((Update.insert globex grants).inPlace .withdraw).run s = .ok () s' := by
  intro acme lab attic shelf globex grants s
  have hreachable : s.Reachable := ⟨_, rfl⟩
  have hstays : s.Refuses (.remove acme false) (.namespaceHasChildren acme) :=
    .hasChildren (c := lab) (by decide) (by decide) (by decide)
  have hgone : s.Refuses (.createChild attic shelf) (.namespaceDoesNotExist attic) :=
    .parentGone (by decide) (by decide)
  have hnew : ∀ e, ¬ s.Refuses (.insert globex grants) e := by
    intro e h
    cases h with
    | orphan hp _ =>
      have hroot : globex.parent? = none := by decide
      rw [hroot] at hp
      cases hp
    | inserted _ hn => exact absurd hn (by decide)
  obtain ⟨s', -, hs'⟩ := (refused_or_done hreachable _ InPlace.withdraw).2.2 hnew
  exact ⟨hreachable, (refused_or_done hreachable _ _).2.1 _ hstays,
    (refused_or_done hreachable _ _).2.1 _ hgone, s', hs'⟩

end NamespaceControl.Store
