import NamespaceControl.Proofs.Store.Listing
import NamespaceControl.Proofs.Store.Reachable

/-!
# What removing a namespace comes to

A removal fails if the namespace is not there, or if it has children and they are to stay. Otherwise
it takes the namespace with everything below it and nothing else (`remove_takes_subtree`). The same
comes of taking the names of the subtree one by one, each without leave to take others with it, as
long as no name comes before one that it covers (`LeavesFirst`), which is so in the reverse of the
order in which a store lists them.
-/

namespace NamespaceControl.Store

variable {s s' t t' : Store} {n m : Name} {rest names : List Name} {cascade : Bool}

/-! ## When a removal is refused -/

/-- The record of a namespace lists no children exactly if it has none. -/
theorem isEmpty_children_iff {r : Record} (hr : s.record? n = some r) :
    r.children.isEmpty = true ↔ s.children n = [] := by
  rw [children, hr, ← Std.ExtTreeSet.isEmpty_toList, List.isEmpty_iff]

/-- A namespace that does not exist is not removed. -/
theorem remove_of_absent (cascade : Bool) (h : s.contains n = false) :
    s.remove n cascade = .error (.namespaceDoesNotExist n) := by
  rw [remove, record?_eq_none_iff.mpr h]

/-- A namespace that has children is not removed without them. -/
theorem remove_of_children (h : s.children n ≠ []) :
    s.remove n false = .error (.namespaceHasChildren n) := by
  obtain ⟨c, hc⟩ := List.exists_mem_of_ne_nil _ h
  obtain ⟨r, hr⟩ := contains_iff.mp (contains_of_mem_children hc)
  have hsome : r.children.isEmpty = false := by
    rw [← Bool.not_eq_true, isEmpty_children_iff hr]
    exact h
  simp [remove, hr, hsome]

/-- Any other namespace is removed. -/
theorem exists_remove (h : s.contains n = true) (hleaf : cascade = false → s.children n = []) :
    ∃ s', s.remove n cascade = .ok s' := by
  obtain ⟨r, hr⟩ := contains_iff.mp h
  unfold remove
  rw [hr]
  cases cascade with
  | true => exact ⟨_, rfl⟩
  | false =>
    have hempty : r.children.isEmpty = true := (isEmpty_children_iff hr).mpr (hleaf rfl)
    simp only [hempty]
    exact ⟨_, rfl⟩

/-- A namespace without children is removed in the same way with leave to take others. -/
theorem remove_of_leaf (h : s.children n = []) : s.remove n false = s.remove n true := by
  unfold remove
  cases hr : s.record? n with
  | none => rfl
  | some r =>
    have hempty : r.children.isEmpty = true := (isEmpty_children_iff hr).mpr h
    simp [hempty]

/-! ## Stores that lack namespaces -/

/-- The second store has the namespaces of the first one but for some, and what was granted on
them. -/
structure Lacks (s s' : Store) (gone : Name → Prop) : Prop where
  /-- The others exist. -/
  contains_iff : ∀ m, s'.contains m = true ↔ ¬ gone m ∧ s.contains m = true
  /-- What was granted on the others is granted. -/
  hasPermission_iff : ∀ m role permission, s'.hasPermission m role permission = true ↔
    ¬ gone m ∧ s.hasPermission m role permission = true

namespace Lacks

variable {gone gone' : Name → Prop}

/-- It makes no difference what is said of names that were not there. -/
theorem congr (h : s.Lacks t gone) (hgone : ∀ m, s.contains m = true → (gone m ↔ gone' m)) :
    s.Lacks t gone' where
  contains_iff m := by
    rw [h.contains_iff]
    exact and_congr_left fun hm => not_congr (hgone m hm)
  hasPermission_iff m role permission := by
    rw [h.hasPermission_iff]
    exact and_congr_left fun hm => not_congr (hgone m (contains_of_hasPermission hm))

/-- What a store lacks at first and what it lacks then, it lacks in all. -/
theorem trans (h : s.Lacks t gone) (h' : t.Lacks t' gone') :
    s.Lacks t' fun m => gone m ∨ gone' m where
  contains_iff m := by
    rw [h'.contains_iff, h.contains_iff, not_or, ← and_assoc, and_comm (a := ¬ gone' m)]
  hasPermission_iff m role permission := by
    rw [h'.hasPermission_iff, h.hasPermission_iff, not_or, ← and_assoc, and_comm (a := ¬ gone' m)]

/-- Trees that lack the same namespaces of a store are the same. -/
theorem unique (h : s.Lacks t gone) (h' : s.Lacks t' gone) (ht : t.IsTree) (ht' : t'.IsTree) :
    t = t' := by
  refine ht.eq_of_contains_of_hasPermission ht' (fun m => ?_) fun m role permission => ?_
  · rw [h.contains_iff, h'.contains_iff]
  · rw [h.hasPermission_iff, h'.hasPermission_iff]

end Lacks

/-- After a removal the store lacks what the namespace covers. -/
theorem Prunes.lacks (h : s.Prunes s' n) : s.Lacks s' n.Covers where
  contains_iff _ := h.contains_iff
  hasPermission_iff _ _ _ := h.hasPermission_iff

/-- After the removal of a namespace without children the store lacks only that. -/
theorem Prunes.lacks_self (h : s.Prunes s' n) (hs : s.IsTree) (hleaf : s.children n = []) :
    s.Lacks s' (· = n) := by
  refine h.lacks.congr fun m hm => ⟨hs.eq_of_covers_of_leaf hleaf hm, ?_⟩
  rintro rfl
  exact Name.covers_refl m

/-! ## One namespace after the other -/

/-- Names that can be taken one after the other: what one of them covers comes before it. -/
structure LeavesFirst (s : Store) (names : List Name) : Prop where
  /-- They exist. -/
  present : ∀ m ∈ names, s.contains m = true
  /-- None of them covers a later one. -/
  not_covers : names.Pairwise fun a b => ¬ a.Covers b
  /-- What one of them covers is one of them. -/
  closed : ∀ a ∈ names, ∀ m, s.contains m = true → a.Covers m → m ∈ names

namespace LeavesFirst

/-- The first one has no children. -/
theorem children_head (h : s.LeavesFirst (n :: rest)) (hs : s.IsTree) : s.children n = [] := by
  rw [hs.children_eq_nil_iff]
  intro c hc hp
  have hcovers : n.Covers c := Name.covers_of_parent? hp
  rcases List.mem_cons.mp (h.closed n List.mem_cons_self c hc hcovers) with rfl | hrest
  · exact Name.parent?_ne_self hp
  · exact List.rel_of_pairwise_cons h.not_covers hrest hcovers

/-- When the first one is gone, the others can be taken. -/
theorem tail (h : s.LeavesFirst (n :: rest)) (hs : s.Lacks s' (· = n)) :
    s'.LeavesFirst rest where
  present m hm := by
    have hmn : m ≠ n := by
      rintro rfl
      exact List.rel_of_pairwise_cons h.not_covers hm (Name.covers_refl m)
    exact (hs.contains_iff m).mpr ⟨hmn, h.present m (List.mem_cons_of_mem n hm)⟩
  not_covers := h.not_covers.of_cons
  closed a ha m hm hcovers := by
    obtain ⟨hmn, hm⟩ := (hs.contains_iff m).mp hm
    exact (List.mem_cons.mp (h.closed a (List.mem_cons_of_mem n ha) m hm hcovers)).resolve_left hmn

/-- Taken one after the other, they are all removed, and nothing else. -/
theorem exists_foldlM_remove (h : s.LeavesFirst names) (hs : s.IsTree) :
    ∃ t, names.foldlM (fun u m => u.remove m false) s = .ok t ∧ t.IsTree ∧
      s.Lacks t (· ∈ names) := by
  induction names generalizing s with
  | nil => exact ⟨s, rfl, hs, by simp, by simp⟩
  | cons n rest ih =>
    -- Without its first name the list is `LeavesFirst` in the store without that name.
    have hleaf : s.children n = [] := h.children_head hs
    obtain ⟨u, hu⟩ := exists_remove (h.present n List.mem_cons_self) fun _ => hleaf
    have hprunes := (prunes_of_remove hs hu).1
    have hlacks := hprunes.lacks_self hs hleaf
    obtain ⟨t, ht, htree, hrest⟩ := ih (h.tail hlacks) (hprunes.isTree hs)
    refine ⟨t, ?_, htree, ?_⟩
    · rw [List.foldlM_cons, bind_eq_ok_iff]
      exact ⟨u, hu, ht⟩
    · simpa only [List.mem_cons] using hlacks.trans hrest

end LeavesFirst

/-- The names of a subtree, in the reverse of the order in which a store lists them, can be taken
one after the other. -/
theorem leavesFirst_subtree (s : Store) (n : Name) :
    s.LeavesFirst (s.names.filter (n.Covers ·)).reverse where
  present m hm := by
    rw [List.mem_reverse, List.mem_filter] at hm
    exact mem_names.mp hm.1
  not_covers := by
    rw [List.pairwise_reverse]
    exact (s.ascending_names.filter _).imp Name.not_covers_of_lt
  closed a ha m hm hcovers := by
    simp only [List.mem_reverse, List.mem_filter, decide_eq_true_eq] at ha ⊢
    exact ⟨mem_names.mpr hm, ha.2.trans hcovers⟩

/-! ## The subtree -/

/-- What is left is listed as it was. -/
theorem Prunes.names_eq (h : s.Prunes s' n) : s'.names = s.names.filter fun m => ¬ n.Covers m := by
  refine Name.eq_of_ascending s'.ascending_names (s.ascending_names.filter _) fun m => ?_
  rw [mem_names, h.contains_iff, List.mem_filter, mem_names, decide_eq_true_eq, and_comm]

/-- **A removal takes exactly the subtree.** Removing a namespace that exists, with leave to take
others, leaves exactly the names that it does not cover, in their order; their records stay as they
are, but for the parent of the namespace, which does not list it any more. Without leave a namespace
that has no children is removed in the same way. And the same store comes of removing the names of
the subtree one by one without such leave, in the reverse of the order in which they are listed:
none of these removals is refused. -/
theorem remove_takes_subtree (hs : s.Reachable) (hn : s.contains n = true) :
    ∃ s', s.remove n true = .ok s' ∧
      s'.names = (s.names.filter fun m => ¬ n.Covers m) ∧
      (∀ m, ¬ n.Covers m → s'.record? m =
        if n.parent? = some m then (s.record? m).map (·.forgetChild n) else s.record? m) ∧
      (s.children n = [] → s.remove n false = .ok s') ∧
      (s.names.filter (n.Covers ·)).reverse.foldlM (fun t m => t.remove m false) s = .ok s' := by
  have htree := hs.isTree
  obtain ⟨s', hs'⟩ : ∃ s', s.remove n true = .ok s' := exists_remove hn (by simp)
  have hprunes := (prunes_of_remove htree hs').1
  refine ⟨s', hs', hprunes.names_eq, fun m hm => ?_, fun hleaf => ?_, ?_⟩
  · rw [hprunes.record?_eq, if_neg hm]
  · rw [remove_of_leaf hleaf, hs']
  · -- Both ways end in a tree that lacks the subtree, and there is only one.
    obtain ⟨t, ht, hleft, hlacks⟩ := (s.leavesFirst_subtree n).exists_foldlM_remove htree
    have hsame : s.Lacks t n.Covers := by
      refine hlacks.congr fun m hm => ?_
      simp [mem_names, hm]
    rw [ht, hsame.unique hprunes.lacks hleft (hprunes.isTree htree)]

/-- With `acme.lab` goes `acme.lab.desk`, as if it had been removed first, but not `acme.labs`. -/
theorem remove_takes_subtree_lab :
    let acme : Name := ⟨["acme"], by decide, by decide⟩
    let lab : Name := ⟨["acme", "lab"], by decide, by decide⟩
    let desk : Name := ⟨["acme", "lab", "desk"], by decide, by decide⟩
    let labs : Name := ⟨["acme", "labs"], by decide, by decide⟩
    let s := empty.afterAll
      [.create acme, .createChild acme lab, .createChild lab desk, .createChild acme labs]
    s.Reachable ∧ s.contains lab = true ∧
      ∃ s', s.remove lab true = .ok s' ∧ s'.names = [acme, labs] ∧
        [desk, lab].foldlM (fun t m => t.remove m false) s = .ok s' := by
  intro acme lab desk labs s
  have hreachable : s.Reachable := ⟨_, rfl⟩
  have hthere : s.contains lab = true := by decide
  have hkept : (s.names.filter fun m => ¬ lab.Covers m) = [acme, labs] := by decide
  have htaken : (s.names.filter (lab.Covers ·)).reverse = [desk, lab] := by decide
  obtain ⟨s', hs', hnames, -, -, hone⟩ := remove_takes_subtree hreachable hthere
  rw [hkept] at hnames
  rw [htaken] at hone
  exact ⟨hreachable, hthere, s', hs', hnames, hone⟩

end NamespaceControl.Store
