import NamespaceControl.Proofs.Store.Change

/-!
# What inserting a namespace comes to

A namespace is inserted exactly if it is new and its parent, if it has one, is there; the grants
never fail then. The parent is looked for first: without it the answer is the same whether the
namespace is there or not (`insert_of_orphan`).
-/

namespace NamespaceControl.Store

variable {s : Store} {n p : Name}

/-! ## Grants -/

/-- A grant on a namespace that exists is made. -/
theorem exists_grant (g : Grant) (h : s.contains n = true) : ∃ s', s.grant n g = .ok s' := by
  obtain ⟨r, hr⟩ := contains_iff.mp h
  unfold grant modify?
  rw [hr]
  exact ⟨_, rfl⟩

/-- The second store is the first one with grants on one namespace. -/
structure GainsGrants (s s' : Store) (n : Name) (grants : List Grant) : Prop where
  /-- The same namespaces exist. -/
  contains_eq : ∀ m, s'.contains m = s.contains m
  /-- The grants are made, and no others. -/
  hasPermission_iff : ∀ m role permission, s'.hasPermission m role permission = true ↔
    s.hasPermission m role permission = true ∨ (m = n ∧ ⟨role, permission⟩ ∈ grants)

/-- Any grants on a namespace that exists are made. -/
theorem exists_gainsGrants (grants : List Grant) (h : s.contains n = true) :
    ∃ s', grants.foldlM (fun t g => t.grant n g) s = .ok s' ∧ s.GainsGrants s' n grants := by
  induction grants generalizing s with
  | nil => exact ⟨s, rfl, fun _ => rfl, by simp⟩
  | cons g rest ih =>
    obtain ⟨t, ht⟩ := exists_grant g h
    have hg := gainsGrant_of_grant ht
    obtain ⟨s', hs', hrest⟩ := ih ((hg.contains_eq n).trans h)
    refine ⟨s', ?_, fun m => ?_, fun m role permission => ?_⟩
    · rw [List.foldlM_cons, bind_eq_ok_iff]
      exact ⟨t, ht, hs'⟩
    · rw [hrest.contains_eq, hg.contains_eq]
    · rw [hrest.hasPermission_iff, hg.hasPermission_iff, or_assoc, ← and_or_left,
        List.mem_cons, @eq_comm _ g]

/-! ## Namespaces -/

/-- A root that does not exist can be created. -/
theorem exists_create (hroot : n.parent? = none) (habsent : s.contains n = false) :
    ∃ s', s.create n = .ok s' := by
  unfold create
  simp [Name.parent?_eq_none_iff.mp hroot, habsent]

/-- A child that does not exist can be created below its parent. -/
theorem exists_createChild (hp : n.parent? = some p) (hparent : s.contains p = true)
    (habsent : s.contains n = false) : ∃ s', s.createChild p n = .ok s' := by
  obtain ⟨s', hs'⟩ := exists_modify?_add n (·.addChild n) hparent
  unfold createChild
  simp [Name.isParentOf_iff.mpr hp, hparent, habsent, hs']

/-- The second store is the first one with a namespace that was inserted. -/
structure Inserts (s s' : Store) (n : Name) (grants : List Grant) : Prop where
  /-- One more namespace exists. -/
  contains_iff : ∀ m, s'.contains m = true ↔ m = n ∨ s.contains m = true
  /-- The grants on it are made, and no others. -/
  hasPermission_iff : ∀ m role permission, s'.hasPermission m role permission = true ↔
    s.hasPermission m role permission = true ∨ (m = n ∧ ⟨role, permission⟩ ∈ grants)

/-- What is added and then gets grants is inserted. -/
theorem Grows.exists_inserts {t : Store} (h : s.Grows t n) (grants : List Grant) :
    ∃ s', grants.foldlM (fun u g => u.grant n g) t = .ok s' ∧ s.Inserts s' n grants := by
  obtain ⟨s', hs', hgrants⟩ := exists_gainsGrants grants (h.contains_iff.mpr (Or.inl rfl))
  refine ⟨s', hs', fun m => ?_, fun m role permission => ?_⟩
  · rw [hgrants.contains_eq, h.contains_iff]
  · rw [hgrants.hasPermission_iff, h.hasPermission_eq]

/-- Inserting a namespace is inserting it without grants, and then making the grants. -/
theorem insert_eq_bind (s : Store) (n : Name) (grants : List Grant) :
    s.insert n grants = s.insert n [] >>= grants.foldlM fun t g => t.grant n g := by
  unfold insert
  cases n.parent? with
  | none => simp only [List.foldlM_nil, bind_pure]
  | some parent => simp only [List.foldlM_nil, bind_pure, bind_assoc]

/-- A namespace that does not exist is inserted if its parent does. -/
theorem exists_inserts (grants : List Grant) (habsent : s.contains n = false)
    (hparent : ∀ p, n.parent? = some p → s.contains p = true) :
    ∃ s', s.insert n grants = .ok s' ∧ s.Inserts s' n grants := by
  unfold insert
  cases hp : n.parent? with
  | none =>
    obtain ⟨t, ht⟩ := exists_create hp habsent
    obtain ⟨s', hs', hinserts⟩ := (grows_of_create ht).2.exists_inserts grants
    exact ⟨s', bind_eq_ok_iff.mpr ⟨t, ht, hs'⟩, hinserts⟩
  | some p =>
    have hget : s.get p = .ok p := get_eq_ok_iff.mpr ⟨hparent p hp, rfl⟩
    obtain ⟨t, ht⟩ := exists_createChild hp (hparent p hp) habsent
    obtain ⟨s', hs', hinserts⟩ := (grows_of_createChild ht).2.exists_inserts grants
    refine ⟨s', bind_eq_ok_iff.mpr ⟨p, hget, bind_eq_ok_iff.mpr ⟨t, ht, hs'⟩⟩, hinserts⟩

/-- Without its parent a namespace is not inserted. -/
theorem insert_of_orphan (grants : List Grant) (hp : n.parent? = some p)
    (hparent : s.contains p = false) :
    s.insert n grants = .error (.namespaceDoesNotExist p) := by
  have hget : s.get p = .error (.namespaceDoesNotExist p) := by simp [get, hparent]
  unfold insert
  simp only [hp, hget]
  rfl

/-- A namespace that exists is not inserted again. -/
theorem insert_of_contains (grants : List Grant) (h : s.contains n = true)
    (hparent : ∀ p, n.parent? = some p → s.contains p = true) :
    s.insert n grants = .error (.namespaceAlreadyExists n) := by
  unfold insert
  cases hp : n.parent? with
  | none =>
    have hcreate : s.create n = .error (.namespaceAlreadyExists n) := by
      simp [create, Name.parent?_eq_none_iff.mp hp, h]
    simp only [hcreate]
    rfl
  | some p =>
    have hget : s.get p = .ok p := get_eq_ok_iff.mpr ⟨hparent p hp, rfl⟩
    have hcreate : s.createChild p n = .error (.namespaceAlreadyExists n) := by
      simp [createChild, Name.isParentOf_iff.mpr hp, hparent p hp, h]
    simp only [hget]
    show (s.createChild p n >>= _) = _
    rw [hcreate]
    rfl

end NamespaceControl.Store
