import NamespaceControl.Proofs.Config.Order
import NamespaceControl.Proofs.Store.Insertion

/-!
# What seeded stores hold

A store of namespaces can be seeded with declarations exactly if they are in order, and then holds
what they say (`Store.Holds`); if they are not, the first one that is out of its place is refused.
A store of users can always be seeded; if no name is used twice it has each account.
-/

namespace NamespaceControl

variable {s s' : Store} {declarations before : List Declaration} {d : Declaration} {n : Name}

/-! ## Grants of declarations -/

/-- A declaration makes the grants that it lists under a role. -/
theorem mem_grantList {role : String} {permission : Permission} :
    ⟨role, permission⟩ ∈ d.grantList ↔
      ∃ granted, d.grants[role]? = some granted ∧ permission ∈ granted := by
  unfold Declaration.grantList
  rw [List.mem_flatMap]
  constructor
  · rintro ⟨⟨role', granted⟩, hentry, hgrant⟩
    obtain ⟨permission', hpermission, hgrant⟩ := List.mem_map.mp hgrant
    obtain ⟨rfl, rfl⟩ := Grant.mk.inj hgrant
    exact ⟨granted, Std.ExtTreeMap.mem_toList_iff_getElem?_eq_some.mp hentry, hpermission⟩
  · rintro ⟨granted, hentry, hpermission⟩
    exact ⟨(role, granted), Std.ExtTreeMap.mem_toList_iff_getElem?_eq_some.mpr hentry,
      List.mem_map_of_mem hpermission⟩

/-! ## Namespaces -/

/-- How a misplaced declaration is refused by a store that has those before it. -/
def Misplacement.refusal (n : Name) : Misplacement → StoreError
  | orphan p => .namespaceDoesNotExist p
  | repeated => .namespaceAlreadyExists n

namespace Store

/-- The store has the namespaces that are declared, with the permissions that are listed. -/
structure Holds (s : Store) (declarations : List Declaration) : Prop where
  /-- The namespaces are those that are declared. -/
  contains_iff : ∀ n, s.contains n = true ↔ n ∈ declaredNames declarations
  /-- The permissions are those that are listed for them. -/
  hasPermission_iff : ∀ n role permission, s.hasPermission n role permission = true ↔
    ∃ d ∈ declarations, d.name = n ∧
      ∃ granted, d.grants[role]? = some granted ∧ permission ∈ granted

namespace Holds

/-- The empty store holds what no declarations say. -/
theorem empty : Store.empty.Holds [] where
  contains_iff n := by simp [contains_eq, declaredNames]
  hasPermission_iff n role permission := by
    rw [Store.hasPermission_iff]
    simp

/-- What a declaration says is held as soon as its namespace is inserted. -/
theorem concat (h : s.Holds declarations) (hs : s.Inserts s' d.name d.grantList) :
    s'.Holds (declarations ++ [d]) where
  contains_iff n := by
    rw [hs.contains_iff, h.contains_iff, declaredNames, declaredNames, List.map_append,
      List.mem_append, List.map_singleton, List.mem_singleton, or_comm]
  hasPermission_iff n role permission := by
    rw [hs.hasPermission_iff, h.hasPermission_iff, mem_grantList]
    constructor
    · rintro (⟨e, he, hgrants⟩ | ⟨rfl, hgrants⟩)
      · exact ⟨e, List.mem_append_left _ he, hgrants⟩
      · exact ⟨d, List.mem_append_right _ (List.mem_singleton_self d), rfl, hgrants⟩
    · rintro ⟨e, he, rfl, hgrants⟩
      rcases List.mem_append.mp he with he | he
      · exact Or.inl ⟨e, he, rfl, hgrants⟩
      · obtain rfl := List.mem_singleton.mp he
        exact Or.inr ⟨rfl, hgrants⟩

/-- A declaration in its place can be inserted. -/
theorem exists_insert (h : s.Holds declarations)
    (hplace : WellPlaced (declaredNames declarations) d.name) :
    ∃ s', s.insert d.name d.grantList = .ok s' ∧ s'.Holds (declarations ++ [d]) := by
  have habsent : s.contains d.name = false := by
    rw [← Bool.not_eq_true, h.contains_iff]
    exact hplace.fresh
  have hparent : ∀ p, d.name.parent? = some p → s.contains p = true := by
    intro p hp
    exact (h.contains_iff p).mpr (hplace.parent_mem p hp)
  obtain ⟨s', hs', hinserts⟩ := exists_inserts d.grantList habsent hparent
  exact ⟨s', hs', h.concat hinserts⟩

/-- A declaration out of its place is refused. -/
theorem insert_of_misplaced {fault : Misplacement} (h : s.Holds declarations)
    (hd : Misplaced (declaredNames declarations) d.name fault) :
    s.insert d.name d.grantList = .error (fault.refusal d.name) := by
  cases hd with
  | @orphan p hp hmem =>
    have hparent : s.contains p = false := by
      rw [← Bool.not_eq_true, h.contains_iff]
      exact hmem
    exact insert_of_orphan d.grantList hp hparent
  | repeated hmem hparents =>
    exact insert_of_contains d.grantList ((h.contains_iff _).mpr hmem)
      fun p hp => (h.contains_iff p).mpr (hparents p hp)

end Holds

/-- Declarations in order can be seeded. -/
theorem exists_seed_of_inOrder (h : InOrder declarations) :
    ∃ s, seed declarations = .ok s ∧ s.Holds declarations := by
  induction declarations using List.reverseRecOn with
  | nil => exact ⟨.empty, rfl, .empty⟩
  | append_singleton front d ih =>
    obtain ⟨hfront, hplace⟩ := inOrder_concat_iff.mp h
    obtain ⟨s, hs, hholds⟩ := ih hfront
    obtain ⟨s', hs', hholds'⟩ := hholds.exists_insert hplace
    refine ⟨s', ?_, hholds'⟩
    unfold seed at hs ⊢
    rw [List.foldlM_append, bind_eq_ok_iff]
    refine ⟨s, hs, ?_⟩
    rw [List.foldlM_cons, bind_eq_ok_iff]
    exact ⟨s', hs', rfl⟩

/-- The first declaration that is out of its place is refused. -/
theorem seed_of_first_misplaced {fault : Misplacement} (h : InOrder before)
    (hd : Misplaced (declaredNames before) d.name fault) (rest : List Declaration) :
    seed (before ++ d :: rest) = .error (fault.refusal d.name) := by
  obtain ⟨s, hs, hholds⟩ := exists_seed_of_inOrder h
  unfold seed at hs ⊢
  rw [List.foldlM_append, hs]
  show (d :: rest).foldlM (fun s d => s.insert d.name d.grantList) s = _
  rw [List.foldlM_cons, hholds.insert_of_misplaced hd]
  rfl

/-- Exactly declarations in order can be seeded. -/
theorem exists_seed_iff : (∃ s, seed declarations = .ok s) ↔ InOrder declarations := by
  constructor
  · rintro ⟨s, hs⟩
    rcases exists_misplaced declarations with h | ⟨before, d, after, fault, rfl, hbefore, hd⟩
    · exact h
    · rw [seed_of_first_misplaced hbefore hd] at hs
      cases hs
  · intro h
    obtain ⟨s, hs, -⟩ := exists_seed_of_inOrder h
    exact ⟨s, hs⟩

end Store

/-! ## Users -/

namespace UserStore

variable {accounts : List Account} {a : Account}

/-- An account at the end counts for its name. -/
theorem getElem?_seed_concat (accounts : List Account) (a : Account) (username : String) :
    (seed (accounts ++ [a])).users[username]? =
      if a.username = username then some a.user else (seed accounts).users[username]? := by
  unfold seed
  rw [List.foldl_append]
  show ((_ : Std.ExtTreeMap String User).insert a.username a.user)[username]? = _
  rw [Std.ExtTreeMap.getElem?_insert]
  simp only [Std.LawfulEqCmp.compare_eq_iff_eq]

/-- Without an account of a name there is no user of that name. -/
theorem getElem?_seed_of_not_mem {username : String}
    (h : username ∉ accounts.map Account.username) : (seed accounts).users[username]? = none := by
  induction accounts using List.reverseRecOn with
  | nil => exact Std.ExtTreeMap.getElem?_empty
  | append_singleton front a ih =>
    rw [List.map_append, List.mem_append, not_or] at h
    rw [getElem?_seed_concat, if_neg, ih h.1]
    rintro rfl
    exact h.2 (List.mem_singleton_self _)

/-- If no name is used twice, each account makes a user. -/
theorem getElem?_seed_of_mem (hnodup : (accounts.map Account.username).Nodup)
    (ha : a ∈ accounts) : (seed accounts).users[a.username]? = some a.user := by
  induction accounts using List.reverseRecOn with
  | nil => cases ha
  | append_singleton front last ih =>
    rw [List.map_append, List.nodup_append] at hnodup
    obtain ⟨hfront, -, hfresh⟩ := hnodup
    rw [getElem?_seed_concat]
    rcases List.mem_append.mp ha with ha | ha
    · rw [if_neg, ih hfront ha]
      exact Ne.symm (hfresh _ (List.mem_map_of_mem ha) _ (List.mem_singleton_self _))
    · obtain rfl := List.mem_singleton.mp ha
      exact if_pos rfl

end UserStore

/-- A user holds the roles that the account lists. -/
theorem mem_rolesIn_user {a : Account} {role : String} :
    role ∈ a.user.rolesIn n ↔ ∃ held, a.roles[n]? = some held ∧ role ∈ held := by
  unfold User.rolesIn Account.user
  rw [Std.ExtTreeSet.mem_toList, Std.ExtTreeMap.getD_eq_getD_getElem?, Std.ExtTreeMap.getElem?_map]
  cases a.roles[n]? with
  | none => simp
  | some held => simp [Std.ExtTreeSet.mem_ofList]

end NamespaceControl
