import NamespaceControl.ControlPlane
import NamespaceControl.Proofs.Config.Seeding

/-!
# What a control plane starts from

A configuration is looked at twice, when it is validated and when the stores are seeded, and both
come to the same: declarations that are valid can be seeded, and the first one that is not is
refused by both for the same reason (`RejectedAlike`). So there is a control plane exactly for a
valid configuration, and it has the namespaces, the permissions and the users that are configured.
-/

namespace NamespaceControl

variable {c : Config} {plane : ControlPlane} {before : List Declaration} {d : Declaration}

/-! ## Rejection -/

/-- Validating and seeding reject declarations at the entry that comes behind the given ones, and
for the same reason. -/
inductive RejectedAlike (before : List Declaration) (d : Declaration)
    (declarations : List Declaration) : Prop where
  /-- The parent of the namespace is not declared before it. -/
  | orphan {p : Name} (parent : d.name.parent? = some p) (undeclared : p ∉ declaredNames before)
      (validation : Config.checkNamespaces [] declarations = .error (.undeclaredParent d.name p))
      (seeding : Store.seed declarations = .error (.namespaceDoesNotExist p))
  /-- The namespace is declared before. -/
  | repeated (declared : d.name ∈ declaredNames before)
      (parents : ∀ p, d.name.parent? = some p → p ∈ declaredNames before)
      (validation : Config.checkNamespaces [] declarations = .error (.duplicateNamespace d.name))
      (seeding : Store.seed declarations = .error (.namespaceAlreadyExists d.name))

/-- A declaration that is out of its place behind others in order is rejected alike. -/
theorem rejectedAlike_of_misplaced {fault : Misplacement} (h : InOrder before)
    (hd : Misplaced (declaredNames before) d.name fault) (rest : List Declaration) :
    RejectedAlike before d (before ++ d :: rest) := by
  have hvalidation := Config.checkNamespaces_of_first_misplaced h hd rest
  have hseeding := Store.seed_of_first_misplaced h hd rest
  cases hd with
  | orphan hp hmem => exact .orphan hp hmem hvalidation hseeding
  | repeated hmem hparents => exact .repeated hmem hparents hvalidation hseeding

namespace ControlPlane

/-! ## Starting -/

/-- There is a control plane for a valid configuration. -/
theorem ofConfig_of_valid (h : c.validate = .ok ()) :
    ∃ s, s.Holds c.namespaces ∧ ofConfig c = .ok ⟨s, .seed c.users, c.prompt⟩ := by
  obtain ⟨-, -, horder⟩ := Config.validate_eq_ok_iff.mp h
  obtain ⟨s, hs, hholds⟩ := Store.exists_seed_of_inOrder horder
  refine ⟨s, hholds, ?_⟩
  unfold ofConfig
  rw [h, hs]
  rfl

/-- There is none for any other, and the reason is that it is not valid. -/
theorem ofConfig_of_invalid {e : InvalidConfig} (h : c.validate = .error e) :
    ofConfig c = .error (.config e) := by
  unfold ofConfig
  rw [h]
  rfl

/-- There is a control plane exactly for a valid configuration. -/
theorem exists_ofConfig_iff : (∃ plane, ofConfig c = .ok plane) ↔ c.validate = .ok () := by
  constructor
  · rintro ⟨plane, hplane⟩
    cases hvalid : c.validate with
    | ok _ => rfl
    | error e =>
      rw [ofConfig_of_invalid hvalid] at hplane
      cases hplane
  · intro hvalid
    obtain ⟨s, -, hs⟩ := ofConfig_of_valid hvalid
    exact ⟨_, hs⟩

/-- A control plane has what its configuration says. -/
theorem exists_of_ofConfig (h : ofConfig c = .ok plane) :
    plane.namespaces.Holds c.namespaces ∧ plane.users = .seed c.users := by
  obtain ⟨s, hholds, hs⟩ := ofConfig_of_valid (exists_ofConfig_iff.mp ⟨plane, h⟩)
  rw [h] at hs
  obtain rfl := Except.ok.inj hs
  exact ⟨hholds, rfl⟩

/-! ## Sessions -/

/-- A session is opened for a known user. -/
theorem openSession_of_some {username : String} {user : User}
    (h : plane.users.users[username]? = some user) :
    plane.openSession username = .ok (.start user) := by
  unfold openSession UserStore.get
  rw [h]
  rfl

/-- No session is opened for anyone else. -/
theorem openSession_of_none {username : String} (h : plane.users.users[username]? = none) :
    plane.openSession username = .error (.userDoesNotExist username) := by
  unfold openSession UserStore.get
  rw [h]
  rfl

/-! ## Configurations and control planes -/

/-- **Seeding agrees with validation.** Declarations can be seeded exactly if they are valid, and
otherwise both stop at the same entry for the same reason. So seeding never fails when a control
plane starts, and there is a control plane exactly if the users have names, none of them twice, and
the declarations are in order. It holds the namespaces and the permissions that are declared, and
it opens a session for each configured user, who has the flag and the roles of the account, and for
nobody else. -/
theorem seeding_agrees_with_validation (declarations : List Declaration) (c : Config) :
    ((∃ s, Store.seed declarations = .ok s) ↔
      Config.checkNamespaces [] declarations = .ok ()) ∧
    (Config.checkNamespaces [] declarations = .ok () ∨
      ∃ before d after, declarations = before ++ d :: after ∧
        Config.checkNamespaces [] before = .ok () ∧ (∃ s, Store.seed before = .ok s) ∧
          ∀ rest, RejectedAlike before d (before ++ d :: rest)) ∧
    (∀ e, ofConfig c ≠ .error (.seed e)) ∧
    ((∃ plane, ofConfig c = .ok plane) ↔
      (∀ a ∈ c.users, a.username ≠ "") ∧ (c.users.map Account.username).Nodup ∧
        InOrder c.namespaces) ∧
    ∀ plane, ofConfig c = .ok plane →
      (∀ n, plane.namespaces.contains n = true ↔ n ∈ declaredNames c.namespaces) ∧
      (∀ n role permission, plane.namespaces.hasPermission n role permission = true ↔
        ∃ d ∈ c.namespaces, d.name = n ∧
          ∃ granted, d.grants[role]? = some granted ∧ permission ∈ granted) ∧
      (∀ username, username ∉ c.users.map Account.username →
        plane.openSession username = .error (.userDoesNotExist username)) ∧
      ∀ a ∈ c.users, ∃ session, plane.openSession a.username = .ok session ∧
        session.selected = none ∧ session.user.username = a.username ∧
          session.user.admin = a.admin ∧
            ∀ n role, role ∈ session.user.rolesIn n ↔
              ∃ held, a.roles[n]? = some held ∧ role ∈ held := by
  refine ⟨Store.exists_seed_iff.trans Config.checkNamespaces_eq_ok_iff.symm, ?_, ?_, ?_, ?_⟩
  · rcases exists_misplaced declarations with horder | ⟨before, d, after, fault, h, hbefore, hd⟩
    · exact Or.inl (Config.checkNamespaces_eq_ok_iff.mpr horder)
    · exact Or.inr ⟨before, d, after, h, Config.checkNamespaces_eq_ok_iff.mpr hbefore,
        Store.exists_seed_iff.mpr hbefore, rejectedAlike_of_misplaced hbefore hd⟩
  · intro e he
    cases hvalid : c.validate with
    | ok _ =>
      obtain ⟨s, -, hs⟩ := ofConfig_of_valid hvalid
      rw [hs] at he
      cases he
    | error reason =>
      rw [ofConfig_of_invalid hvalid] at he
      cases he
  · rw [exists_ofConfig_iff, Config.validate_eq_ok_iff]
  · intro plane hplane
    obtain ⟨hholds, husers⟩ := exists_of_ofConfig hplane
    obtain ⟨-, hnodup, -⟩ := Config.validate_eq_ok_iff.mp (exists_ofConfig_iff.mp ⟨plane, hplane⟩)
    refine ⟨hholds.contains_iff, hholds.hasPermission_iff, fun username hnone => ?_, fun a ha => ?_⟩
    · apply openSession_of_none
      rw [husers]
      exact UserStore.getElem?_seed_of_not_mem hnone
    · refine ⟨.start a.user, ?_, rfl, rfl, rfl, fun n role => mem_rolesIn_user⟩
      apply openSession_of_some
      rw [husers]
      exact UserStore.getElem?_seed_of_mem hnodup ha

end ControlPlane

end NamespaceControl
