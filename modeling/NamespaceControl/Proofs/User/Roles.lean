import NamespaceControl.Proofs.Config.Seeding
import NamespaceControl.Proofs.Execution.Visibility

/-!
# The roles of a user

A user is given roles one after the other, or all at once by an account. Both ways keep them in a
map from namespaces to sets of roles, and the maps need not be the same: that of an account has an
entry for every namespace it lists, also for one that is listed without roles. What can be asked of
a user does not tell this: which roles are held is the same however they were given
(`User.mem_rolesIn_of_made`), and nothing but them and the right to administrate shows
(`User.Alike`).
-/

namespace NamespaceControl

variable {n m : Name} {role given : String} {pairs : List (Name × String)}
  {held : Name → String → Prop} {admin : Bool}

/-- An account lists a role under a namespace. -/
def Account.Lists (a : Account) (n : Name) (role : String) : Prop :=
  ∃ listed, a.roles[n]? = some listed ∧ role ∈ listed

namespace User

variable {u v : User}

/-! ## Giving roles -/

/-- The user with some more roles, given one after the other. -/
def withRoles (u : User) (pairs : List (Name × String)) : User :=
  pairs.foldl (fun u (n, role) => u.withRole n role) u

/-- A role that is given is held from then on, and all others are held as before. -/
theorem mem_rolesIn_withRole :
    role ∈ (u.withRole m given).rolesIn n ↔ (n = m ∧ role = given) ∨ role ∈ u.rolesIn n := by
  simp only [rolesIn, withRole, Std.ExtTreeSet.mem_toList, Std.ExtTreeMap.getD_insert,
    Std.LawfulEqCmp.compare_eq_iff_eq]
  by_cases hm : m = n
  · subst hm
    simp [Std.ExtTreeSet.mem_insert, eq_comm (a := given)]
  · simp [hm, Ne.symm hm]

/-- Roles that are given one after the other are held from then on, in whatever order they come and
however often. -/
theorem mem_rolesIn_withRoles :
    role ∈ (u.withRoles pairs).rolesIn n ↔ (n, role) ∈ pairs ∨ role ∈ u.rolesIn n := by
  induction pairs generalizing u with
  | nil => simp [withRoles]
  | cons pair rest ih =>
    rw [withRoles, List.foldl_cons, ← withRoles, ih, mem_rolesIn_withRole, List.mem_cons,
      Prod.ext_iff, or_left_comm, or_assoc]

/-- Giving roles leaves the right to administrate. -/
theorem admin_withRoles (u : User) (pairs : List (Name × String)) :
    (u.withRoles pairs).admin = u.admin := by
  induction pairs generalizing u with
  | nil => rfl
  | cons pair rest ih => exact ih _

/-- The ways to make a user who holds some roles and no others. -/
inductive Made (held : Name → String → Prop) : Bool → User → Prop where
  /-- The roles are given to a user who has none, one after the other. -/
  | regular (username : String) (pairs : List (Name × String))
      (given_iff : ∀ n role, (n, role) ∈ pairs ↔ held n role) :
      Made held false ((User.regular username).withRoles pairs)
  /-- The roles are given to an administrator who has none, one after the other. -/
  | administrator (username : String) (pairs : List (Name × String))
      (given_iff : ∀ n role, (n, role) ∈ pairs ↔ held n role) :
      Made held true ((User.administrator username).withRoles pairs)
  /-- The roles are listed in an account, which may list one repeatedly, and a namespace without
  any. -/
  | account (a : Account) (lists_iff : ∀ n role, a.Lists n role ↔ held n role) :
      Made held a.admin a.user

/-- A user administrates as the way says in which the user is made. -/
theorem admin_of_made (h : u.Made held admin) : u.admin = admin := by
  cases h with
  | regular username pairs _ => exact admin_withRoles _ pairs
  | administrator username pairs _ => exact admin_withRoles _ pairs
  | account a _ => rfl

/-- A user holds the roles that were given, whichever way they were given. -/
theorem mem_rolesIn_of_made (h : u.Made held admin) : role ∈ u.rolesIn n ↔ held n role := by
  have hnone : ∀ username, role ∉ (User.regular username).rolesIn n ∧
      role ∉ (User.administrator username).rolesIn n := by
    intro username
    simp [rolesIn, User.regular, User.administrator]
  cases h with
  | regular username pairs given_iff =>
    rw [mem_rolesIn_withRoles, or_iff_left (hnone username).1, given_iff]
  | administrator username pairs given_iff =>
    rw [mem_rolesIn_withRoles, or_iff_left (hnone username).2, given_iff]
  | account a lists_iff => rw [mem_rolesIn_user, ← lists_iff, Account.Lists]

/-! ## Users who are alike -/

/-- The roles in a namespace are listed in strictly ascending order. -/
theorem ascending_rolesIn (u : User) (n : Name) :
    (u.rolesIn n).Pairwise fun a b => compare a b = .lt :=
  Std.ExtTreeSet.ordered_toList

/-- Users who hold the same roles list them in the same way. -/
theorem rolesIn_congr (h : ∀ role, role ∈ u.rolesIn n ↔ role ∈ v.rolesIn n) :
    u.rolesIn n = v.rolesIn n := by
  simp only [rolesIn, Std.ExtTreeSet.mem_toList] at h
  exact congrArg Std.ExtTreeSet.toList (Std.ExtTreeSet.ext_mem fun role => h role)

/-- Users who hold the same roles hold them in the same namespaces. -/
theorem namespaces_congr (h : ∀ n, u.rolesIn n = v.rolesIn n) : u.namespaces = v.namespaces := by
  refine Name.eq_of_ascending u.ascending_namespaces v.ascending_namespaces fun n => ?_
  rw [mem_namespaces_iff, mem_namespaces_iff, h]

/-- Users who are made to hold the same roles list them in the same way. -/
theorem rolesIn_eq_of_made {admin' : Bool} (hu : u.Made held admin) (hv : v.Made held admin')
    (n : Name) : u.rolesIn n = v.rolesIn n :=
  rolesIn_congr fun _ => (mem_rolesIn_of_made hu).trans (mem_rolesIn_of_made hv).symm

/-- Two users hold the same roles, and both administrate or neither does. -/
structure Alike (u v : User) : Prop where
  /-- Both are administrators or neither is. -/
  admin_eq : u.admin = v.admin
  /-- The same roles are held in every namespace. -/
  rolesIn_eq : ∀ n, u.rolesIn n = v.rolesIn n

/-- A user is alike the same user. -/
theorem Alike.refl (u : User) : u.Alike u := ⟨rfl, fun _ => rfl⟩

/-- Users who are made to hold the same roles are alike if both administrate or neither does. -/
theorem alike_of_made (hu : u.Made held admin) (hv : v.Made held admin) : u.Alike v where
  admin_eq := (admin_of_made hu).trans (admin_of_made hv).symm
  rolesIn_eq := rolesIn_eq_of_made hu hv

end User

end NamespaceControl
