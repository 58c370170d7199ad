import NamespaceControl.Store.Error
import Std.Data.ExtTreeMap
import Std.Data.ExtTreeSet

/-!
# Users

A user holds roles, each in one namespace. Holding a role means nothing by itself: what it allows
is said by the grants made on that namespace. Administrators are not checked at all.
-/

namespace NamespaceControl

/-- A user account. -/
structure User where
  /-- The name of the user. -/
  username : String
  /-- True for an administrator. -/
  admin : Bool
  /-- The roles held in each namespace; a namespace may be listed without any. -/
  roles : Std.ExtTreeMap Name (Std.ExtTreeSet String)

namespace User

/-- A user without roles. -/
def regular (username : String) : User := ⟨username, false, ∅⟩

/-- An administrator without roles. -/
def administrator (username : String) : User := ⟨username, true, ∅⟩

/-- The user with one more role in a namespace. -/
def withRole (u : User) (n : Name) (role : String) : User :=
  { u with roles := u.roles.insert n ((u.roles.getD n ∅).insert role) }

/-- The namespaces in which the user holds a role, in ascending order. -/
def namespaces (u : User) : List Name :=
  (u.roles.toList.filter fun (_, held) => !held.isEmpty).map Prod.fst

/-- The roles held in exactly one namespace, in ascending order. -/
def rolesIn (u : User) (n : Name) : List String := (u.roles.getD n ∅).toList

end User

/-- The users that are known, by name. -/
structure UserStore where
  /-- The account of each user. -/
  users : Std.ExtTreeMap String User

namespace UserStore

/-- The store without users. -/
def empty : UserStore := ⟨∅⟩

/-- Add a user, or replace the one of that name. -/
def insert (s : UserStore) (u : User) : UserStore := ⟨s.users.insert u.username u⟩

/-- The user of a name. -/
def get (s : UserStore) (username : String) : Except StoreError User :=
  match s.users[username]? with
  | some u => .ok u
  | none => .error (.userDoesNotExist username)

end UserStore

end NamespaceControl
