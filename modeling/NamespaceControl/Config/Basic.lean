import NamespaceControl.Store.Basic
import NamespaceControl.User

/-!
# Configurations

What a control plane starts with: how much it logs, its prompt, its users, and its namespaces with
parents before children. Stores are seeded from it.
-/

namespace NamespaceControl

/-- A user account to start with. -/
structure Account where
  /-- The name of the user. -/
  username : String
  /-- True for an administrator. -/
  admin : Bool
  /-- The roles of the user, by namespace. -/
  roles : Std.ExtTreeMap Name (List String)
  deriving DecidableEq

/-- A namespace to start with. -/
structure Declaration where
  /-- The name of the namespace. -/
  name : Name
  /-- The permissions granted on it, by role. -/
  grants : Std.ExtTreeMap String (List Permission)
  deriving DecidableEq

/-- A configuration. -/
structure Config where
  /-- What to log. -/
  logLevel : String
  /-- What a prompt begins with. -/
  prompt : String
  /-- The users. -/
  users : List Account
  /-- The namespaces, parents before children. -/
  namespaces : List Declaration
  deriving DecidableEq

/-! ## Defaults and overrides -/

/-- The account that is there unless users are configured. -/
def Account.default : Account := ⟨"admin", true, ∅⟩

namespace Config

/-- The configuration when nothing is configured. -/
def default : Config := ⟨"info", "tessera", [Account.default], []⟩

/-- The variable that overrides what to log. -/
def logLevelVariable : String := "TESSERA_LOG_LEVEL"

/-- The variable that overrides the prompt. -/
def promptVariable : String := "TESSERA_PROMPT"

/-- The configuration with the overrides that an environment holds. -/
def override (c : Config) (lookup : String → Option String) : Config :=
  { c with
    logLevel := (lookup logLevelVariable).getD c.logLevel
    prompt := (lookup promptVariable).getD c.prompt }

end Config

/-! ## Seeding -/

/-- The user that an account describes. -/
def Account.user (a : Account) : User :=
  ⟨a.username, a.admin, a.roles.map fun _ roles => Std.ExtTreeSet.ofList roles⟩

/-- The grants of a declaration, one by one. -/
def Declaration.grantList (d : Declaration) : List Grant :=
  d.grants.toList.flatMap fun (role, permissions) => permissions.map (⟨role, ·⟩)

/-- The store with the given namespaces, inserted in their order. -/
def Store.seed (declarations : List Declaration) : Except StoreError Store :=
  declarations.foldlM (fun s d => s.insert d.name d.grantList) .empty

/-- The store with the given users; of two accounts with one name the later counts. -/
def UserStore.seed (accounts : List Account) : UserStore :=
  accounts.foldl (fun s a => s.insert a.user) .empty

end NamespaceControl
