import NamespaceControl.Config.Basic

/-!
# Valid configurations

A configuration is valid if its users have names, no two of them the same, and if every namespace
is declared once and after its parent. The first entry that breaks a rule is reported, users
before namespaces.
-/

namespace NamespaceControl

/-- A rule that a configuration breaks. -/
inductive InvalidConfig where
  /-- A user has no name. -/
  | emptyUsername
  /-- Two users have the same name. -/
  | duplicateUser (username : String)
  /-- The parent of a namespace is not declared before it. -/
  | undeclaredParent (name parent : Name)
  /-- A namespace is declared twice. -/
  | duplicateNamespace (name : Name)
  deriving DecidableEq

/-- The wording for a rule that is broken. -/
def InvalidConfig.reason : InvalidConfig → String
  | emptyUsername => "username must not be empty"
  | duplicateUser username => "duplicate user '" ++ username ++ "'"
  | undeclaredParent name parent =>
    "namespace '" ++ name.text ++ "' is declared before its parent '" ++ parent.text ++ "'"
  | duplicateNamespace name => "duplicate namespace '" ++ name.text ++ "'"

/-- The full message for a rule that is broken. -/
def InvalidConfig.message (e : InvalidConfig) : String := "Invalid configuration: " ++ e.reason

namespace Config

/-- Check the users, given the names that came before. -/
def checkUsers (seen : List String) : List Account → Except InvalidConfig Unit
  | [] => .ok ()
  | a :: rest =>
    if a.username = "" then .error .emptyUsername
    else if a.username ∈ seen then .error (.duplicateUser a.username)
    else checkUsers (a.username :: seen) rest

/-- Check the namespaces, given those that were declared before. -/
def checkNamespaces (declared : List Name) : List Declaration → Except InvalidConfig Unit
  | [] => .ok ()
  | d :: rest =>
    match d.name.parent?.filter (· ∉ declared) with
    | some parent => .error (.undeclaredParent d.name parent)
    | none =>
      if d.name ∈ declared then .error (.duplicateNamespace d.name)
      else checkNamespaces (d.name :: declared) rest

/-- Check a configuration. -/
def validate (c : Config) : Except InvalidConfig Unit := do
  checkUsers [] c.users
  checkNamespaces [] c.namespaces

end Config

end NamespaceControl
