/-!
# Permissions

What a role can be granted on a namespace. Each permission has a dotted token by which
configurations and requests name it.
-/

namespace NamespaceControl

/-- A permission on a namespace. -/
inductive Permission where
  /-- To select the namespace. -/
  | useNamespace
  /-- To create a child of the namespace. -/
  | createNamespace
  /-- To drop the namespace. -/
  | dropNamespace
  /-- To see the namespace in a listing. -/
  | showNamespaces
  deriving DecidableEq, Repr

namespace Permission

/-- Every permission. -/
def all : List Permission := [useNamespace, createNamespace, dropNamespace, showNamespaces]

/-- The token of a permission. -/
def token : Permission → String
  | useNamespace => "use.namespace"
  | createNamespace => "create.namespace"
  | dropNamespace => "drop.namespace"
  | showNamespaces => "show.namespaces"

/-- The permission that a token names. -/
def ofToken? (text : String) : Option Permission := all.find? (·.token = text)

/-- The wording for a text that is no permission's token. -/
def unknownMessage (text : String) : String := "unknown permission '" ++ text ++ "'"

/-- Permissions are ordered as they are listed. -/
instance : Ord Permission := ⟨compareOn Permission.ctorIdx⟩

instance : Std.TransOrd Permission := inferInstanceAs (Std.TransCmp (compareOn Permission.ctorIdx))

instance : Std.LawfulEqOrd Permission where
  compare_self {a} := by cases a <;> decide
  eq_of_compare {a b} := by cases a <;> cases b <;> decide

/-- A token names exactly its permission. -/
@[simp] theorem ofToken?_token (p : Permission) : ofToken? p.token = some p := by
  cases p <;> rfl

end Permission

end NamespaceControl
