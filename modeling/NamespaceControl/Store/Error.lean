import NamespaceControl.Name

/-!
# Store errors

Why a store of namespaces or of users does not do what it is asked. One type serves both, and
also names faults of a store that is not reached at all.
-/

namespace NamespaceControl

/-- A reason for a store to refuse or to fail. -/
inductive StoreError where
  /-- The namespace has no record. -/
  | namespaceDoesNotExist (name : Name)
  /-- The namespace has a record already. -/
  | namespaceAlreadyExists (name : Name)
  /-- The namespace has children and they are to stay. -/
  | namespaceHasChildren (name : Name)
  /-- The one namespace is no child of the other. -/
  | notAChild (parent child : Name)
  /-- The namespace is not a root. -/
  | notARoot (name : Name)
  /-- The user is unknown. -/
  | userDoesNotExist (username : String)
  /-- Anything else. -/
  | store (text : String)
  deriving DecidableEq

/-- The wording of a store error. -/
def StoreError.message : StoreError → String
  | namespaceDoesNotExist name => "namespace '" ++ name.text ++ "' does not exist"
  | namespaceAlreadyExists name => "namespace '" ++ name.text ++ "' already exists"
  | namespaceHasChildren name => "namespace '" ++ name.text ++ "' still has child namespaces"
  | notAChild parent child =>
    "namespace '" ++ child.text ++ "' is not a direct child of '" ++ parent.text ++ "'"
  | notARoot name => "namespace '" ++ name.text ++ "' is not a root namespace"
  | userDoesNotExist username => "user '" ++ username ++ "' does not exist"
  | store text => "store error: " ++ text

end NamespaceControl
