import NamespaceControl.Name
import NamespaceControl.Permission

/-!
# Statements

What a line of input asks for. A statement is data only; what it does is said where it is
executed.
-/

namespace NamespaceControl.Command

/-- A statement of the command language. -/
inductive Statement where
  /-- Select a namespace. -/
  | useNamespace (target : Name)
  /-- Create a namespace. -/
  | createNamespace (target : Name)
  /-- Drop a namespace. -/
  | dropNamespace (target : Name)
  /-- List the namespaces. -/
  | showNamespaces
  deriving DecidableEq

namespace Statement

/-- The written form of a statement. -/
def text : Statement → String
  | useNamespace target => "USE " ++ target.text
  | createNamespace target => "CREATE NAMESPACE " ++ target.text
  | dropNamespace target => "DROP NAMESPACE " ++ target.text
  | showNamespaces => "SHOW NAMESPACES"

/-- The name of the kind of a statement. -/
def kind : Statement → String
  | useNamespace _ => "UseStatement"
  | createNamespace _ => "CreateNamespaceStatement"
  | dropNamespace _ => "DropNamespaceStatement"
  | showNamespaces => "ShowNamespacesStatement"

/-- The namespace that a statement is about, if it is about one. -/
def target? : Statement → Option Name
  | useNamespace target | createNamespace target | dropNamespace target => some target
  | showNamespaces => none

/-- True if a statement is about a root. -/
def isRoot (s : Statement) : Bool := s.target?.any Name.isRoot

/-- The permission that a statement asks of a user who is no admin. -/
def permission : Statement → Permission
  | useNamespace _ => .useNamespace
  | createNamespace _ => .createNamespace
  | dropNamespace _ => .dropNamespace
  | showNamespaces => .showNamespaces

end Statement

end NamespaceControl.Command
