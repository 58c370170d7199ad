import NamespaceControl.User

/-!
# Sessions

A session belongs to one user and remembers the namespace that was selected last. The selection
is not looked at again when that namespace is dropped.
-/

namespace NamespaceControl

/-- The state of a session. -/
structure Session where
  /-- Whose session it is. -/
  user : User
  /-- The namespace that is selected. -/
  selected : Option Name

namespace Session

/-- A new session, with nothing selected. -/
def start (u : User) : Session := ⟨u, none⟩

/-- The session with a namespace selected. -/
def select (s : Session) (n : Name) : Session := { s with selected := some n }

end Session

end NamespaceControl
