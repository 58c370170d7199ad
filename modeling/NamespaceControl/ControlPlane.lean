import NamespaceControl.Config.Validation
import NamespaceControl.Console

/-!
# The control plane

The stores that all sessions share, and what a session needs to start. A control plane is made
from a valid configuration.
-/

namespace NamespaceControl

/-- The state that sessions share. -/
structure ControlPlane where
  /-- The namespaces. -/
  namespaces : Store
  /-- The users. -/
  users : UserStore
  /-- What a prompt begins with. -/
  prompt : String

/-- Why there is no control plane for a configuration. -/
inductive StartError where
  /-- The configuration is not valid. -/
  | config (reason : InvalidConfig)
  /-- A namespace cannot be inserted. -/
  | seed (reason : StoreError)
  deriving DecidableEq

/-- The wording of a start error. -/
def StartError.message : StartError → String
  | config reason => reason.message
  | seed reason => "failed to seed namespaces: " ++ reason.message

namespace ControlPlane

/-- The control plane for a configuration. -/
def ofConfig (c : Config) : Except StartError ControlPlane := do
  c.validate.mapError .config
  let namespaces ← (Store.seed c.namespaces).mapError .seed
  return ⟨namespaces, .seed c.users, c.prompt⟩

/-- A new session for a user. -/
def openSession (plane : ControlPlane) (username : String) : Except StoreError Session := do
  return .start (← plane.users.get username)

/-- A console with the prompt of the control plane. -/
def console (plane : ControlPlane) (showPrompt : Bool) (format : Format) : Console :=
  ⟨plane.prompt, showPrompt, format⟩

end ControlPlane

end NamespaceControl
