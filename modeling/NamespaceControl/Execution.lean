import NamespaceControl.Command.Statement
import NamespaceControl.Response
import NamespaceControl.Session
import NamespaceControl.Store.Basic

/-!
# Executing statements

A statement is run for a session on a store: it is decided whether the user may do what it asks
for, the store or the selection changes if so, and there is exactly one response. Administrators
pass every check. Everyone else is authorized by the roles held on the namespace that governs the
statement:

* to select a namespace needs any role on it;
* to create a child needs a role that is granted `create.namespace` on the parent, and only an
  administrator creates a root;
* to drop a namespace needs a role that is granted `drop.namespace` on it;
* a listing has the namespaces on which a role is granted `show.namespaces`.

The calls made to the store may fail. A fault script says which calls do, by their kind and their
number within the statement; a call that fails does not reach the store. The details of a fault
never show in a response.
-/

namespace NamespaceControl

open Command (Statement)

/-! ## Faults -/

/-- The kinds of calls that a statement makes to the store. Asking whether a namespace exists is
a call that gets it. -/
inductive StoreCall where
  /-- Get a namespace. -/
  | get
  /-- Create a root. -/
  | create
  /-- List the names. -/
  | list
  /-- Remove a namespace. -/
  | remove
  /-- Create a child. -/
  | createChild
  deriving DecidableEq, Repr

/-- A fault script: the error of the `k`-th call of a kind, counted from one, if that call fails. -/
abbrev Faults := StoreCall → Nat → Option StoreError

namespace Faults

/-- The script in which no call fails. -/
def none : Faults := fun _ _ => .none

/-- What the `k`-th call of a kind gives: its fault, or else the answer of the store. -/
def call {α : Type} (faults : Faults) (kind : StoreCall) (k : Nat) (answer : Except StoreError α) :
    Except StoreError α :=
  match faults kind k with
  | some e => .error e
  | .none => answer

/-- Without faults the store answers. -/
@[simp] theorem call_none {α : Type} (kind : StoreCall) (k : Nat) (answer : Except StoreError α) :
    none.call kind k answer = answer := rfl

end Faults

/-! ## Outcomes -/

/-- What running a statement leaves behind. -/
structure Execution where
  /-- The store after it. -/
  store : Store
  /-- The session after it. -/
  session : Session
  /-- The reply. -/
  response : Response

namespace Execution

/-- True if a role that the user holds on a namespace is granted a permission there. -/
def authorizes (store : Store) (user : User) (h : Handle) (permission : Permission) : Bool :=
  (user.rolesIn h).any fun role => store.hasPermission h role permission

/-- The reply when the store cannot be read. -/
def storeFault : Response := .failed .internalServerError "could not access namespace data"

/-- The reply when a namespace is not there. -/
def missing (n : Name) : Response := .failed .namespaceDoesNotExist n.text

/-- The reply when the namespace to create is there: nothing is left to do. -/
def alreadyExists (n : Name) : Response := .succeeded .namespaceAlreadyExists n.text

/-! ## Statements -/

/-- Select a namespace. -/
def useNamespace (faults : Faults) (store : Store) (session : Session) (target : Name) :
    Session × Response :=
  match faults.call .get 1 (store.get target) with
  | .error (.namespaceDoesNotExist _) => (session, missing target)
  | .error _ => (session, storeFault)
  | .ok _ =>
    if session.user.admin || session.user.namespaces.contains target then
      (session.select target, .ok)
    else (session, .failed .unauthorized "")

/-- Whether a namespace exists, from the answer to getting it. -/
def existence (answer : Except StoreError Handle) : Except StoreError Bool :=
  match answer with
  | .ok _ => .ok true
  | .error (.namespaceDoesNotExist _) => .ok false
  | .error e => .error e

/-- The reply when a namespace cannot be created for some other reason. -/
def notCreated (target : Name) : Response :=
  .failed .createNamespaceError ("could not create namespace '" ++ target.text ++ "'")

/-- Create a root that is not there yet. -/
def createRoot (faults : Faults) (store : Store) (user : User) (target : Name) :
    Store × Response :=
  if !user.admin then
    (store, .failed .unauthorized "root namespaces can only be created by an admin")
  else match faults.call .create 1 (store.create target) with
    | .ok store' => (store', .succeeded .ok "namespace created")
    | .error (.namespaceAlreadyExists _) => (store, alreadyExists target)
    | .error _ => (store, notCreated target)

/-- Create a namespace that is not there yet below its parent. -/
def createBelow (faults : Faults) (store : Store) (user : User) (parent target : Name) :
    Store × Response :=
  match faults.call .get 2 (store.get parent) with
  | .error (.namespaceDoesNotExist _) => (store, missing parent)
  | .error _ => (store, storeFault)
  | .ok h =>
    if !user.admin && !authorizes store user h .createNamespace then
      (store, .failed .unauthorized ("cannot create namespace '" ++ target.text ++ "'"))
    else match faults.call .createChild 1 (store.createChild h target) with
      | .ok store' => (store', .succeeded .ok "namespace created")
      | .error (.namespaceAlreadyExists _) => (store, alreadyExists target)
      | .error (.namespaceDoesNotExist absent) => (store, missing absent)
      | .error _ => (store, notCreated target)

/-- Create a namespace. -/
def createNamespace (faults : Faults) (store : Store) (user : User) (target : Name) :
    Store × Response :=
  match existence (faults.call .get 1 (store.get target)) with
  | .error _ => (store, storeFault)
  | .ok true => (store, alreadyExists target)
  | .ok false =>
    match target.parent? with
    | none => createRoot faults store user target
    | some parent => createBelow faults store user parent target

/-- Drop a namespace, which must have no children. -/
def dropNamespace (faults : Faults) (store : Store) (user : User) (target : Name) :
    Store × Response :=
  match faults.call .get 1 (store.get target) with
  | .error (.namespaceDoesNotExist _) => (store, missing target)
  | .error _ => (store, storeFault)
  | .ok h =>
    if !user.admin && !authorizes store user h .dropNamespace then
      (store, .failed .unauthorized ("cannot drop namespace '" ++ target.text ++ "'"))
    else match faults.call .remove 1 (store.remove target false) with
      | .ok store' => (store', .succeeded .ok "namespace dropped")
      | .error (.namespaceHasChildren _) =>
        (store, .failed .dropNamespaceError
          ("namespace '" ++ target.text ++ "' still has child namespaces"))
      | .error (.namespaceDoesNotExist _) => (store, missing target)
      | .error _ =>
        (store, .failed .dropNamespaceError ("could not drop namespace '" ++ target.text ++ "'"))

/-- The names that a user sees among the given ones, which are got one after the other from the
`k`-th call on; one that is not there is passed over. -/
def visible (faults : Faults) (store : Store) (user : User) (k : Nat) :
    List Name → Except StoreError (List Name)
  | [] => .ok []
  | n :: rest =>
    match faults.call .get k (store.get n) with
    | .error (.namespaceDoesNotExist _) => visible faults store user (k + 1) rest
    | .error e => .error e
    | .ok h =>
      (visible faults store user (k + 1) rest).map fun more =>
        if authorizes store user h .showNamespaces then n :: more else more

/-- List the namespaces: all of them for an administrator, and for anyone else those among the
namespaces in which a role is held that the user may see. -/
def showNamespaces (faults : Faults) (store : Store) (user : User) : Response :=
  let names :=
    if user.admin then faults.call .list 1 (.ok store.names)
    else visible faults store user 1 user.namespaces
  match names with
  | .ok names => .listing (names.map Name.text)
  | .error _ => storeFault

end Execution

/-- Run a statement for a session on a store whose calls may fail. -/
def execute (faults : Faults) (store : Store) (session : Session) (statement : Statement) :
    Execution :=
  match statement with
  | .useNamespace target =>
    let (session', response) := Execution.useNamespace faults store session target
    ⟨store, session', response⟩
  | .createNamespace target =>
    let (store', response) := Execution.createNamespace faults store session.user target
    ⟨store', session, response⟩
  | .dropNamespace target =>
    let (store', response) := Execution.dropNamespace faults store session.user target
    ⟨store', session, response⟩
  | .showNamespaces => ⟨store, session, Execution.showNamespaces faults store session.user⟩

/-- Run a statement and send its response to a sink, which keeps what it is sent. -/
def executeTo (sink : List Response) (faults : Faults) (store : Store) (session : Session)
    (statement : Statement) : Execution × List Response :=
  let done := execute faults store session statement
  (done, sink ++ [done.response])

end NamespaceControl
