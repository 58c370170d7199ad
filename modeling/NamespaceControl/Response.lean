import NamespaceControl.Text.Json

/-!
# Responses

The one reply that a statement gets, and its two written forms: lines of text, and one line of
JSON.
-/

namespace NamespaceControl

/-! ## Status -/

/-- How a statement turned out. -/
inductive Status where
  /-- It was done. -/
  | ok
  /-- The user may not do it. -/
  | unauthorized
  /-- A namespace it needs is not there. -/
  | namespaceDoesNotExist
  /-- The namespace to create is there already. -/
  | namespaceAlreadyExists
  /-- It is not a statement that can be run. -/
  | invalidStatementType
  /-- The store could not be read. -/
  | internalServerError
  /-- The namespace could not be created. -/
  | createNamespaceError
  /-- The namespace could not be dropped. -/
  | dropNamespaceError
  deriving DecidableEq, Repr

namespace Status

/-- Every status. -/
def all : List Status :=
  [ok, unauthorized, namespaceDoesNotExist, namespaceAlreadyExists, invalidStatementType,
    internalServerError, createNamespaceError, dropNamespaceError]

/-- The written form of a status. -/
def text : Status → String
  | ok => "OK"
  | unauthorized => "Unauthorized"
  | namespaceDoesNotExist => "NamespaceDoesNotExist"
  | namespaceAlreadyExists => "NamespaceAlreadyExists"
  | invalidStatementType => "InvalidStatementType"
  | internalServerError => "InternalServerError"
  | createNamespaceError => "CreateNamespaceError"
  | dropNamespaceError => "DropNamespaceError"

/-- The status that a text writes. -/
def ofText? (text : String) : Option Status := all.find? (·.text = text)

/-- The written form of a status reads back. -/
@[simp] theorem ofText?_text (s : Status) : ofText? s.text = some s := by
  cases s <;> rfl

end Status

/-! ## Responses -/

/-- The reply to a statement. -/
structure Response where
  /-- How the statement turned out. -/
  status : Status
  /-- More about it, or nothing. -/
  message : String
  /-- False if the statement was refused or failed. -/
  success : Bool
  /-- The listing that was asked for. -/
  rows : List String
  deriving DecidableEq, Repr

namespace Response

/-- A statement that went well. -/
def succeeded (status : Status) (message : String) : Response := ⟨status, message, true, []⟩

/-- A statement that was refused or failed. -/
def failed (status : Status) (message : String) : Response := ⟨status, message, false, []⟩

/-- A statement that was done and has nothing to say. -/
def ok : Response := succeeded .ok ""

/-- A listing. -/
def listing (rows : List String) : Response := { ok with rows := rows }

/-- The text of a response: the status, with the message behind it if there is one, and then a
line for each row. -/
def text (r : Response) : String :=
  r.status.text ++ (if r.message = "" then "" else ": " ++ r.message) ++
    String.join (r.rows.map ("\n" ++ ·))

/-- The line of JSON for a response; a listing without rows is left out. -/
def json (r : Response) : String :=
  Text.Json.object
    ([("status", Text.Json.quote r.status.text), ("message", Text.Json.quote r.message),
        ("success", Text.Json.boolean r.success)] ++
      if r.rows = [] then [] else [("rows", Text.Json.strings r.rows)])

end Response

end NamespaceControl
