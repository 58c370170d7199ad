import NamespaceControl.Config.Basic
import NamespaceControl.Config.Data

/-!
# Settings from data

Which data trees fit the settings of a configuration, and which configuration they give. Unknown
keys are passed over, and a setting that is missing has its default. A record may also be given as
the list of its fields in order, and a permission as a table whose one key is its token.

The notations for data differ in two details, so decoding takes them as a parameter.
-/

namespace NamespaceControl

/-! ## Shapes -/

/-- The details in which notations for data differ. -/
structure Dialect where
  /-- A record given as a list may have more items than fields; the rest is passed over. -/
  allowsExtraItems : Bool
  /-- The data that may stand under the token of a permission that is given as a table. -/
  isUnit : Data → Bool

namespace Dialect

/-- The details of JSON. -/
def json : Dialect where
  allowsExtraItems := false
  isUnit
    | .null => true
    | _ => false

/-- The details of TOML. -/
def toml : Dialect where
  allowsExtraItems := true
  isUnit
    | .table _ [] => true
    | _ => false

end Dialect

namespace Data

/-- A text. -/
def text? : Data → Option String
  | .text s => some s
  | _ => none

/-- A truth value. -/
def flag? : Data → Option Bool
  | .flag b => some b
  | _ => none

/-- The items of a list. -/
def items? : Data → Option (List Data)
  | .list items => some items
  | .tables elements => some (elements.map (.table .header))
  | _ => none

/-- A list whose items all fit. -/
def listOf? {α : Type} (item : Data → Option α) (d : Data) : Option (List α) := do
  (← d.items?).mapM item

/-- A table with arbitrary keys, all of which and all of whose values fit. -/
def mapOf? {α β : Type} [Ord α] [Std.TransOrd α] (key : String → Option α)
    (value : Data → Option β) : Data → Option (Std.ExtTreeMap α β)
  | .table _ entries =>
    entries.foldlM (fun m (k, v) => do return m.insert (← key k) (← value v)) ∅
  | _ => none

/-- The values of the fields of a record, by the names of the fields. -/
def record? (dialect : Dialect) (fields : List String) : Data → Option (String → Option Data)
  | .table _ entries => some fun field => entries.lookup field
  | .list items =>
    if dialect.allowsExtraItems || items.length ≤ fields.length then
      some fun field => (fields.zip items).lookup field
    else none
  | _ => none

/-- A field that may be missing. -/
def field? {α : Type} (default : α) (value : Data → Option α) : Option Data → Option α
  | none => some default
  | some d => value d

/-- The token and the data of a choice that is given as a table, which holds nothing else. -/
def choice? : Data → Option (String × Data)
  | .table _ [entry] => some entry
  | _ => none

end Data

/-! ## Settings -/

namespace Decoding

/-- A name. -/
def name? (d : Data) : Option Name := do (Name.parse (← d.text?)).toOption

/-- A permission, by its token or as a table. -/
def permission? (dialect : Dialect) : Data → Option Permission
  | .text s => Permission.ofToken? s
  | d => do
    let (token, payload) ← d.choice?
    if dialect.isUnit payload then Permission.ofToken? token else none

/-- An account. -/
def account? (dialect : Dialect) (d : Data) : Option Account := do
  let field ← d.record? dialect ["username", "admin", "roles"]
  return {
    username := ← (← field "username").text?
    admin := ← Data.field? false Data.flag? (field "admin")
    roles := ← Data.field? ∅
      (Data.mapOf? (fun k => (Name.parse k).toOption) (Data.listOf? Data.text?)) (field "roles") }

/-- A declaration. -/
def declaration? (dialect : Dialect) (d : Data) : Option Declaration := do
  let field ← d.record? dialect ["name", "grants"]
  return {
    name := ← name? (← field "name")
    grants := ← Data.field? ∅
      (Data.mapOf? some (Data.listOf? (permission? dialect))) (field "grants") }

/-- A configuration. -/
def config? (dialect : Dialect) (d : Data) : Option Config := do
  let field ← d.record? dialect ["log_level", "prompt", "users", "namespaces"]
  return {
    logLevel := ← Data.field? Config.default.logLevel Data.text? (field "log_level")
    prompt := ← Data.field? Config.default.prompt Data.text? (field "prompt")
    users := ← Data.field? Config.default.users (Data.listOf? (account? dialect)) (field "users")
    namespaces := ← Data.field? Config.default.namespaces
      (Data.listOf? (declaration? dialect)) (field "namespaces") }

end Decoding

end NamespaceControl
