import NamespaceControl.Config.Decoding
import NamespaceControl.Text.Utf8
import NamespaceControl.Toml.Document

/-!
# Saved configurations

The TOML document that a configuration is saved as, and the configuration that a document holds.
Lists of users and of namespaces are lists of tables; one that is empty is written as a value,
since a missing list of users would not be read as an empty one. Every table has a header, also if
it is empty, and a blank line stands before each header.
-/

namespace NamespaceControl

open Toml (writeKey writeText)

namespace Config

/-! ## Writing -/

/-- A key with a value that is written already. -/
def pairLine (key : List Char) (value : List Char) : List Char :=
  writeKey key ++ [' ', '=', ' '] ++ value ++ ['\n']

/-- A list of texts: one item to a line if there are several. -/
def writeTexts (items : List (List Char)) : List Char :=
  match items with
  | [] => ['[', ']']
  | [item] => '[' :: writeText item ++ [']']
  | _ =>
    let lines := items.flatMap fun item => [' ', ' ', ' ', ' '] ++ writeText item ++ [',', '\n']
    ['[', '\n'] ++ lines ++ [']']

/-- The header of a table. -/
def tableHeader (path : String) : List Char := ("\n[" ++ path ++ "]\n").toList

/-- The header of one more table in a list of tables. -/
def elementHeader (path : String) : List Char := ("\n[[" ++ path ++ "]]\n").toList

/-- A truth value. -/
def writeFlag (b : Bool) : List Char := (if b then "true" else "false").toList

/-- The tables for an account. -/
def writeAccount (a : Account) : List Char :=
  elementHeader "users" ++
    pairLine "username".toList (writeText a.username.toList) ++
    pairLine "admin".toList (writeFlag a.admin) ++
    tableHeader "users.roles" ++
    a.roles.toList.flatMap fun (n, roles) =>
      pairLine n.text.toList (writeTexts (roles.map String.toList))

/-- The tables for a declaration. -/
def writeDeclaration (d : Declaration) : List Char :=
  elementHeader "namespaces" ++
    pairLine "name".toList (writeText d.name.text.toList) ++
    tableHeader "namespaces.grants" ++
    d.grants.toList.flatMap fun (role, permissions) =>
      pairLine role.toList (writeTexts (permissions.map fun p => p.token.toList))

/-- A list that is written as a value because it is empty. -/
def emptyList {α : Type} (key : String) (items : List α) : List Char :=
  if items.isEmpty then pairLine key.toList (writeTexts []) else []

/-- The document that a configuration is saved as. -/
def save (c : Config) : String :=
  String.ofList <|
    pairLine "log_level".toList (writeText c.logLevel.toList) ++
    pairLine "prompt".toList (writeText c.prompt.toList) ++
    emptyList "users" c.users ++
    emptyList "namespaces" c.namespaces ++
    c.users.flatMap writeAccount ++
    c.namespaces.flatMap writeDeclaration

/-! ## Reading -/

/-- The configuration that a document holds, if it is a document and fits. -/
def parse (text : String) : Option Config := do
  Decoding.config? .toml (← Toml.parse text)

/-- Why a file does not give a configuration. -/
inductive LoadError where
  /-- There is no such file. -/
  | notFound
  /-- The file is not UTF-8. -/
  | notUtf8
  /-- The text is no document, or does not fit. -/
  | malformed
  deriving DecidableEq, Repr

/-- The configuration that a file holds, given its bytes, if there is such a file. -/
def load : Option (List UInt8) → Except LoadError Config
  | none => .error .notFound
  | some bytes =>
    match Text.Utf8.decode? bytes with
    | none => .error .notUtf8
    | some text =>
      match parse text with
      | some c => .ok c
      | none => .error .malformed

end Config

end NamespaceControl
