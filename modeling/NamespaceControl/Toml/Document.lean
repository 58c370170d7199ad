import NamespaceControl.Toml.Syntax

/-!
# TOML documents

The tree of data that a document writes, if it is a document at all.
-/

namespace NamespaceControl.Toml

/-- Add a section to the root table. -/
def Section.addTo (root : Entries) (s : Section) : Option Entries :=
  match s.header with
  | .table path => defineTable s.pairs path root
  | .element path => defineElement s.pairs path root

/-- The text without the mark of its encoding, which may stand in front. -/
def dropEncodingMark : List Char → List Char
  | '\uFEFF' :: rest => rest
  | s => s

/-- The data that a document writes. -/
def parse (text : String) : Option Data := do
  let (pairs, more) := sections (← lines? (dropEncodingMark text.toList))
  let root ← fill .header [] pairs
  return .table .header (← more.foldlM Section.addTo root)

end NamespaceControl.Toml
