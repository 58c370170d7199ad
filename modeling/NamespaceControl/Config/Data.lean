/-!
# Data trees

What a document of settings says, before it is known whether it fits the settings: texts, truth
values, lists and tables. Values of any other kind, such as numbers and dates, fit no setting, so
only that they are there is kept.
-/

namespace NamespaceControl

/-- How a table came about in its document. -/
inductive TableForm where
  /-- It is a value, closed where it is written. -/
  | inline
  /-- It has a header of its own. -/
  | header
  /-- It was only passed through by the header of a table below it. -/
  | implied
  /-- It was only passed through by a dotted key. -/
  | dotted
  deriving DecidableEq, Repr

/-- A tree of data. The entries of a table stand in the order in which they were made. -/
inductive Data where
  /-- A text. -/
  | text (s : String)
  /-- A truth value. -/
  | flag (b : Bool)
  /-- The explicit absence of a value. -/
  | null
  /-- A value of any other kind. -/
  | other
  /-- A list that is a value. -/
  | list (items : List Data)
  /-- A list of tables that have headers. -/
  | tables (elements : List (List (String × Data)))
  /-- A table. -/
  | table (form : TableForm) (entries : List (String × Data))
  deriving Inhabited

end NamespaceControl
