import NamespaceControl.Config.Data

/-!
# Tables in TOML

How keys and headers make up tables. A key is defined once. A table that is only passed through,
on the way to one below it, is made on the way, and a header may still define it later, if it was
passed through by headers only. On a line of a document, a dotted key may go on only through tables
that no header defined; in an inline table, it may go on through any table. The way leads through
the last table of a list of tables, and never through any other value.
-/

namespace NamespaceControl.Toml

/-- The entries of a table, in the order in which they were made. -/
abbrev Entries := List (String × Data)

/-- The entries with the value under a key changed, or with a new last entry; nothing if the
change is not allowed. -/
def update (key : String) (f : Option Data → Option Data) : Entries → Option Entries
  | [] => (f none).map fun d => [(key, d)]
  | (k, d) :: rest =>
    if k = key then (f (some d)).map fun d' => (k, d') :: rest
    else (update key f rest).map ((k, d) :: ·)

/-- The entries with a new one, whose key must not be there yet. -/
def define (key : String) (d : Data) : Entries → Option Entries :=
  update key fun
    | none => some d
    | some _ => none

/-- What a path through tables is written as. -/
inductive Route where
  /-- A header. -/
  | header
  /-- A dotted key on a line of a document. -/
  | line
  /-- A dotted key in an inline table. -/
  | inline
  deriving DecidableEq, Repr

namespace Route

/-- The form of the tables that are made on the way. -/
def form : Route → TableForm
  | header => .implied
  | line => .dotted
  | inline => .dotted

/-- True if the way may lead through tables of a form. -/
def passes : Route → TableForm → Bool
  | header, reached => reached != .inline
  | line, reached => reached != .inline && reached != .header
  | inline, _ => true

/-- The way of a dotted key in a table of a form. -/
def ofKeyIn : TableForm → Route
  | .inline => inline
  | _ => line

end Route

/-- Change the entries of the table at the end of a path. The form of that table is handed on to
the change. -/
def reach (route : Route) (f : TableForm → Entries → Option Entries) :
    List String → TableForm → Entries → Option Entries
  | [], form, entries => f form entries
  | key :: path, _, entries =>
    entries |> update key fun
      | none => (reach route f path route.form []).map (.table route.form)
      | some (.table form inner) =>
        if route.passes form then (reach route f path form inner).map (.table form) else none
      | some (.tables elements) => do
        let last ← elements.getLast?
        let last' ← reach route f path .header last
        return .tables (elements.dropLast ++ [last'])
      | some _ => none

/-- Add a pair to a table. On a line of a document, a key with dots must end in a table that dotted
keys made. -/
def addPair (form : TableForm) (entries : Entries) (pair : List String × Data) :
    Option Entries := do
  let (path, d) := pair
  let key ← path.getLast?
  let passed := path.dropLast
  let route := Route.ofKeyIn form
  let change (reached : TableForm) (inner : Entries) : Option Entries :=
    if route = .line ∧ decide (reached = .dotted) = passed.isEmpty then none
    else define key d inner
  reach route change passed form entries

/-- Add pairs to a table. -/
def fill (form : TableForm) (entries : Entries) (pairs : List (List String × Data)) :
    Option Entries :=
  pairs.foldlM (addPair form) entries

/-- Define a table by a header and the pairs below it. What headers below it made already is
kept, and the table moves to the end. -/
def defineTable (pairs : List (List String × Data)) (path : List String) (root : Entries) :
    Option Entries := do
  let key ← path.getLast?
  let change (_ : TableForm) (entries : Entries) : Option Entries :=
    match entries.lookup key with
    | none => (fill .header [] pairs).map fun made => entries ++ [(key, .table .header made)]
    | some (.table .implied inner) =>
      (fill .header inner pairs).map fun made =>
        entries.filter (·.1 ≠ key) ++ [(key, .table .header made)]
    | some _ => none
  reach .header change path.dropLast .header root

/-- Define one more table in a list of tables by a header and the pairs below it. -/
def defineElement (pairs : List (List String × Data)) (path : List String) (root : Entries) :
    Option Entries := do
  let key ← path.getLast?
  let change (_ : TableForm) : Entries → Option Entries :=
    update key fun
      | none => (fill .header [] pairs).map fun made => .tables [made]
      | some (.tables elements) =>
        (fill .header [] pairs).map fun made => .tables (elements ++ [made])
      | some _ => none
  reach .header change path.dropLast .header root

end NamespaceControl.Toml
