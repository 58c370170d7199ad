import NamespaceControl.Config.Decoding
import NamespaceControl.Proofs.Name.Text
import NamespaceControl.Proofs.Toml.Tables

/-!
# Settings are read back from their data

The tree of data that one would write down for a configuration (`Config.entries`) gives the
configuration again (`Config.config?_entries`), also if there are no users or no namespaces in it:
then the tree has an empty list, and nothing is missing for which there is a default.
-/

namespace NamespaceControl

open Toml (Element Entries withTables)

/-! ## Maps and lists -/

/-- A map is made up again from its entries in their order. -/
theorem ofList_toList {α β : Type} [DecidableEq α] [Ord α] [Std.TransOrd α] [Std.LawfulEqOrd α]
    (m : Std.ExtTreeMap α β) : Std.ExtTreeMap.ofList m.toList = m := by
  apply Std.ExtTreeMap.ext_getElem?
  intro k
  cases hk : m[k]? with
  | some v =>
    exact Std.ExtTreeMap.getElem?_ofList_of_mem Std.ReflCmp.compare_self
      Std.ExtTreeMap.distinct_keys_toList (Std.ExtTreeMap.mem_toList_iff_getElem?_eq_some.mpr hk)
  | none =>
    refine Std.ExtTreeMap.getElem?_ofList_of_contains_eq_false ?_
    rw [Std.ExtTreeMap.map_fst_toList_eq_keys]
    simpa using hk

namespace Data

variable {α β : Type}

/-- Items are read back from their data one by one. -/
theorem mapM_map {item : Data → Option α} {write : α → Data}
    (h : ∀ a, item (write a) = some a) (items : List α) :
    (items.map write).mapM item = some items := by
  induction items with
  | nil => rfl
  | cons a items ih =>
    rw [List.map_cons, List.mapM_cons, h, ih]
    rfl

/-- A map is read back from a table of its entries. -/
theorem mapOf?_toList [DecidableEq α] [Ord α] [Std.TransOrd α] [Std.LawfulEqOrd α]
    {key : String → Option α} {value : Data → Option β} {writeKey : α → String} {writeValue : β → Data}
    (hkey : ∀ a, key (writeKey a) = some a) (hvalue : ∀ b, value (writeValue b) = some b)
    (form : TableForm) (m : Std.ExtTreeMap α β) :
    mapOf? key value (.table form (m.toList.map fun (a, b) => (writeKey a, writeValue b))) =
      some m := by
  rw [mapOf?, List.foldlM_map]
  simp only [hkey, hvalue, Option.bind_eq_bind, Option.bind_some]
  rw [List.foldlM_pure, ← Std.ExtTreeMap.ofList_eq_foldl, ofList_toList]
  rfl

/-- A list of texts. -/
def texts (items : List String) : Data := .list (items.map .text)

/-- Texts are read back from their list. -/
theorem listOf?_texts (items : List String) : listOf? text? (texts items) = some items := by
  have hitem : ∀ item, text? (.text item) = some item := fun _ => rfl
  exact mapM_map hitem items

end Data

/-! ## Records -/

/-- The table for an account. -/
def Account.element (a : Account) : Element where
  own := [("username", .text a.username), ("admin", .flag a.admin)]
  below := a.roles.toList.map fun (n, roles) => (n.text, Data.texts roles)

/-- The table for a declaration. -/
def Declaration.element (d : Declaration) : Element where
  own := [("name", .text d.name.text)]
  below := d.grants.toList.map fun (role, permissions) =>
    (role, Data.texts (permissions.map Permission.token))

namespace Decoding

/-- An account is read back from its data. -/
theorem account?_element (a : Account) :
    account? .toml (.table .header (a.element.toEntries "roles")) = some a := by
  have hname : ∀ n : Name, (Name.parse n.text).toOption = some n :=
    fun n => congrArg Except.toOption n.parse_text
  have hroles : Data.mapOf? (fun k => (Name.parse k).toOption) (Data.listOf? Data.text?)
      (.table .header a.element.below) = some a.roles :=
    Data.mapOf?_toList hname Data.listOf?_texts .header a.roles
  have hentries : a.element.toEntries "roles" =
      [("username", .text a.username), ("admin", .flag a.admin),
        ("roles", .table .header a.element.below)] := rfl
  simp [account?, Data.record?, hentries, List.lookup_cons, Data.text?, Data.flag?, Data.field?,
    hroles]

/-- A permission is read back from its token. -/
theorem permission?_token (p : Permission) : permission? .toml (.text p.token) = some p :=
  p.ofToken?_token

/-- Permissions are read back from the list of their tokens. -/
theorem listOf?_permissions (permissions : List Permission) :
    Data.listOf? (permission? .toml) (Data.texts (permissions.map Permission.token)) =
      some permissions := by
  rw [Data.texts, List.map_map]
  exact Data.mapM_map permission?_token permissions

/-- A declaration is read back from its data. -/
theorem declaration?_element (d : Declaration) :
    declaration? .toml (.table .header (d.element.toEntries "grants")) = some d := by
  have hname : name? (.text d.name.text) = some d.name :=
    congrArg Except.toOption d.name.parse_text
  have hgrants : Data.mapOf? some (Data.listOf? (permission? .toml))
      (.table .header d.element.below) = some d.grants :=
    Data.mapOf?_toList (fun _ => rfl) listOf?_permissions .header d.grants
  have hentries : d.element.toEntries "grants" =
      [("name", .text d.name.text), ("grants", .table .header d.element.below)] := rfl
  simp [declaration?, Data.record?, hentries, List.lookup_cons, hname, Data.field?, hgrants]

end Decoding

namespace Config

/-- The entries of a configuration that are values. -/
def ownEntries (c : Config) : Entries :=
  [("log_level", .text c.logLevel), ("prompt", .text c.prompt)] ++
    (if c.users = [] then [("users", .list [])] else []) ++
    if c.namespaces = [] then [("namespaces", .list [])] else []

/-- The entries of a configuration. -/
def entries (c : Config) : Entries :=
  withTables
    (withTables c.ownEntries "users" (c.users.map fun a => a.element.toEntries "roles"))
    "namespaces" (c.namespaces.map fun d => d.element.toEntries "grants")

/-- Tables as a value under a key: a list that is empty is one that is written as a value. -/
def tablesData (elements : List Entries) : Data :=
  if elements = [] then .list [] else .tables elements

/-- Records are read back from their tables, however many there are. -/
theorem listOf?_tablesData {α : Type} {item : Data → Option α} {write : α → Entries}
    (h : ∀ a, item (.table .header (write a)) = some a) (items : List α) :
    Data.listOf? item (tablesData (items.map write)) = some items := by
  by_cases hitems : items = []
  · subst hitems
    rfl
  · have htables : tablesData (items.map write) = .tables (items.map write) :=
      if_neg (by simpa using hitems)
    rw [htables]
    show ((items.map write).map _).mapM item = some items
    rw [List.map_map]
    exact Data.mapM_map h items

/-- What stands under the keys of a configuration. -/
theorem lookup_entries (c : Config) :
    c.entries.lookup "log_level" = some (.text c.logLevel) ∧
    c.entries.lookup "prompt" = some (.text c.prompt) ∧
    c.entries.lookup "users" =
      some (tablesData (c.users.map fun a => a.element.toEntries "roles")) ∧
    c.entries.lookup "namespaces" =
      some (tablesData (c.namespaces.map fun d => d.element.toEntries "grants")) := by
  by_cases husers : c.users = []
  · by_cases hnamespaces : c.namespaces = []
    · simp [entries, ownEntries, withTables, tablesData, List.lookup_cons, husers, hnamespaces]
    · simp [entries, ownEntries, withTables, tablesData, List.lookup_cons, husers, hnamespaces]
  · by_cases hnamespaces : c.namespaces = []
    · simp [entries, ownEntries, withTables, tablesData, List.lookup_cons, husers, hnamespaces]
    · simp [entries, ownEntries, withTables, tablesData, List.lookup_cons, husers, hnamespaces]

/-- **A configuration is read back from its data.** -/
theorem config?_entries (c : Config) :
    Decoding.config? .toml (.table .header c.entries) = some c := by
  obtain ⟨hlevel, hprompt, husers, hnamespaces⟩ := c.lookup_entries
  have haccounts := listOf?_tablesData Decoding.account?_element c.users
  have hdeclarations := listOf?_tablesData Decoding.declaration?_element c.namespaces
  simp [Decoding.config?, Data.record?, Data.field?, Data.text?, hlevel, hprompt, husers,
    hnamespaces, haccounts, hdeclarations]

end Config

end NamespaceControl
