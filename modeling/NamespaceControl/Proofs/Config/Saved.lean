import NamespaceControl.Proofs.Config.Settings
import NamespaceControl.Proofs.Toml.Lines

/-!
# A saved configuration is read back

The document that a configuration is saved as is read line by line (`readsLines_save`), its sections
make up the data that one would write down for the configuration (`parse_save_data`), and this data
gives the configuration again. So saving and loading is lossless (`load_save`).
-/

namespace NamespaceControl

open Toml (DocumentLine Element Entries ReadsLines ReadsValue Section depthLimit keys pairsOf
  readsValue_flag readsValue_text readsValue_texts withTables writePath writeText)

/-! ## Lines -/

namespace Config

/-- A table in a list of tables, with a table below it, is read as its sections if the lines below
the two headers are read as its entries. -/
theorem readsLines_element {key sub path : String} {own below : List Char} {e : Element}
    (hkey : key.toList = writePath [key]) (hpath : path.toList = writePath [key, sub])
    (hown : ReadsLines own ((pairsOf e.own).map .pair))
    (hbelow : ReadsLines below ((pairsOf e.below).map .pair)) :
    ReadsLines (elementHeader key ++ own ++ tableHeader path ++ below)
      ((e.sections key sub).flatMap Section.lines) := by
  have hheader : ReadsLines (elementHeader key) [.empty, .header (.element [key])] :=
    .elementHeader hkey (by simp) (by simp [depthLimit])
  have hheader' : ReadsLines (tableHeader path) [.empty, .header (.table [key, sub])] :=
    .tableHeader hpath (by simp) (by simp [depthLimit])
  have hall := ((hheader.append hown).append hheader').append hbelow
  simpa [Element.sections, Section.lines] using hall

/-- The tables for an account are read as its sections. -/
theorem readsLines_writeAccount (a : Account) :
    ReadsLines (writeAccount a) ((a.element.sections "users" "roles").flatMap Section.lines) := by
  have hown : ReadsLines
      (pairLine "username".toList (writeText a.username.toList) ++
        pairLine "admin".toList (writeFlag a.admin))
      ((pairsOf a.element.own).map .pair) :=
    (ReadsLines.pairLine "username" (readsValue_text _ a.username)).append
      (.pairLine "admin" (readsValue_flag _ a.admin))
  have hbelow : ReadsLines
      (a.roles.toList.flatMap fun e =>
        pairLine e.1.text.toList (writeTexts (e.2.map String.toList)))
      ((pairsOf a.element.below).map .pair) := by
    rw [pairsOf, Account.element, List.map_map, List.map_map]
    exact .map fun e => .pairLine e.1.text (readsValue_texts _ e.2)
  rw [writeAccount, List.append_assoc (elementHeader "users")]
  exact readsLines_element rfl rfl hown hbelow

/-- The tables for a declaration are read as its sections. -/
theorem readsLines_writeDeclaration (d : Declaration) :
    ReadsLines (writeDeclaration d)
      ((d.element.sections "namespaces" "grants").flatMap Section.lines) := by
  have hown : ReadsLines (pairLine "name".toList (writeText d.name.text.toList))
      ((pairsOf d.element.own).map .pair) :=
    .pairLine "name" (readsValue_text _ d.name.text)
  have htokens : ∀ permissions : List Permission,
      ReadsValue depthLimit (writeTexts (permissions.map fun p => p.token.toList))
        (Data.texts (permissions.map Permission.token)) := by
    intro permissions
    have hread := readsValue_texts 126 (permissions.map Permission.token)
    rwa [List.map_map] at hread
  have hbelow : ReadsLines
      (d.grants.toList.flatMap fun e =>
        pairLine e.1.toList (writeTexts (e.2.map fun p => p.token.toList)))
      ((pairsOf d.element.below).map .pair) := by
    rw [pairsOf, Declaration.element, List.map_map, List.map_map]
    exact .map fun e => .pairLine e.1 (htokens e.2)
  exact readsLines_element rfl rfl hown hbelow

/-- A list that is written as a value is read as one, and nothing is read as nothing. -/
theorem readsLines_emptyList {α : Type} (key : String) (items : List α) :
    ReadsLines (emptyList key items)
      ((pairsOf (if items = [] then [(key, .list [])] else [])).map .pair) := by
  cases items with
  | nil => exact .pairLine key (readsValue_texts _ [])
  | cons item items => exact .nil

/-- The sections of a configuration. -/
def sections (c : Config) : List Section :=
  c.users.flatMap (fun a => a.element.sections "users" "roles") ++
    c.namespaces.flatMap fun d => d.element.sections "namespaces" "grants"

/-- The document is read as the values of the configuration and its sections. -/
theorem readsLines_save (c : Config) :
    ReadsLines c.save.toList
      ((pairsOf c.ownEntries).map .pair ++ c.sections.flatMap Section.lines) := by
  have hlines : (pairsOf c.ownEntries).map DocumentLine.pair ++ c.sections.flatMap Section.lines =
      [.pair (["log_level"], .text c.logLevel)] ++ [.pair (["prompt"], .text c.prompt)] ++
        (pairsOf (if c.users = [] then [("users", .list [])] else [])).map .pair ++
        (pairsOf (if c.namespaces = [] then [("namespaces", .list [])] else [])).map .pair ++
        c.users.flatMap (fun a => (a.element.sections "users" "roles").flatMap Section.lines) ++
        c.namespaces.flatMap fun d =>
          (d.element.sections "namespaces" "grants").flatMap Section.lines := by
    simp [sections, ownEntries, pairsOf, List.flatMap_assoc]
  rw [hlines, save, String.toList_ofList]
  refine ReadsLines.append (.append (.append (.append (.append ?_ ?_) ?_) ?_) ?_) ?_
  · exact .pairLine "log_level" (readsValue_text _ c.logLevel)
  · exact .pairLine "prompt" (readsValue_text _ c.prompt)
  · exact readsLines_emptyList "users" c.users
  · exact readsLines_emptyList "namespaces" c.namespaces
  · exact .flatMap fun a _ => readsLines_writeAccount a
  · exact .flatMap fun d _ => readsLines_writeDeclaration d

/-! ## Tables -/

/-- The table for an account has no key twice. -/
theorem distinct_account (a : Account) : a.element.Distinct "roles" where
  own := by simp [Account.element, keys]
  below := by
    have hkeys : keys a.element.below = a.roles.keys.map Name.text := by
      rw [keys, Account.element, List.map_map, ← Std.ExtTreeMap.map_fst_toList_eq_keys,
        List.map_map]
      rfl
    rw [hkeys]
    exact Std.ExtTreeMap.nodup_keys.map fun _ _ => Name.text_injective
  sub := by simp [Account.element, keys]

/-- The table for a declaration has no key twice. -/
theorem distinct_declaration (d : Declaration) : d.element.Distinct "grants" where
  own := by simp [Declaration.element, keys]
  below := by
    have hkeys : keys d.element.below = d.grants.keys := by
      rw [keys, Declaration.element, List.map_map, ← Std.ExtTreeMap.map_fst_toList_eq_keys]
      rfl
    rw [hkeys]
    exact Std.ExtTreeMap.nodup_keys
  sub := by simp [Declaration.element, keys]

/-- The values of a configuration are a table without a key twice. -/
theorem nodup_keys_ownEntries (c : Config) : (keys c.ownEntries).Nodup := by
  unfold ownEntries
  split
  · split
    · simp [keys]
    · simp [keys]
  · split
    · simp [keys]
    · simp [keys]

/-- The sections of records make up a list of tables under a key, unless there are none. -/
theorem foldlM_flatMap_sections {α : Type} {front : Entries} {key sub : String}
    {element : α → Element} (h : ∀ a, (element a).Distinct sub) {items : List α}
    (hkey : items ≠ [] → key ∉ keys front) :
    (items.flatMap fun a => (element a).sections key sub).foldlM Section.addTo front =
      some (withTables front key (items.map fun a => (element a).toEntries sub)) := by
  by_cases hitems : items = []
  · subst hitems
    simp [withTables]
  · have helements : ∀ e ∈ items.map element, e.Distinct sub := by
      simpa using fun a _ => h a
    have hsections := Toml.foldlM_sections (hkey hitems) helements []
    rw [List.flatMap_map, List.nil_append, List.map_map] at hsections
    simpa [withTables, Function.comp_def] using hsections

/-- The sections of a configuration make up its entries. -/
theorem foldlM_sections (c : Config) :
    c.sections.foldlM Section.addTo c.ownEntries = some c.entries := by
  have husers : c.users ≠ [] → "users" ∉ keys c.ownEntries := by
    intro h
    by_cases hn : c.namespaces = []
    · simp [ownEntries, keys, h, hn]
    · simp [ownEntries, keys, h, hn]
  have hnamespaces : c.namespaces ≠ [] → "namespaces" ∉ keys (withTables c.ownEntries "users"
      (c.users.map fun a => a.element.toEntries "roles")) := by
    intro h
    by_cases hu : c.users = []
    · simp [withTables, ownEntries, keys, h, hu]
    · simp [withTables, ownEntries, keys, h, hu]
  rw [sections, List.foldlM_append, foldlM_flatMap_sections distinct_account husers]
  exact foldlM_flatMap_sections distinct_declaration hnamespaces

/-- The document of a configuration has its data. -/
theorem toml_parse_save (c : Config) : Toml.parse c.save = some (.table .header c.entries) := by
  have hmark : Toml.dropEncodingMark c.save.toList = c.save.toList := by
    rw [save, String.toList_ofList]
    rfl
  have hfill : Toml.fill .header [] (pairsOf c.ownEntries) = some c.ownEntries :=
    Toml.fill_pairsOf c.nodup_keys_ownEntries
  rw [Toml.parse, hmark, c.readsLines_save.lines?_eq]
  simp [Toml.sections_lines, hfill, foldlM_sections]

/-- **Saving and loading a configuration is lossless**, whatever its texts are, and whether or not it
has users, namespaces, roles and grants: nothing that is empty is taken for missing, so no default
comes in its place. -/
theorem load_save (c : Config) :
    parse c.save = some c ∧ load (some (Text.Utf8.encode c.save)) = .ok c := by
  have hparse : parse c.save = some c := by
    rw [parse, toml_parse_save]
    exact c.config?_entries
  refine ⟨hparse, ?_⟩
  simp [load, hparse]

end Config

end NamespaceControl
