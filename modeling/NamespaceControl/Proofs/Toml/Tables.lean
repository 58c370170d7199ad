import Mathlib.Data.List.Nodup
import NamespaceControl.Toml.Document

/-!
# Tables from sections

Sections whose keys have one part and are not repeated make up the tables that they look like: the
pairs below a header are the entries of its table (`fill_pairsOf`), and a list of tables, each with
a table below it, is made up of one section after the other (`foldlM_sections`).
-/

namespace NamespaceControl.Toml

variable {key sub : String} {d : Data} {entries front more own below : Entries}
  {elements : List Entries}

/-! ## Entries -/

/-- The keys of a table. -/
def keys (entries : Entries) : List String := entries.map Prod.fst

/-- A change leaves the entries in front of the key as they are. -/
theorem update_append_of_not_mem (h : key ∉ keys front) (f : Option Data → Option Data)
    (more : Entries) : update key f (front ++ more) = (update key f more).map (front ++ ·) := by
  induction front with
  | nil => simp
  | cons entry front ih =>
    rw [keys, List.map_cons, List.mem_cons, not_or] at h
    rw [List.cons_append, update, if_neg (Ne.symm h.1), ih h.2, Option.map_map]
    rfl

/-- A change under a new key makes an entry at the end. -/
theorem update_of_not_mem (h : key ∉ keys entries) (f : Option Data → Option Data) :
    update key f entries = (f none).map fun d => entries ++ [(key, d)] := by
  have hupdate := update_append_of_not_mem h f []
  rw [List.append_nil, update, Option.map_map] at hupdate
  exact hupdate

/-- A key that is not there is not found. -/
theorem lookup_of_not_mem (h : key ∉ keys entries) : entries.lookup key = none := by
  rw [List.lookup_eq_none_iff]
  intro entry hentry
  have hne : key ≠ entry.1 := by
    rintro rfl
    exact h (List.mem_map_of_mem hentry)
  simpa using hne

/-- The pairs that the entries of a table are written as. -/
def pairsOf (entries : Entries) : List (List String × Data) := entries.map fun e => ([e.1], e.2)

/-- A pair whose key has one part is a new entry. -/
theorem addPair_of_not_mem (h : key ∉ keys entries) (d : Data) :
    addPair .header entries ([key], d) = some (entries ++ [(key, d)]) :=
  update_of_not_mem h _

/-- **Pairs without a repeated key fill a table with their entries.** -/
theorem fill_pairsOf (h : (keys (front ++ entries)).Nodup) :
    fill .header front (pairsOf entries) = some (front ++ entries) := by
  induction entries generalizing front with
  | nil =>
    rw [List.append_nil]
    rfl
  | cons entry entries ih =>
    have hkey : entry.1 ∉ keys front := by
      intro hmem
      rw [keys, List.map_append, List.map_cons] at h
      exact (List.disjoint_of_nodup_append h) hmem List.mem_cons_self
    have hsplit : front ++ entry :: entries = front ++ [entry] ++ entries := by simp
    have hmore := ih (hsplit ▸ h)
    rw [fill, pairsOf, List.map_cons, List.foldlM_cons, addPair_of_not_mem hkey, hsplit, ← hmore]
    rfl

/-! ## Lists of tables -/

/-- A table with a list of tables as its last entry, unless the list is empty. -/
def withTables (front : Entries) (key : String) (elements : List Entries) : Entries :=
  front ++ if elements = [] then [] else [(key, .tables elements)]

/-- A section with one more table in a list of tables puts the table at its end. -/
theorem addTo_element (hkey : key ∉ keys front) (hown : (keys own).Nodup)
    (elements : List Entries) :
    Section.addTo (withTables front key elements) ⟨.element [key], pairsOf own⟩ =
      some (withTables front key (elements ++ [own])) := by
  have hfill : fill .header [] (pairsOf own) = some own := fill_pairsOf (by simpa using hown)
  show update key _ (withTables front key elements) = _
  rw [withTables, update_append_of_not_mem hkey]
  by_cases helements : elements = []
  · subst helements
    simp [update, withTables, hfill]
  · simp [update, withTables, hfill, helements]

/-- A section with a table below a list of tables puts it into the last one. -/
theorem addTo_table (hkey : key ∉ keys front) (hsub : sub ∉ keys own) (hbelow : (keys below).Nodup)
    (elements : List Entries) :
    Section.addTo (withTables front key (elements ++ [own])) ⟨.table [key, sub], pairsOf below⟩ =
      some (withTables front key (elements ++ [own ++ [(sub, .table .header below)]])) := by
  have hfill : fill .header [] (pairsOf below) = some below := fill_pairsOf (by simpa using hbelow)
  show update key _ (withTables front key (elements ++ [own])) = _
  rw [withTables, update_append_of_not_mem hkey]
  simp [update, withTables, reach, lookup_of_not_mem hsub, hfill]

/-- A table in a list of tables, with a table below it. -/
structure Element where
  /-- The entries of the table itself. -/
  own : Entries
  /-- The entries of the table below it. -/
  below : Entries

namespace Element

/-- All the entries, with the table below under its key. -/
def toEntries (sub : String) (e : Element) : Entries := e.own ++ [(sub, .table .header e.below)]

/-- The sections that write the table. -/
def sections (key sub : String) (e : Element) : List Section :=
  [⟨.element [key], pairsOf e.own⟩, ⟨.table [key, sub], pairsOf e.below⟩]

/-- No key stands for two things. -/
structure Distinct (sub : String) (e : Element) : Prop where
  /-- The table has each key once. -/
  own : (keys e.own).Nodup
  /-- So has the table below. -/
  below : (keys e.below).Nodup
  /-- The table below has a key of its own. -/
  sub : sub ∉ keys e.own

end Element

/-- **The sections of a list of tables make up this list.** -/
theorem foldlM_sections (hkey : key ∉ keys front) {es : List Element}
    (h : ∀ e ∈ es, e.Distinct sub) (elements : List Entries) :
    (es.flatMap (Element.sections key sub)).foldlM Section.addTo (withTables front key elements) =
      some (withTables front key (elements ++ es.map (Element.toEntries sub))) := by
  induction es generalizing elements with
  | nil => simp
  | cons e es ih =>
    obtain ⟨he, hes⟩ := List.forall_mem_cons.mp h
    rw [List.flatMap_cons, Element.sections, List.cons_append, List.cons_append, List.nil_append,
      List.foldlM_cons, addTo_element hkey he.own]
    simp only [Option.bind_eq_bind, Option.bind_some]
    rw [List.foldlM_cons, addTo_table hkey he.sub he.below]
    simp only [Option.bind_eq_bind, Option.bind_some]
    rw [ih hes, List.append_assoc]
    rfl

end NamespaceControl.Toml
