import NamespaceControl.Proofs.Config.Seeding
import NamespaceControl.Proofs.Name.Order
import NamespaceControl.Proofs.Store.Listing
import NamespaceControl.Proofs.Store.Reachable

/-!
# Seeding a store with what another one lists

A store lists its names in the order of their texts, and in a tree each name has its parent before
it (`Store.IsTree.parent_mem_of_names`). So what a store lists can be declared in that order,
whatever is granted on it, and seeds a store with the same namespaces and the same child sets.
-/

namespace NamespaceControl

namespace Store

variable {s : Store} {n p : Name} {before after : List Name} {declarations : List Declaration}

/-- In a tree every namespace is listed behind its parent. -/
theorem IsTree.parent_mem_of_names (hs : s.IsTree) (hsplit : s.names = before ++ n :: after)
    (hp : n.parent? = some p) : p ∈ before := by
  have hn : s.contains n = true := mem_names.mp (by simp [hsplit])
  have hlisted : p ∈ before ++ n :: after := by
    rw [← hsplit]
    exact mem_names.mpr (hs.contains_parent hn hp)
  rcases List.mem_append.mp hlisted with hbefore | hrest
  · exact hbefore
  exfalso
  rcases List.mem_cons.mp hrest with rfl | hafter
  · exact Name.parent?_ne_self hp
  · have hascending := s.ascending_names
    rw [hsplit] at hascending
    have hlt : compare n p = .lt :=
      (List.pairwise_cons.mp (List.pairwise_append.mp hascending).2.1).1 p hafter
    exact Name.not_covers_of_lt hlt (Name.covers_of_parent? hp)

/-- What a tree lists can be declared in the same order. -/
theorem IsTree.inOrder (hs : s.IsTree) (hnames : declaredNames declarations = s.names) :
    InOrder declarations where
  nodup := by
    rw [hnames]
    exact Name.nodup_of_ascending s.ascending_names
  parent_mem before d after hsplit p hp := by
    have hlisted : s.names = declaredNames before ++ d.name :: declaredNames after := by
      rw [← hnames, hsplit, declaredNames, List.map_append, List.map_cons]
      rfl
    exact hs.parent_mem_of_names hlisted hp

/-- What a tree lists seeds a store with the same namespaces and the same child sets. -/
theorem IsTree.exists_seed (hs : s.IsTree) (hnames : declaredNames declarations = s.names) :
    ∃ s', Store.seed declarations = .ok s' ∧ s'.names = s.names ∧
      ∀ n, s'.children n = s.children n := by
  obtain ⟨s', hseed, hholds⟩ := exists_seed_of_inOrder (hs.inOrder hnames)
  have hcontains : ∀ n, s'.contains n = s.contains n := by
    intro n
    rw [Bool.eq_iff_iff, hholds.contains_iff, hnames, mem_names]
  exact ⟨s', hseed, names_congr hcontains,
    fun n => (isTree_seed hseed).children_congr hs hcontains n⟩

/-- **Names are listed in the order of their texts, parents first, and can be seeded again.** Names
are compared as the bytes of their texts are. A store that is reached lists each of its namespaces
once, in strictly ascending order and behind its parent. Declared in this order, with any grants,
they are valid, and seed a store with the same namespaces and the same child sets. -/
theorem listing_reseeds (s : Store) (hs : s.Reachable) :
    (∀ a b : Name,
      compare a b = compare (Text.Utf8.encode a.text) (Text.Utf8.encode b.text)) ∧
    (∀ n, n ∈ s.names ↔ s.contains n = true) ∧ s.names.Nodup ∧
    s.names.Pairwise (fun a b => compare a b = .lt) ∧
    (∀ before n after, s.names = before ++ n :: after →
      ∀ p, n.parent? = some p → p ∈ before) ∧
    ∀ declarations, declaredNames declarations = s.names →
      Config.checkNamespaces [] declarations = .ok () ∧
      ∃ s', Store.seed declarations = .ok s' ∧ s'.names = s.names ∧
        ∀ n, s'.children n = s.children n := by
  have htree := hs.isTree
  exact ⟨Name.compare_eq_compare_encode, fun n => mem_names,
    Name.nodup_of_ascending s.ascending_names, s.ascending_names,
    fun before n after hsplit p hp => htree.parent_mem_of_names hsplit hp,
    fun declarations hnames => ⟨Config.checkNamespaces_eq_ok_iff.mpr (htree.inOrder hnames),
      htree.exists_seed hnames⟩⟩

/-- The child of a root comes before a root whose text goes on where that of the first one ends, and
what is listed seeds a store again. -/
theorem listing_reseeds_roots :
    let acme : Name := ⟨["acme"], by decide, by decide⟩
    let zoo : Name := ⟨["acme", "zoo"], by decide, by decide⟩
    let acmes : Name := ⟨["acmes"], by decide, by decide⟩
    let s := Store.empty.afterAll [.create acmes, .create acme, .createChild acme zoo]
    s.Reachable ∧ s.names = [acme, zoo, acmes] ∧
      ∃ s', Store.seed [⟨acme, ∅⟩, ⟨zoo, ∅⟩, ⟨acmes, ∅⟩] = .ok s' ∧
        s'.names = [acme, zoo, acmes] := by
  intro acme zoo acmes s
  have hreachable : s.Reachable := ⟨_, rfl⟩
  obtain ⟨-, -, -, -, -, hdeclared⟩ := listing_reseeds s hreachable
  have hnames : s.names = [acme, zoo, acmes] := by decide
  obtain ⟨-, s', hseed, hsame, -⟩ :=
    hdeclared [⟨acme, ∅⟩, ⟨zoo, ∅⟩, ⟨acmes, ∅⟩] hnames.symm
  exact ⟨hreachable, hnames, s', hseed, hsame.trans hnames⟩

end Store

end NamespaceControl
