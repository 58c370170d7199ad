import NamespaceControl.Proofs.Execution.Effect

/-!
# Stores that operations lead to

A store is reached from the empty one by operations of every kind, one after the other: those of
the store itself, through handles that may have outlived what they were made for, and statements
that sessions run while calls fail. An operation that fails leaves the store as it is. Every store
that is reached in this way is a tree: its child sets and its names say the same.
-/

namespace NamespaceControl

open Command (Statement)

/-! ## Operations -/

/-- What can be asked of a store. -/
inductive Operation where
  /-- Create a root. -/
  | create (n : Name)
  /-- Create a child through a handle, which may be one to a namespace that is gone, or that was
  removed and made again. -/
  | createChild (h : Handle) (child : Name)
  /-- Create a namespace with grants. -/
  | insert (n : Name) (grants : List Grant)
  /-- Create a namespace that is given as a text, with grants. -/
  | withNamespace (text : String) (grants : List Grant)
  /-- Start anew with the namespaces that a configuration declares. -/
  | seed (declarations : List Declaration)
  /-- Make a grant. -/
  | grant (n : Name) (g : Grant)
  /-- Remove a namespace. -/
  | remove (n : Name) (cascade : Bool)
  /-- Run a statement for a session, while calls fail. -/
  | execute (faults : Faults) (session : Session) (statement : Statement)

namespace Operation

/-- The store after an operation, or the reason why it fails. -/
def result (s : Store) : Operation → Except StoreError Store
  | create n => s.create n
  | createChild h child => s.createChild h child
  | insert n grants => s.insert n grants
  | withNamespace text grants => s.withNamespace text grants
  | seed declarations => Store.seed declarations
  | grant n g => s.grant n g
  | remove n cascade => s.remove n cascade
  | execute faults session statement =>
    .ok (NamespaceControl.execute faults s session statement).store

end Operation

namespace Store

/-- The store after an operation; one that fails changes nothing. -/
def after (s : Store) (o : Operation) : Store :=
  match o.result s with
  | .ok s' => s'
  | .error _ => s

/-- The store after some operations. -/
def afterAll (s : Store) (operations : List Operation) : Store := operations.foldl after s

/-- A store that operations lead to from the empty one. -/
def Reachable (s : Store) : Prop := ∃ operations, empty.afterAll operations = s

variable {s s' : Store}

/-- An operation that succeeds keeps a tree a tree. -/
theorem isTree_result {o : Operation} (hs : s.IsTree) (h : o.result s = .ok s') : s'.IsTree := by
  cases o with
  | create n => exact (grows_of_create h).2.isTree hs
  | createChild handle child => exact (grows_of_createChild h).2.isTree hs
  | insert n grants => exact isTree_insert hs h
  | withNamespace text grants => exact isTree_withNamespace hs h
  | seed declarations => exact isTree_seed h
  | grant n g => exact (gainsGrant_of_grant h).isTree hs
  | remove n cascade => exact (prunes_of_remove hs h).1.isTree hs
  | execute faults session statement =>
    obtain rfl := Except.ok.inj h
    exact (Execution.outcome_execute hs faults session statement).isTree hs

/-- An operation keeps a tree a tree, whether it succeeds or not. -/
theorem IsTree.after (hs : s.IsTree) (o : Operation) : (s.after o).IsTree := by
  unfold Store.after
  split
  · next s' h => exact isTree_result hs h
  · exact hs

/-- Operations keep a tree a tree. -/
theorem IsTree.afterAll (hs : s.IsTree) (operations : List Operation) :
    (s.afterAll operations).IsTree := by
  induction operations generalizing s with
  | nil => exact hs
  | cons o operations ih => exact ih (hs.after o)

/-- A store that is reached is a tree. -/
theorem Reachable.isTree (h : s.Reachable) : s.IsTree := by
  obtain ⟨operations, rfl⟩ := h
  exact isTree_empty.afterAll operations

/-- **The child sets and the names agree.** Whatever is done to a store that was empty, a
namespace is listed by another exactly if both exist and the other is its parent, and every
namespace that exists is a root or has a parent that exists. -/
theorem mem_children_afterAll_iff (operations : List Operation) :
    (∀ p c, c ∈ (empty.afterAll operations).children p ↔
      (empty.afterAll operations).contains p = true ∧
        (empty.afterAll operations).contains c = true ∧ c.parent? = some p) ∧
    (∀ n, (empty.afterAll operations).contains n = true → n.isRoot = false →
      ∃ p, n.parent? = some p ∧ (empty.afterAll operations).contains p = true) := by
  have htree : (empty.afterAll operations).IsTree := isTree_empty.afterAll operations
  constructor
  · intro p c
    constructor
    · intro hc
      obtain ⟨hcontains, hparent⟩ := (htree p c).mp hc
      exact ⟨contains_of_mem_children hc, hcontains, hparent⟩
    · rintro ⟨-, hcontains, hparent⟩
      exact (htree p c).mpr ⟨hcontains, hparent⟩
  · intro n hn hroot
    obtain ⟨p, hp⟩ := Name.exists_parent?_of_not_isRoot hroot
    exact ⟨p, hp, htree.contains_parent hn hp⟩

end Store

end NamespaceControl
