import NamespaceControl.Permission
import NamespaceControl.Store.Error
import Std.Data.ExtTreeMap
import Std.Data.ExtTreeSet

/-!
# The namespace store

A store holds one record for each namespace: the permissions that roles were granted on it, and
the names of its children. The child sets repeat what the names say already, and every operation
that adds or removes a record keeps them in step. Every operation is a function that gives the
changed store or the reason why it does not change.

Records are kept in maps and sets with extensional equality, so that two stores with the same
contents are equal, whatever their histories.
-/

namespace NamespaceControl

/-! ## Records -/

/-- That a role has a permission. -/
structure Grant where
  /-- The role. -/
  role : String
  /-- The permission it is granted. -/
  permission : Permission
  deriving DecidableEq

/-- Grants are ordered by role and then by permission. -/
instance : Ord Grant := ⟨compareLex (compareOn Grant.role) (compareOn Grant.permission)⟩

instance : Std.TransOrd Grant :=
  inferInstanceAs (Std.TransCmp (compareLex (compareOn Grant.role) (compareOn Grant.permission)))

instance : Std.LawfulEqOrd Grant where
  compare_self {a} :=
    (Std.ReflCmp.compare_self :
      compareLex (compareOn Grant.role) (compareOn Grant.permission) a a = .eq)
  eq_of_compare {a b} h := by
    obtain ⟨role, permission⟩ := a
    obtain ⟨role', permission'⟩ := b
    have h' : (compare role role').then (compare permission permission') = .eq := h
    rw [Ordering.then_eq_eq] at h'
    rw [Std.LawfulEqCmp.eq_of_compare h'.1, Std.LawfulEqCmp.eq_of_compare h'.2]

/-- What a store holds about one namespace. -/
structure Record where
  /-- The grants made on the namespace. -/
  grants : Std.ExtTreeSet Grant
  /-- The names of the children. -/
  children : Std.ExtTreeSet Name

namespace Record

/-- The record of a new namespace. -/
def empty : Record := ⟨∅, ∅⟩

/-- The record with one more grant. -/
def addGrant (r : Record) (g : Grant) : Record := { r with grants := r.grants.insert g }

/-- The record with one more child. -/
def addChild (r : Record) (child : Name) : Record :=
  { r with children := r.children.insert child }

/-- The record without a child. -/
def forgetChild (r : Record) (child : Name) : Record :=
  { r with children := r.children.erase child }

end Record

/-! ## Stores -/

/-- The records of all namespaces. -/
structure Store where
  /-- The record of each namespace that exists. -/
  records : Std.ExtTreeMap Name Record

/-- A handle to a namespace is no more than its name: it reads whatever record a store holds
under that name when it is used, and it may outlive the record it was made for. -/
abbrev Handle := Name

namespace Store

/-- The store without namespaces. -/
def empty : Store := ⟨∅⟩

/-! ### Reading -/

/-- The record of a namespace. -/
def record? (s : Store) (n : Name) : Option Record := s.records[n]?

/-- True if the namespace has a record. -/
def contains (s : Store) (n : Name) : Bool := s.records.contains n

/-- The number of namespaces. -/
def size (s : Store) : Nat := s.records.size

/-- True if there is no namespace. -/
def isEmpty (s : Store) : Bool := s.records.isEmpty

/-- The names of all namespaces, in ascending order. -/
def names (s : Store) : List Name := s.records.keys

/-- The names of the children of a namespace, in ascending order. -/
def children (s : Store) (h : Handle) : List Name :=
  match s.record? h with
  | some r => r.children.toList
  | none => []

/-- True if a role is granted a permission on a namespace. -/
def hasPermission (s : Store) (h : Handle) (role : String) (permission : Permission) : Bool :=
  match s.record? h with
  | some r => r.grants.contains ⟨role, permission⟩
  | none => false

/-- A handle to a namespace that exists. -/
def get (s : Store) (n : Name) : Except StoreError Handle :=
  if s.contains n then .ok n else .error (.namespaceDoesNotExist n)

/-! ### Changing -/

/-- The store with a new record for a namespace. -/
def add (s : Store) (n : Name) : Store := ⟨s.records.insert n .empty⟩

/-- The store without the record of a namespace. -/
def erase (s : Store) (n : Name) : Store := ⟨s.records.erase n⟩

/-- The store with a changed record, if the namespace has one. -/
def modify? (s : Store) (n : Name) (f : Record → Record) : Option Store :=
  (s.record? n).map fun r => ⟨s.records.insert n (f r)⟩

/-- Create a root. -/
def create (s : Store) (n : Name) : Except StoreError Store :=
  if !n.isRoot then .error (.notARoot n)
  else if s.contains n then .error (.namespaceAlreadyExists n)
  else .ok (s.add n)

/-- Create a direct child of the namespace that a handle names. The child gets its record first;
were the parent gone when the child is registered with it, the store would stay as it was. -/
def createChild (s : Store) (h : Handle) (child : Name) : Except StoreError Store :=
  if !h.isParentOf child then .error (.notAChild h child)
  else if !s.contains h then .error (.namespaceDoesNotExist h)
  else if s.contains child then .error (.namespaceAlreadyExists child)
  else match (s.add child).modify? h (·.addChild child) with
    | some s' => .ok s'
    | none => .error (.namespaceDoesNotExist h)

/-- Grant a role a permission on a namespace. -/
def grant (s : Store) (n : Name) (g : Grant) : Except StoreError Store :=
  match s.modify? n (·.addGrant g) with
  | some s' => .ok s'
  | none => .error (.namespaceDoesNotExist n)

/-- Create a namespace, as a root or below its parent, and make grants on it. -/
def insert (s : Store) (n : Name) (grants : List Grant) : Except StoreError Store := do
  let created ← match n.parent? with
    | none => s.create n
    | some parent => do s.createChild (← s.get parent) n
  grants.foldlM (fun s' g => s'.grant n g) created

/-- Create a namespace that is given as a text, and make grants on it. -/
def withNamespace (s : Store) (text : String) (grants : List Grant) : Except StoreError Store :=
  match Name.parse text with
  | .ok n => s.insert n grants
  | .error reason => .error (.store ("invalid namespace '" ++ text ++ "': " ++ reason.message))

/-! ### Removing -/

/-- Erasing a record that is there makes the store smaller. -/
theorem size_erase_lt {s : Store} {n : Name} {r : Record} (h : s.record? n = some r) :
    (s.erase n).size < s.size := by
  have hmem : n ∈ s.records := Std.ExtTreeMap.mem_iff_isSome_getElem?.mpr (by
    simpa [record?] using congrArg Option.isSome h)
  have hpos : s.records.size ≠ 0 := fun h0 =>
    Std.ExtTreeMap.not_mem_empty (Std.ExtTreeMap.eq_empty_iff_size_eq_zero.mpr h0 ▸ hmem)
  have herase : (s.records.erase n).size = s.records.size - 1 := by
    rw [Std.ExtTreeMap.size_erase, if_pos (Std.ExtTreeMap.contains_iff_mem.mpr hmem)]
  simp only [size, erase, herase]
  omega

/-- The store without the given namespaces and all that the child sets reach from them. A name
that has no record is passed over. -/
def removeSubtrees (s : Store) (pending : List Name) : Store :=
  match pending with
  | [] => s
  | n :: rest =>
    match _h : s.record? n with
    | none => s.removeSubtrees rest
    | some r => (s.erase n).removeSubtrees (r.children.toList ++ rest)
termination_by (s.size, pending.length)
decreasing_by
  · exact Prod.Lex.right _ (Nat.lt_succ_self _)
  · exact Prod.Lex.left _ _ (size_erase_lt _h)

/-- The store in which no record of the parent lists the child any more. -/
def unregister (s : Store) (child : Name) : Store :=
  match child.parent? with
  | none => s
  | some parent => (s.modify? parent (·.forgetChild child)).getD s

/-- Remove a namespace. With `cascade` everything below it goes too; without, a namespace that has
children stays. -/
def remove (s : Store) (n : Name) (cascade : Bool) : Except StoreError Store :=
  match s.record? n with
  | none => .error (.namespaceDoesNotExist n)
  | some r =>
    if !cascade && !r.children.isEmpty then .error (.namespaceHasChildren n)
    else .ok (((s.erase n).removeSubtrees r.children.toList).unregister n)

end Store

end NamespaceControl
