import NamespaceControl.Proofs.Store.Insertion

/-!
# Operations that write in place

A store that is shared is changed where it stands, one write after the other, and what an operation
has written before it fails is not undone. Here the operations are spelled out in this way
(`Update.inPlace`): a child gets its record before the record of its parent lists it, and an
insertion makes its grants one by one. Each of them comes to what the operation on a store as a
value comes to (`Update.run_inPlace`): either it is done, or it fails with every record as it was.

What takes a child back, should its parent go between the two writes, is a parameter
(`InPlace.createChild`). It makes no difference while one operation runs after the other.
-/

namespace NamespaceControl

/-! ## Writing in place -/

/-- An operation on a store that is changed where it stands. A failure undoes nothing. -/
abbrev InPlace := EStateM StoreError Store Unit

namespace InPlace

/-- Create a root. -/
def create (n : Name) : InPlace := do
  if !n.isRoot then throw (.notARoot n)
  else if (← get).contains n then throw (.namespaceAlreadyExists n)
  else modify (·.add n)

/-- Take back a child whose parent is gone. -/
def withdraw (h : Handle) (child : Name) : InPlace := do
  modify (·.erase child)
  throw (.namespaceDoesNotExist h)

/-- Create a direct child of the namespace that a handle names: first its record, and then its
entry in the record of the parent. If that record is gone by then, the child is taken back. -/
def createChild (takeBack : Handle → Name → InPlace) (h : Handle) (child : Name) : InPlace := do
  if !h.isParentOf child then throw (.notAChild h child)
  else if !(← get).contains h then throw (.namespaceDoesNotExist h)
  else if (← get).contains child then throw (.namespaceAlreadyExists child)
  else
    modify (·.add child)
    match (← get).modify? h (·.addChild child) with
    | some s => set s
    | none => takeBack h child

/-- Grant a role a permission on a namespace. -/
def grant (n : Name) (g : Grant) : InPlace := do
  match (← get).modify? n (·.addGrant g) with
  | some s => set s
  | none => throw (.namespaceDoesNotExist n)

/-- Create a namespace, as a root or below its parent. -/
def add (takeBack : Handle → Name → InPlace) (n : Name) : InPlace := do
  match n.parent? with
  | none => create n
  | some parent =>
    match (← get).get parent with
    | .ok h => createChild takeBack h n
    | .error e => throw e

/-- Create a namespace, and then make grants on it one by one. -/
def insert (takeBack : Handle → Name → InPlace) (n : Name) (grants : List Grant) : InPlace := do
  add takeBack n
  forM grants (grant n)

/-- Remove a namespace: first its record, then what lies below it, and last its entry in the record
of the parent. -/
def remove (n : Name) (cascade : Bool) : InPlace := do
  match (← get).record? n with
  | none => throw (.namespaceDoesNotExist n)
  | some r =>
    if !cascade && !r.children.isEmpty then throw (.namespaceHasChildren n)
    else
      modify (·.erase n)
      modify (·.removeSubtrees r.children.toList)
      modify (·.unregister n)

end InPlace

/-! ## The operations of a store -/

/-- What can be asked of a store to be written. -/
inductive Update where
  /-- Create a root. -/
  | create (n : Name)
  /-- Create a child through a handle, which may be one to a namespace that is gone. -/
  | createChild (h : Handle) (child : Name)
  /-- Create a namespace with grants. -/
  | insert (n : Name) (grants : List Grant)
  /-- Make a grant. -/
  | grant (n : Name) (g : Grant)
  /-- Remove a namespace. -/
  | remove (n : Name) (cascade : Bool)

namespace Update

/-- The store that the operation leads to, or the reason why it fails. -/
def result (s : Store) : Update → Except StoreError Store
  | create n => s.create n
  | createChild h child => s.createChild h child
  | insert n grants => s.insert n grants
  | grant n g => s.grant n g
  | remove n cascade => s.remove n cascade

/-- The operation, writing in place. -/
def inPlace (takeBack : Handle → Name → InPlace) : Update → InPlace
  | create n => .create n
  | createChild h child => .createChild takeBack h child
  | insert n grants => .insert takeBack n grants
  | grant n g => .grant n g
  | remove n cascade => .remove n cascade

end Update

/-- How an operation ends that either leads to another store or leaves the store as it is. -/
def Store.settle (s : Store) : Except StoreError Store → EStateM.Result StoreError Store Unit
  | .ok s' => .ok () s'
  | .error e => .error e s

/-! ## Both come to the same -/

namespace InPlace

variable {s : Store} {n : Name}

/-- A root is created in one write. -/
theorem run_create (s : Store) (n : Name) : (create n).run s = s.settle (s.create n) := by
  unfold create Store.create
  split
  · rfl
  · simp only [EStateM.run_bind, EStateM.run_get]
    split
    · rfl
    · rfl

/-- The record of the parent, which is there before a child gets its record, is there afterwards. So
the child is registered, and nothing is taken back. -/
theorem run_createChild (takeBack : Handle → Name → InPlace) (s : Store) (h : Handle)
    (child : Name) :
    (createChild takeBack h child).run s = s.settle (s.createChild h child) := by
  unfold createChild Store.createChild
  split
  · rfl
  · simp only [EStateM.run_bind, EStateM.run_get]
    split
    · rfl
    · next hparent =>
      simp only [EStateM.run_bind, EStateM.run_get]
      split
      · rfl
      · have hthere : s.contains h = true := by simpa using hparent
        obtain ⟨s', hs'⟩ := Store.exists_modify?_add child (·.addChild child) hthere
        simp only [EStateM.run_bind, EStateM.run_modify, EStateM.run_get, hs']
        rfl

/-- A grant is made in one write. -/
theorem run_grant (s : Store) (n : Name) (g : Grant) :
    (grant n g).run s = s.settle (s.grant n g) := by
  unfold grant Store.grant
  simp only [EStateM.run_bind, EStateM.run_get]
  cases s.modify? n (·.addGrant g) with
  | none => rfl
  | some s' => rfl

/-- Of the grants on a namespace that is there, none fails when some are made already. -/
theorem run_grants (grants : List Grant) (h : s.contains n = true) :
    (forM grants (grant n)).run s = s.settle (grants.foldlM (fun t g => t.grant n g) s) := by
  induction grants generalizing s with
  | nil => rfl
  | cons g rest ih =>
    obtain ⟨t, ht⟩ := Store.exists_grant g h
    have hthere : t.contains n = true := ((Store.gainsGrant_of_grant ht).contains_eq n).trans h
    obtain ⟨s', hs', -⟩ := Store.exists_gainsGrants rest hthere
    have hall : (g :: rest).foldlM (fun t g => t.grant n g) s = .ok s' := by
      rw [List.foldlM_cons, bind_eq_ok_iff]
      exact ⟨t, ht, hs'⟩
    have hfirst : (grant n g).run s = .ok () t := by
      rw [run_grant, ht]
      rfl
    have hrest : (forM rest (grant n)).run t = .ok () s' := by
      rw [ih hthere, hs']
      rfl
    rw [List.forM_cons, EStateM.run_bind, hfirst, hall]
    exact hrest

/-- Creating a namespace, as a root or below its parent, is inserting it without grants. -/
theorem run_add (takeBack : Handle → Name → InPlace) (s : Store) (n : Name) :
    (add takeBack n).run s = s.settle (s.insert n []) := by
  unfold add Store.insert
  cases n.parent? with
  | none =>
    simp only [List.foldlM_nil, bind_pure]
    exact run_create s n
  | some parent =>
    simp only [EStateM.run_bind, EStateM.run_get, List.foldlM_nil, bind_pure]
    cases s.get parent with
    | ok h => exact run_createChild takeBack s h n
    | error e => rfl

/-- An insertion fails before its first write, or not at all. -/
theorem run_insert (takeBack : Handle → Name → InPlace) (s : Store) (n : Name)
    (grants : List Grant) :
    (insert takeBack n grants).run s = s.settle (s.insert n grants) := by
  unfold insert
  rw [EStateM.run_bind, run_add, Store.insert_eq_bind s n grants]
  cases hadd : s.insert n [] with
  | error e => rfl
  | ok t =>
    obtain ⟨u, hgrows, hu⟩ := Store.exists_grows_of_insert hadd
    obtain rfl := Except.ok.inj hu
    have hthere : u.contains n = true := hgrows.contains_iff.mpr (Or.inl rfl)
    obtain ⟨s', hs', -⟩ := Store.exists_gainsGrants grants hthere
    have hgrants : (forM grants (grant n)).run u = .ok () s' := by
      rw [run_grants grants hthere, hs']
      rfl
    show (forM grants (grant n)).run u = s.settle (grants.foldlM (fun t g => t.grant n g) u)
    rw [hgrants, hs']
    rfl

/-- A removal fails before its first write, or not at all. -/
theorem run_remove (s : Store) (n : Name) (cascade : Bool) :
    (remove n cascade).run s = s.settle (s.remove n cascade) := by
  unfold remove Store.remove
  simp only [EStateM.run_bind, EStateM.run_get]
  cases s.record? n with
  | none => rfl
  | some r =>
    simp only
    split
    · rfl
    · rfl

end InPlace

/-- **Each operation is done all at once or not at all.** Writing in place it comes to what it comes
to on a store as a value: if it fails, every record is as it was, and whatever stands where a child
is taken back, it is not reached. -/
theorem Update.run_inPlace (takeBack : Handle → Name → InPlace) (u : Update) (s : Store) :
    (u.inPlace takeBack).run s = s.settle (u.result s) := by
  cases u with
  | create n => exact InPlace.run_create s n
  | createChild h child => exact InPlace.run_createChild takeBack s h child
  | insert n grants => exact InPlace.run_insert takeBack s n grants
  | grant n g => exact InPlace.run_grant s n g
  | remove n cascade => exact InPlace.run_remove s n cascade

end NamespaceControl
