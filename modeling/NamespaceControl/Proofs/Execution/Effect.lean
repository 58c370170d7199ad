import NamespaceControl.Execution
import NamespaceControl.Proofs.Store.Change

/-!
# What running a statement can come to

Whatever the store calls of a statement answer, and whichever of them fail, running the statement
comes to one of six outcomes (`Execution.Outcome`): a selection, a creation, a drop or a listing,
each with what authorized it; a creation that finds nothing left to do; or a refusal. Only a
creation and a drop touch the store, and they change it in one place (`Store.Grows`,
`Store.Prunes`). All that is said of runs is read off these outcomes.
-/

namespace NamespaceControl

open Command (Statement)

variable {faults : Faults} {store store' : Store} {session : Session} {user : User}

/-! ## Calls that may fail -/

/-- A call that succeeds gives the answer of the store: a fault never lets a call succeed. -/
theorem Faults.eq_ok_of_call {α : Type} {kind : StoreCall} {k : Nat}
    {answer : Except StoreError α} {a : α} (h : faults.call kind k answer = .ok a) :
    answer = .ok a := by
  unfold Faults.call at h
  split at h
  · cases h
  · exact h

namespace Execution

/-! ## Authorization -/

/-- Permission is a matter of a single role that is both held and granted it. -/
theorem authorizes_iff {h : Handle} {permission : Permission} :
    authorizes store user h permission = true ↔
      ∃ role ∈ user.rolesIn h, store.hasPermission h role permission = true := by
  unfold authorizes
  exact List.any_eq_true

/-- What a user needs on a namespace: to be an administrator, or to hold a role there that is
granted the permission. -/
def Allowed (store : Store) (user : User) (n : Name) (permission : Permission) : Prop :=
  user.admin = true ∨ authorizes store user n permission = true

/-- The check of a handler stops exactly a user who does not have what is needed. -/
theorem check_iff {h : Handle} {permission : Permission} :
    (!user.admin && !authorizes store user h permission) = true ↔
      ¬ Allowed store user h permission := by
  unfold Allowed
  rw [Bool.and_eq_true, Bool.not_eq_true', Bool.not_eq_true', not_or, Bool.not_eq_true,
    Bool.not_eq_true]

/-- Who passes the check of a handler has what is needed. -/
theorem allowed_of_not_check {h : Handle} {permission : Permission}
    (hcheck : ¬ (!user.admin && !authorizes store user h permission) = true) :
    Allowed store user h permission := by
  rw [check_iff, Classical.not_not] at hcheck
  exact hcheck

/-- What a user needs to create a namespace: to be an administrator if it is a root, and else the
permission to create on its parent. -/
def MayCreate (store : Store) (user : User) (target : Name) : Prop :=
  match target.parent? with
  | none => user.admin = true
  | some parent => Allowed store user parent .createNamespace

/-! ## Outcomes -/

/-- The outcomes of a statement that is run for a session on a store. -/
inductive Outcome (store : Store) (session : Session) : Statement → Execution → Prop where
  /-- A namespace that is there is selected. -/
  | selected {target : Name} (present : store.contains target = true)
      (allowed : session.user.admin = true ∨ target ∈ session.user.namespaces) :
      Outcome store session (.useNamespace target) ⟨store, session.select target, .ok⟩
  /-- A namespace that was not there is created. -/
  | created {target : Name} {store' : Store} (grows : store.Grows store' target)
      (allowed : MayCreate store session.user target) :
      Outcome store session (.createNamespace target)
        ⟨store', session, .succeeded .ok "namespace created"⟩
  /-- There is nothing left to create. -/
  | existed {target : Name} :
      Outcome store session (.createNamespace target) ⟨store, session, alreadyExists target⟩
  /-- A namespace without children is dropped. -/
  | dropped {target : Name} {store' : Store} (prunes : store.Prunes store' target)
      (leaf : store.children target = [])
      (allowed : Allowed store session.user target .dropNamespace) :
      Outcome store session (.dropNamespace target)
        ⟨store', session, .succeeded .ok "namespace dropped"⟩
  /-- The namespaces that the user may see are listed. -/
  | listed {names : List Name}
      (allowed : ∀ n ∈ names, Allowed store session.user n .showNamespaces) :
      Outcome store session .showNamespaces ⟨store, session, .listing (names.map Name.text)⟩
  /-- The statement is refused, or a call that it needs fails. -/
  | failed {statement : Statement} {status : Status} (message : String) (not_ok : status ≠ .ok)
      (not_existing : status ≠ .namespaceAlreadyExists) :
      Outcome store session statement ⟨store, session, .failed status message⟩

/-- A refusal for want of a namespace. -/
theorem Outcome.missing (statement : Statement) (n : Name) :
    Outcome store session statement ⟨store, session, missing n⟩ :=
  .failed _ (by decide) (by decide)

/-- A refusal because the store cannot be read. -/
theorem Outcome.storeFault (statement : Statement) :
    Outcome store session statement ⟨store, session, storeFault⟩ :=
  .failed _ (by decide) (by decide)

/-- A refusal for want of a permission. -/
theorem Outcome.unauthorized (statement : Statement) (message : String) :
    Outcome store session statement ⟨store, session, .failed .unauthorized message⟩ :=
  .failed _ (by decide) (by decide)

/-! ## The handlers -/

/-- Selecting a namespace comes to a selection or a refusal. -/
theorem outcome_useNamespace (target : Name) :
    Outcome store session (.useNamespace target)
      (execute faults store session (.useNamespace target)) := by
  simp only [execute, useNamespace]
  split
  · exact .missing _ _
  · exact .storeFault _
  · next h hget =>
    have hpresent := (Store.get_eq_ok_iff.mp (Faults.eq_ok_of_call hget)).1
    split
    · next hallowed =>
      refine .selected hpresent ?_
      simpa using hallowed
    · exact .unauthorized _ _

/-- Creating a root that is not there comes to a creation or a refusal. -/
theorem outcome_createRoot {target : Name} (hroot : target.parent? = none) :
    Outcome store session (.createNamespace target)
      ⟨(createRoot faults store session.user target).1, session,
        (createRoot faults store session.user target).2⟩ := by
  unfold createRoot
  split
  · exact .unauthorized _ _
  · next hadmin =>
    split
    · next t hcreate =>
      have hgrows := (Store.grows_of_create (Faults.eq_ok_of_call hcreate)).2
      refine .created hgrows ?_
      unfold MayCreate
      rw [hroot]
      simpa using hadmin
    · exact .existed
    · exact .failed _ (by decide) (by decide)

/-- Creating a child that is not there comes to a creation or a refusal. -/
theorem outcome_createBelow {parent target : Name} (hparent : target.parent? = some parent) :
    Outcome store session (.createNamespace target)
      ⟨(createBelow faults store session.user parent target).1, session,
        (createBelow faults store session.user parent target).2⟩ := by
  unfold createBelow
  split
  · exact .missing _ _
  · exact .storeFault _
  · next h hget =>
    obtain ⟨-, rfl⟩ := Store.get_eq_ok_iff.mp (Faults.eq_ok_of_call hget)
    split
    · exact .unauthorized _ _
    · next hcheck =>
      split
      · next t hcreate =>
        have hgrows := (Store.grows_of_createChild (Faults.eq_ok_of_call hcreate)).2
        refine .created hgrows ?_
        unfold MayCreate
        rw [hparent]
        exact allowed_of_not_check hcheck
      · exact .existed
      · exact .missing _ _
      · exact .failed _ (by decide) (by decide)

/-- Creating a namespace comes to a creation, to nothing left to do, or to a refusal. -/
theorem outcome_createNamespace (target : Name) :
    Outcome store session (.createNamespace target)
      (execute faults store session (.createNamespace target)) := by
  simp only [execute, createNamespace]
  split
  · exact .storeFault _
  · exact .existed
  · split
    · next hroot => exact outcome_createRoot hroot
    · next parent hparent => exact outcome_createBelow hparent

/-- Dropping a namespace of a tree comes to a drop or a refusal. -/
theorem outcome_dropNamespace (hstore : store.IsTree) (target : Name) :
    Outcome store session (.dropNamespace target)
      (execute faults store session (.dropNamespace target)) := by
  simp only [execute, dropNamespace]
  split
  · exact .missing _ _
  · exact .storeFault _
  · next h hget =>
    obtain ⟨-, rfl⟩ := Store.get_eq_ok_iff.mp (Faults.eq_ok_of_call hget)
    split
    · exact .unauthorized _ _
    · next hcheck =>
      split
      · next t hremove =>
        obtain ⟨hprunes, hleaf⟩ :=
          Store.prunes_of_remove hstore (Faults.eq_ok_of_call hremove)
        exact .dropped hprunes (hleaf rfl) (allowed_of_not_check hcheck)
      · exact .failed _ (by decide) (by decide)
      · exact .missing _ _
      · exact .failed _ (by decide) (by decide)

/-- The names that a user who is no administrator sees are those that a role lets them see. -/
theorem authorizes_of_mem_visible {k : Nat} {names shown : List Name} {n : Name}
    (h : visible faults store user k names = .ok shown) (hn : n ∈ shown) :
    authorizes store user n .showNamespaces = true := by
  induction names generalizing k shown with
  | nil =>
    obtain rfl := Except.ok.inj h
    cases hn
  | cons name rest ih =>
    unfold visible at h
    split at h
    · exact ih h hn
    · cases h
    · next handle hget =>
      obtain ⟨-, rfl⟩ := Store.get_eq_ok_iff.mp (Faults.eq_ok_of_call hget)
      cases hrest : visible faults store user (k + 1) rest with
      | error e =>
        rw [hrest] at h
        cases h
      | ok more =>
        rw [hrest] at h
        obtain rfl := Except.ok.inj h
        split at hn
        · next hshown =>
          rcases List.mem_cons.mp hn with rfl | hn
          · exact hshown
          · exact ih hrest hn
        · exact ih hrest hn

/-- Listing the namespaces comes to a listing or a refusal. -/
theorem outcome_showNamespaces :
    Outcome store session .showNamespaces (execute faults store session .showNamespaces) := by
  simp only [execute, showNamespaces]
  split
  · next names hnames =>
    refine .listed fun n hn => ?_
    split at hnames
    · next hadmin => exact Or.inl hadmin
    · exact Or.inr (authorizes_of_mem_visible hnames hn)
  · exact .storeFault _

/-- Running a statement on a tree comes to one of the outcomes. -/
theorem outcome_execute (hstore : store.IsTree) (faults : Faults) (session : Session)
    (statement : Statement) :
    Outcome store session statement (execute faults store session statement) := by
  cases statement with
  | useNamespace target => exact outcome_useNamespace target
  | createNamespace target => exact outcome_createNamespace target
  | dropNamespace target => exact outcome_dropNamespace hstore target
  | showNamespaces => exact outcome_showNamespaces

/-- Every outcome keeps a tree a tree. -/
theorem Outcome.isTree {statement : Statement} {e : Execution}
    (h : Outcome store session statement e) (hstore : store.IsTree) : e.store.IsTree := by
  cases h with
  | created grows _ => exact grows.isTree hstore
  | dropped prunes _ _ => exact prunes.isTree hstore
  | selected | existed | listed | failed => exact hstore

/-- A session stays with its user. -/
theorem Outcome.user_eq {statement : Statement} {e : Execution}
    (h : Outcome store session statement e) : e.session.user = session.user := by
  cases h with
  | selected | created | existed | dropped | listed | failed => rfl

end Execution

end NamespaceControl
