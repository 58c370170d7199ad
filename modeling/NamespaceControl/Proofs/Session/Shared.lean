import NamespaceControl.Proofs.Execution.Authority
import NamespaceControl.Proofs.Store.Reachable

/-!
# Sessions that share a store

Any number of sessions run statements on one store, one statement after the other and in whatever
order they come. Each request names the session that makes it and may come with calls that fail.
What one statement keeps (`Execution.Outcome`), a whole run keeps.
-/

namespace NamespaceControl

open Command (Statement)

/-- A store and the sessions that share it. -/
structure Shared (ι : Type) where
  /-- The store that all of them see. -/
  store : Store
  /-- The state of each session. -/
  sessions : ι → Session

/-- A statement that one of the sessions asks for. -/
structure Request (ι : Type) where
  /-- The session that asks. -/
  session : ι
  /-- The calls that fail while its statement runs. -/
  faults : Faults
  /-- What it asks for. -/
  statement : Statement

namespace Shared

variable {ι : Type} [DecidableEq ι] {s : Shared ι} {n : Name} {role : String}
  {permission : Permission}

/-! ## Runs -/

omit [DecidableEq ι] in
/-- What a request comes to. -/
def execute (s : Shared ι) (r : Request ι) : Execution :=
  NamespaceControl.execute r.faults s.store (s.sessions r.session) r.statement

/-- The state after a request: the store is changed for all, and one session for itself. -/
def after (s : Shared ι) (r : Request ι) : Shared ι where
  store := (s.execute r).store
  sessions i := if i = r.session then (s.execute r).session else s.sessions i

/-- The state after some requests. -/
def afterAll (s : Shared ι) (requests : List (Request ι)) : Shared ι := requests.foldl after s

/-- A request creates a namespace: it is there afterwards, and was not there before. -/
def Creates (s : Shared ι) (r : Request ι) (n : Name) : Prop :=
  s.store.contains n = false ∧ (s.after r).store.contains n = true

/-- A request drops a namespace: it was there before, and is not there afterwards. -/
def Drops (s : Shared ι) (r : Request ι) (n : Name) : Prop :=
  s.store.contains n = true ∧ (s.after r).store.contains n = false

/-- The session that makes a request is left as its statement leaves it. -/
theorem sessions_after_self (s : Shared ι) (r : Request ι) :
    (s.after r).sessions r.session = (s.execute r).session :=
  if_pos rfl

/-- Other sessions stay. -/
theorem sessions_after_of_ne {r : Request ι} {i : ι} (s : Shared ι) (h : i ≠ r.session) :
    (s.after r).sessions i = s.sessions i :=
  if_neg h

/-- A run goes on from where its beginning ends. -/
theorem afterAll_append (s : Shared ι) (first second : List (Request ι)) :
    s.afterAll (first ++ second) = (s.afterAll first).afterAll second :=
  List.foldl_append

/-! ## What a run keeps -/

omit [DecidableEq ι] in
/-- A request comes to one of the outcomes of its statement. -/
theorem outcome_execute (hs : s.store.IsTree) (r : Request ι) :
    Execution.Outcome s.store (s.sessions r.session) r.statement (s.execute r) :=
  Execution.outcome_execute hs r.faults (s.sessions r.session) r.statement

/-- A request keeps the store a tree. -/
theorem isTree_after (hs : s.store.IsTree) (r : Request ι) : (s.after r).store.IsTree :=
  (outcome_execute hs r).isTree hs

/-- A run keeps the store a tree. -/
theorem isTree_afterAll (hs : s.store.IsTree) (requests : List (Request ι)) :
    (s.afterAll requests).store.IsTree := by
  induction requests generalizing s with
  | nil => exact hs
  | cons r requests ih => exact ih (isTree_after hs r)

/-- A request leaves every session with its user. -/
theorem user_after (hs : s.store.IsTree) (r : Request ι) (i : ι) :
    ((s.after r).sessions i).user = (s.sessions i).user := by
  show (if i = r.session then (s.execute r).session else s.sessions i).user = _
  split
  · next hi =>
    subst hi
    exact (outcome_execute hs r).user_eq
  · rfl

/-- A run leaves every session with its user. -/
theorem user_afterAll (hs : s.store.IsTree) (requests : List (Request ι)) (i : ι) :
    ((s.afterAll requests).sessions i).user = (s.sessions i).user := by
  induction requests generalizing s with
  | nil => rfl
  | cons r requests ih => exact (ih (isTree_after hs r)).trans (user_after hs r i)

/-- What is granted after a run was granted before it. -/
theorem hasPermission_before_afterAll (hs : s.store.IsTree) {requests : List (Request ι)}
    (h : (s.afterAll requests).store.hasPermission n role permission = true) :
    s.store.hasPermission n role permission = true := by
  induction requests generalizing s with
  | nil => exact h
  | cons r requests ih =>
    have hnext : (s.after r).store.hasPermission n role permission = true :=
      ih (isTree_after hs r) h
    exact (outcome_execute hs r).hasPermission_before hnext

/-- A run of users who are no administrators leaves a bare namespace bare. -/
theorem bare_afterAll (hs : s.store.IsTree) {requests : List (Request ι)}
    (hadmin : ∀ r ∈ requests, (s.sessions r.session).user.admin = false) (hn : s.store.Bare n) :
    (s.afterAll requests).store.Bare n := by
  induction requests generalizing s with
  | nil => exact hn
  | cons r requests ih =>
    have hnext : (s.after r).store.Bare n :=
      (outcome_execute hs r).bare hs (hadmin r List.mem_cons_self) hn
    refine ih (isTree_after hs r) (fun r' hr' => ?_) hnext
    rw [user_after hs]
    exact hadmin r' (List.mem_cons_of_mem r hr')

end Shared

end NamespaceControl
