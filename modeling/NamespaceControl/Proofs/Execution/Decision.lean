import NamespaceControl.Proofs.Execution.Authority
import NamespaceControl.Proofs.Execution.Report
import NamespaceControl.Proofs.Store.Edit
import NamespaceControl.Proofs.Store.Insertion
import NamespaceControl.Proofs.Store.Removal

/-!
# What decides a statement

If no call fails, the answer to a creation and to a drop is decided by what exists and by what the
user is allowed, and nothing else. A creation looks first for its target, then for the parent of
that, and then for the permission on the parent; a drop looks for its target, then for the
permission on the target itself, and then for children. What the store has to say when the handler
has checked all this never comes up.
-/

namespace NamespaceControl.Execution

open Command (Statement)

variable {store : Store} {user : User} {n p : Name} {permission : Permission}

/-! ## Permission -/

/-- What is needed on a namespace, said of the roles of the user there. -/
theorem allowed_iff : Allowed store user n permission ↔
    user.admin = true ∨
      ∃ role ∈ user.rolesIn n, store.hasPermission n role permission = true := by
  unfold Allowed
  rw [authorizes_iff]

/-! ## Creations -/

/-- A root that does not exist is created by an administrator and by nobody else. -/
theorem response_createRoot (hroot : n.parent? = none) (hn : store.contains n = false) :
    (createRoot .none store user n).2 =
      if user.admin = true then .succeeded .ok "namespace created"
      else .failed .unauthorized "root namespaces can only be created by an admin" := by
  obtain ⟨store', hcreate⟩ := Store.exists_create hroot hn
  unfold createRoot
  rw [Faults.call_none, hcreate]
  cases user.admin with
  | true => rfl
  | false => rfl

/-- A child that does not exist is created, if its parent exists, by who is allowed to on the
parent. -/
theorem response_createBelow (hp : n.parent? = some p) (hn : store.contains n = false) :
    (createBelow .none store user p n).2 =
      if store.contains p = false then missing p
      else if user.admin = true ∨
          ∃ role ∈ user.rolesIn p, store.hasPermission p role .createNamespace = true then
        .succeeded .ok "namespace created"
      else .failed .unauthorized ("cannot create namespace '" ++ n.text ++ "'") := by
  unfold createBelow
  rw [Faults.call_none]
  cases hparent : store.contains p with
  | false => simp [Store.get, hparent]
  | true =>
    have hget : store.get p = .ok p := Store.get_eq_ok_iff.mpr ⟨hparent, rfl⟩
    obtain ⟨store', hcreate⟩ := Store.exists_createChild hp hparent hn
    simp only [hget, check_iff, allowed_iff, Faults.call_none, hcreate, ite_not,
      Bool.true_eq_false, if_false]
    split
    · rfl
    · rfl

/-- If no call fails, a creation is decided by whether the target exists, then by whether its parent
does, and then by the permission on the parent; a root is left to administrators. -/
theorem response_createNamespace (store : Store) (session : Session) (n : Name) :
    (execute .none store session (.createNamespace n)).response =
      if store.contains n = true then alreadyExists n
      else match n.parent? with
        | none =>
          if session.user.admin = true then .succeeded .ok "namespace created"
          else .failed .unauthorized "root namespaces can only be created by an admin"
        | some p =>
          if store.contains p = false then missing p
          else if session.user.admin = true ∨ ∃ role ∈ session.user.rolesIn p,
              store.hasPermission p role .createNamespace = true then
            .succeeded .ok "namespace created"
          else .failed .unauthorized ("cannot create namespace '" ++ n.text ++ "'") := by
  simp only [execute, createNamespace, Faults.call_none]
  cases hn : store.contains n with
  | true => simp [Store.get, hn, existence]
  | false =>
    simp only [Store.get, hn, existence, Bool.false_eq_true, if_false]
    cases hp : n.parent? with
    | none => exact response_createRoot hp hn
    | some p => exact response_createBelow hp hn

/-- If no call fails, a creation is answered with one of four statuses. -/
theorem status_createNamespace (store : Store) (session : Session) (n : Name) :
    (execute .none store session (.createNamespace n)).response.status ∈
      [.ok, .unauthorized, .namespaceDoesNotExist, .namespaceAlreadyExists] := by
  rw [response_createNamespace]
  split
  · simp [alreadyExists, Response.succeeded]
  · split
    · split
      · simp [Response.succeeded]
      · simp [Response.failed]
    · split
      · simp [missing, Response.failed]
      · split
        · simp [Response.succeeded]
        · simp [Response.failed]

/-- **Creations are decided by what exists and by the permission on the parent.** If no call fails,
a name that exists is answered with that, whoever asks. Otherwise a root is created by an
administrator and by nobody else, and a child is looked for its parent first, by an administrator
too, and then created by who is an administrator or holds, on exactly the parent, a role that is
granted there to create. Only an answer with `OK` comes with a change, and that is the one new
namespace: it is there afterwards, and to create it again changes nothing. What the store could
answer to a creation after all this never comes up. -/
theorem creation_decided (store : Store) (session : Session) (n : Name) :
    let e := execute .none store session (.createNamespace n)
    (e.response =
      if store.contains n = true then .succeeded .namespaceAlreadyExists n.text
      else match n.parent? with
        | none =>
          if session.user.admin = true then .succeeded .ok "namespace created"
          else .failed .unauthorized "root namespaces can only be created by an admin"
        | some p =>
          if store.contains p = false then .failed .namespaceDoesNotExist p.text
          else if session.user.admin = true ∨ ∃ role ∈ session.user.rolesIn p,
              store.hasPermission p role .createNamespace = true then
            .succeeded .ok "namespace created"
          else .failed .unauthorized ("cannot create namespace '" ++ n.text ++ "'")) ∧
    e.session = session ∧
    (e.response.status ≠ .ok → e.store = store) ∧
    (e.response.status = .ok → store.Grows e.store n ∧ e.store.contains n = true ∧
      ∀ other : Session,
        let again := execute .none e.store other (.createNamespace n)
        again.response = .succeeded .namespaceAlreadyExists n.text ∧ again.store = e.store) ∧
    e.response.status ≠ .internalServerError ∧ e.response.status ≠ .createNamespaceError ∧
      e.response.status ≠ .invalidStatementType := by
  intro e
  have houtcome : Outcome store session (.createNamespace n) e := outcome_createNamespace n
  have hstatus := status_createNamespace store session n
  refine ⟨response_createNamespace store session n, rfl, fun hok => ?_, fun hok => ?_, ?_⟩
  · refine houtcome.store_eq fun _ _ => hok
  · have hgrows := houtcome.grows_of_ok hok
    have hthere : e.store.contains n = true := hgrows.contains_iff.mpr (Or.inl rfl)
    refine ⟨hgrows, hthere, fun other => ?_⟩
    have hanswer := response_createNamespace e.store other n
    rw [if_pos hthere] at hanswer
    refine ⟨hanswer, (outcome_createNamespace n).store_eq fun _ _ => ?_⟩
    simp [hanswer, alreadyExists, Response.succeeded]
  · refine ⟨?_, ?_, ?_⟩
    all_goals
      intro hs
      rw [hs] at hstatus
      revert hstatus
      decide

/-! ## Drops -/

/-- If no call fails, a drop in a tree is decided by whether the target exists, then by the
permission on it, and then by whether it is the parent of a namespace that exists. -/
theorem response_dropNamespace (hstore : store.IsTree) (session : Session) (n : Name) :
    (execute .none store session (.dropNamespace n)).response =
      if store.contains n = false then missing n
      else if ¬ (session.user.admin = true ∨ ∃ role ∈ session.user.rolesIn n,
          store.hasPermission n role .dropNamespace = true) then
        .failed .unauthorized ("cannot drop namespace '" ++ n.text ++ "'")
      else if ∃ c ∈ store.names, c.parent? = some n then
        .failed .dropNamespaceError
          ("namespace '" ++ n.text ++ "' still has child namespaces")
      else .succeeded .ok "namespace dropped" := by
  simp only [execute, dropNamespace, Faults.call_none]
  cases hn : store.contains n with
  | false => simp [Store.get, hn]
  | true =>
    have hget : store.get n = .ok n := Store.get_eq_ok_iff.mpr ⟨hn, rfl⟩
    have hleaf : store.children n = [] ↔ ¬ ∃ c ∈ store.names, c.parent? = some n := by
      rw [hstore.children_eq_nil_iff]
      simp only [Store.mem_names, not_exists, not_and, ne_eq]
    by_cases hmay : session.user.admin = true ∨ ∃ role ∈ session.user.rolesIn n,
        store.hasPermission n role .dropNamespace = true
    · by_cases hchild : ∃ c ∈ store.names, c.parent? = some n
      · have hremove := Store.remove_of_children fun hnil => hleaf.mp hnil hchild
        simp only [hget, check_iff, allowed_iff, hmay, hchild, hremove, not_true_eq_false, if_false,
          if_true, Bool.true_eq_false]
      · have hnone : store.children n = [] := hleaf.mpr hchild
        obtain ⟨store', hremove⟩ : ∃ store', store.remove n false = .ok store' :=
          Store.exists_remove hn fun _ => hnone
        simp only [hget, check_iff, allowed_iff, hmay, hchild, hremove, not_true_eq_false, if_false,
          Bool.true_eq_false]
    · simp only [hget, check_iff, allowed_iff, hmay, not_false_eq_true, if_true, if_false,
        Bool.true_eq_false]

/-- A namespace that has just been created has no children. -/
theorem children_of_grows {store' : Store} (h : store.Grows store' n) : store'.children n = [] := by
  rw [Store.children, h.record?_self]
  rfl

/-- Right after its creation a namespace can be dropped by administrators, which undoes the
creation, and by nobody else. -/
theorem drop_of_grows {store' : Store} (hstore : store.IsTree) (hgrows : store.Grows store' n)
    (session : Session) :
    let e := execute .none store' session (.dropNamespace n)
    (session.user.admin = true →
      e.response = .succeeded .ok "namespace dropped" ∧ e.store = store) ∧
    (session.user.admin = false →
      e.response = .failed .unauthorized ("cannot drop namespace '" ++ n.text ++ "'") ∧
        e.store = store') := by
  intro e
  have htree : store'.IsTree := hgrows.isTree hstore
  have houtcome : Outcome store' session (.dropNamespace n) e := outcome_dropNamespace htree n
  have hresponse := response_dropNamespace htree session n
  rw [if_neg (by simp [hgrows.bare.present])] at hresponse
  constructor
  · intro hadmin
    have hnone : ¬ ∃ c ∈ store'.names, c.parent? = some n := by
      rintro ⟨c, hc, hp⟩
      have hlisted := (htree n c).mpr ⟨Store.mem_names.mp hc, hp⟩
      rw [children_of_grows hgrows] at hlisted
      cases hlisted
    rw [if_neg (by simp [hadmin]), if_neg hnone] at hresponse
    refine ⟨hresponse, ?_⟩
    have hok : e.response.status = .ok := congrArg Response.status hresponse
    exact (houtcome.sheds_of_ok htree hok).eq_of_grows hgrows hstore
  · intro hadmin
    have hnot : ¬ (session.user.admin = true ∨ ∃ role ∈ session.user.rolesIn n,
        store'.hasPermission n role .dropNamespace = true) := by
      simp [hadmin, hgrows.bare.nothing]
    rw [if_pos hnot] at hresponse
    refine ⟨hresponse, houtcome.store_eq fun _ _ hok => ?_⟩
    have hstatus : e.response.status = .unauthorized := congrArg Response.status hresponse
    rw [hstatus] at hok
    cases hok

/-- **Drops are decided by the namespace itself, and never cascade.** If no call fails, a drop looks
for its target, then for a permission on exactly that, which is held by administrators and through
roles held there, and then for namespaces whose parent the target is; it takes the target alone, and
only with an answer of `OK`. Right after any user has created a namespace, nobody but an
administrator drops it, and then the store is the one from before the creation. -/
theorem drop_decided (hs : store.Reachable) (session : Session) (n : Name) :
    (let e := execute .none store session (.dropNamespace n)
     (e.response =
       if store.contains n = false then .failed .namespaceDoesNotExist n.text
       else if ¬ (session.user.admin = true ∨ ∃ role ∈ session.user.rolesIn n,
           store.hasPermission n role .dropNamespace = true) then
         .failed .unauthorized ("cannot drop namespace '" ++ n.text ++ "'")
       else if ∃ c ∈ store.names, c.parent? = some n then
         .failed .dropNamespaceError
           ("namespace '" ++ n.text ++ "' still has child namespaces")
       else .succeeded .ok "namespace dropped") ∧
     e.session = session ∧
     (e.response.status ≠ .ok → e.store = store) ∧
     (e.response.status = .ok → store.Sheds e.store n)) ∧
    (let created := execute .none store session (.createNamespace n)
     created.response.status = .ok → ∀ other : Session,
       let e := execute .none created.store other (.dropNamespace n)
       (other.user.admin = true →
         e.response = .succeeded .ok "namespace dropped" ∧ e.store = store) ∧
       (other.user.admin = false →
         e.response = .failed .unauthorized ("cannot drop namespace '" ++ n.text ++ "'") ∧
           e.store = created.store)) := by
  have htree := hs.isTree
  have houtcome : Outcome store session (.dropNamespace n)
      (execute .none store session (.dropNamespace n)) := outcome_dropNamespace htree n
  refine ⟨⟨response_dropNamespace htree session n, rfl, fun hok => ?_, ?_⟩, fun hok => ?_⟩
  · exact houtcome.store_eq fun _ _ => hok
  · exact houtcome.sheds_of_ok htree
  · exact drop_of_grows htree ((outcome_createNamespace n).grows_of_ok hok)

/-- What is granted on `acme` alone does not help its owner to drop `acme.lab`, nor to drop `acme`
while that is there; what the owner creates below it only an administrator takes away again. -/
theorem drop_decided_owner :
    let acme : Name := ⟨["acme"], by decide, by decide⟩
    let lab : Name := ⟨["acme", "lab"], by decide, by decide⟩
    let attic : Name := ⟨["acme", "attic"], by decide, by decide⟩
    let grants : List Grant := [⟨"owner", .createNamespace⟩, ⟨"owner", .dropNamespace⟩]
    let owner := Session.start ((User.regular "ann").withRole acme "owner")
    let admin := Session.start (.administrator "root")
    let store := Store.empty.afterAll [.insert acme grants, .createChild acme lab]
    let created := execute .none store owner (.createNamespace attic)
    store.Reachable ∧
      (execute .none store owner (.dropNamespace lab)).response =
        .failed .unauthorized ("cannot drop namespace '" ++ lab.text ++ "'") ∧
      (execute .none store owner (.dropNamespace acme)).response =
        .failed .dropNamespaceError
          ("namespace '" ++ acme.text ++ "' still has child namespaces") ∧
      created.response.status = .ok ∧
      (execute .none created.store owner (.dropNamespace attic)).store = created.store ∧
      (execute .none created.store admin (.dropNamespace attic)).store = store := by
  intro acme lab attic grants owner admin store created
  have hreachable : store.Reachable := ⟨_, rfl⟩
  have hcreated : created.response.status = .ok := by decide
  obtain ⟨⟨hlab, -⟩, -⟩ := drop_decided hreachable owner lab
  obtain ⟨⟨hacme, -⟩, -⟩ := drop_decided hreachable owner acme
  have hdrop := (drop_decided hreachable owner attic).2 hcreated
  refine ⟨hreachable, ?_, ?_, hcreated, ((hdrop owner).2 rfl).2, ((hdrop admin).1 rfl).2⟩
  · rw [hlab, if_neg (by decide), if_pos (by decide)]
  · rw [hacme, if_neg (by decide), if_neg (by decide), if_pos (by decide)]

end NamespaceControl.Execution
