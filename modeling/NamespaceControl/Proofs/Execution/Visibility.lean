import NamespaceControl.Proofs.Execution.Authority
import NamespaceControl.Proofs.Execution.Report
import NamespaceControl.Proofs.Store.Listing

/-!
# What a user is shown

If no call fails, a listing is always answered with `OK`. An administrator is shown the names of the
store. Everyone else is shown the namespaces on which a role that is held there is granted to show
them, and these are found in another way: the namespaces of the user's roles are got from the store
one after the other. What comes out is the same as if the listing of the administrator were gone
through (`Execution.filter_namespaces`), since the store and the roles are both kept in order.
-/

namespace NamespaceControl

variable {faults : Faults} {store : Store} {user : User} {n : Name}

/-! ## The namespaces of a user -/

/-- The namespaces of a user are those on which a role is held; one that is listed without roles is
not among them. -/
theorem User.mem_namespaces_iff {u : User} {n : Name} : n ∈ u.namespaces ↔ u.rolesIn n ≠ [] := by
  have hheld : ∀ held : Std.ExtTreeSet String, (!held.isEmpty) = true ↔ held.toList ≠ [] := by
    intro held
    rw [← Std.ExtTreeSet.isEmpty_toList, Bool.not_eq_true', List.isEmpty_eq_false_iff]
  unfold User.namespaces User.rolesIn
  simp only [List.mem_map, List.mem_filter, Prod.exists, hheld,
    Std.ExtTreeMap.getD_eq_getD_getElem?, Std.ExtTreeMap.mem_toList_iff_getElem?_eq_some]
  constructor
  · rintro ⟨n', held, ⟨hlisted, hsome⟩, rfl⟩
    rw [hlisted]
    exact hsome
  · intro hsome
    cases hlisted : u.roles[n]? with
    | none =>
      rw [hlisted] at hsome
      exact absurd rfl hsome
    | some held =>
      rw [hlisted] at hsome
      exact ⟨n, held, ⟨hlisted, hsome⟩, rfl⟩

/-- The namespaces of a user are listed in strictly ascending order. -/
theorem User.ascending_namespaces (u : User) :
    u.namespaces.Pairwise fun a b => compare a b = .lt := by
  have hkeys : (u.roles.toList.map Prod.fst).Pairwise fun a b => compare a b = .lt := by
    rw [Std.ExtTreeMap.map_fst_toList_eq_keys]
    exact Std.ExtTreeMap.ordered_keys
  exact hkeys.sublist (List.filter_sublist.map Prod.fst)

namespace Execution

/-- A namespace on which a user is authorized is there, and the user holds a role on it. -/
theorem contains_and_mem_of_authorizes {permission : Permission}
    (h : authorizes store user n permission = true) :
    store.contains n = true ∧ n ∈ user.namespaces := by
  obtain ⟨role, hrole, hgranted⟩ := authorizes_iff.mp h
  refine ⟨Store.contains_of_hasPermission hgranted, ?_⟩
  rw [User.mem_namespaces_iff]
  exact List.ne_nil_of_mem hrole

/-! ## Listings -/

/-- Getting a namespace that is not there passes it over, and so does getting one on which the user
is not authorized to see it. -/
theorem visible_cons_of_unfaulted {k : Nat} {rest : List Name} (h : faults .get k = .none) :
    visible faults store user k (n :: rest) =
      (visible faults store user (k + 1) rest).map fun more =>
        if authorizes store user n .showNamespaces then n :: more else more := by
  rw [visible, Faults.call, h]
  dsimp only
  by_cases hn : store.contains n = true
  · rw [Store.get, if_pos hn]
  · have hhidden : authorizes store user n .showNamespaces ≠ true := fun h =>
      hn (contains_and_mem_of_authorizes h).1
    rw [Store.get, if_neg hn]
    simp only [if_neg hhidden]
    cases visible faults store user (k + 1) rest with
    | error e => rfl
    | ok more => rfl

/-- If none of the gets fails, those of the names are visible on which the user is authorized to see
them. -/
theorem visible_of_unfaulted {k : Nat} {names : List Name}
    (h : ∀ i < names.length, faults .get (k + i) = .none) :
    visible faults store user k names =
      .ok (names.filter fun n => authorizes store user n .showNamespaces) := by
  induction names generalizing k with
  | nil => rfl
  | cons n rest ih =>
    have hrest : ∀ i < rest.length, faults .get (k + 1 + i) = .none := fun i hi => by
      rw [Nat.add_assoc, Nat.add_comm 1 i]
      exact h (i + 1) (Nat.succ_lt_succ hi)
    have hfirst : faults .get k = .none := h 0 (Nat.succ_pos _)
    rw [visible_cons_of_unfaulted hfirst, ih hrest, List.filter_cons]
    rfl

/-- The namespaces of a user that are visible are the names of the store that are, and they come in
the same order. -/
theorem filter_namespaces (store : Store) (user : User) (permission : Permission) :
    user.namespaces.filter (fun n => authorizes store user n permission) =
      store.names.filter fun n => authorizes store user n permission := by
  refine Name.eq_of_ascending (user.ascending_namespaces.filter _)
    (store.ascending_names.filter _) fun n => ?_
  rw [List.mem_filter, List.mem_filter, Store.mem_names]
  constructor
  · rintro ⟨-, h⟩
    exact ⟨(contains_and_mem_of_authorizes h).1, h⟩
  · rintro ⟨-, h⟩
    exact ⟨(contains_and_mem_of_authorizes h).2, h⟩

/-- The names that a user is shown: all of them if the user is an administrator, and else those on
which the user is authorized to see them. -/
def shown (store : Store) (user : User) : List Name :=
  store.names.filter fun n => user.admin || authorizes store user n .showNamespaces

/-- A user is shown what there is and what the user is allowed to see. -/
theorem mem_shown : n ∈ shown store user ↔
    store.contains n = true ∧ Allowed store user n .showNamespaces := by
  rw [shown, List.mem_filter, Store.mem_names, Bool.or_eq_true]
  rfl

/-- If no call fails, a listing is answered with what the user is shown. -/
theorem response_showNamespaces (store : Store) (user : User) :
    showNamespaces .none store user = .listing ((shown store user).map Name.text) := by
  unfold showNamespaces shown
  cases hadmin : user.admin with
  | true => simp
  | false =>
    have hvisible : visible .none store user 1 user.namespaces =
        .ok (user.namespaces.filter fun n => authorizes store user n .showNamespaces) :=
      visible_of_unfaulted fun _ _ => rfl
    simp [hvisible, filter_namespaces]

/-- If no call fails, a selection is decided by whether the namespace is there, and then by whether
the user is an administrator or holds a role on it. -/
theorem response_useNamespace (store : Store) (session : Session) (n : Name) :
    (execute .none store session (.useNamespace n)).response =
      if store.contains n = false then missing n
      else if session.user.admin = true ∨ session.user.rolesIn n ≠ [] then .ok
      else .failed .unauthorized "" := by
  simp only [execute, useNamespace, Faults.call_none, Store.get]
  by_cases hn : store.contains n = true
  · by_cases hmay : session.user.admin = true ∨ n ∈ session.user.namespaces
    · simp [hn, hmay, ← User.mem_namespaces_iff]
    · simp [hn, hmay, ← User.mem_namespaces_iff]
  · simp [hn]

/-- If no call fails, what a user is shown can be selected by that user. -/
theorem response_useNamespace_of_mem_shown {session : Session}
    (h : n ∈ shown store session.user) :
    (execute .none store session (.useNamespace n)).response = .ok := by
  obtain ⟨hthere, hallowed⟩ := mem_shown.mp h
  have hmay : session.user.admin = true ∨ session.user.rolesIn n ≠ [] := by
    refine hallowed.imp_right fun h => ?_
    exact User.mem_namespaces_iff.mp (contains_and_mem_of_authorizes h).2
  rw [response_useNamespace, if_neg (by simp [hthere]), if_pos hmay]

/-- **A listing shows what may be seen, in the same order to everyone.** If no call fails, it is
answered with `OK`, without a message, and changes nothing. An administrator is shown all names of
the store, each once and in strictly ascending order; everyone else is shown those of the same rows
on which a role that is held on exactly that namespace is granted to show it. Whatever a user is
shown, that user can select at once. -/
theorem listing_decided (store : Store) (session : Session) :
    let e := execute .none store session .showNamespaces
    (e.store = store ∧ e.session = session ∧
      e.response.status = .ok ∧ e.response.message = "" ∧ e.response.success = true) ∧
    ((∀ n, n ∈ store.names ↔ store.contains n = true) ∧
      store.names.Pairwise (fun a b => compare a b = .lt) ∧ (store.names.map Name.text).Nodup) ∧
    (∀ admin : Session, admin.user.admin = true →
      (execute .none store admin .showNamespaces).response.rows = store.names.map Name.text) ∧
    (session.user.admin = false →
      e.response.rows = (store.names.filter fun n =>
        (session.user.rolesIn n).any fun role =>
          store.hasPermission n role .showNamespaces).map Name.text) ∧
    ∀ n, n.text ∈ e.response.rows →
      (execute .none e.store e.session (.useNamespace n)).response.status = .ok := by
  intro e
  have hresponse : e.response = .listing ((shown store session.user).map Name.text) :=
    response_showNamespaces store session.user
  refine ⟨⟨rfl, rfl, ?_⟩, ⟨fun n => Store.mem_names, store.ascending_names, ?_⟩, ?_, ?_, ?_⟩
  · rw [hresponse]
    exact ⟨rfl, rfl, rfl⟩
  · exact (Name.nodup_of_ascending store.ascending_names).map fun a b => Name.text_injective
  · intro admin hadmin
    have hall : shown store admin.user = store.names := by simp [shown, hadmin]
    rw [← hall]
    exact congrArg Response.rows (response_showNamespaces store admin.user)
  · intro hadmin
    have hsome : shown store session.user = store.names.filter fun n =>
        authorizes store session.user n .showNamespaces := by simp [shown, hadmin]
    rw [hresponse, hsome]
    rfl
  · intro n hn
    rw [hresponse] at hn
    have hshown : n ∈ shown store session.user := Name.text_mem_map_iff.mp hn
    exact congrArg Response.status (response_useNamespace_of_mem_shown hshown)

/-- A namespace on which a role lets nothing be seen and one that is not there are passed over. -/
example :
    let acme : Name := ⟨["acme"], by decide, by decide⟩
    let lab : Name := ⟨["acme", "lab"], by decide, by decide⟩
    let globex : Name := ⟨["globex"], by decide, by decide⟩
    let ann := (((User.regular "ann").withRole acme "viewer").withRole lab "viewer").withRole
      globex "viewer"
    let store := Store.empty.afterAll
      [.insert acme [⟨"builder", .showNamespaces⟩], .insert lab [⟨"viewer", .showNamespaces⟩]]
    (showNamespaces .none store (.administrator "root")).rows = ["acme", "acme.lab"] ∧
      (showNamespaces .none store ann).rows = ["acme.lab"] := by decide

end Execution

end NamespaceControl
