import NamespaceControl.Proofs.Session.Indistinguishable
import NamespaceControl.Proofs.User.Roles

/-!
# Users in each other's place

A session asks its user for the right to administrate and for the roles held, and for nothing else.
So a user who is alike can take the place of another: every statement gets the same response and
leaves the same store (`Execution.execute_of_alike`), and so does every run, also for the other
sessions that take part in it (`Shared.run_withUser`).
-/

namespace NamespaceControl

open Command (Statement)

variable {faults : Faults} {store : Store} {u v : User}

/-- The session of another user, with the same namespace selected. -/
def Session.withUser (session : Session) (v : User) : Session := { session with user := v }

/-! ## Statements -/

namespace Execution

/-- What is left behind by a statement that another user runs: only the user is another one. -/
def withUser (e : Execution) (v : User) : Execution := { e with session := e.session.withUser v }

/-- Users who are alike are authorized alike. -/
theorem authorizes_of_alike (h : u.Alike v) (n : Name) (permission : Permission) :
    authorizes store v n permission = authorizes store u n permission := by
  rw [authorizes, authorizes, h.rolesIn_eq]

/-- Users who are alike see the same of some names. -/
theorem visible_of_alike (h : u.Alike v) (names : List Name) (k : Nat) :
    visible faults store v k names = visible faults store u k names := by
  induction names generalizing k with
  | nil => rfl
  | cons n rest ih => simp only [visible, authorizes_of_alike h, ih]

/-- What is answered to a selection, and whether it is made, is the same for users who are alike,
whatever they have selected. -/
theorem exists_useNamespace_eq (u : User) (faults : Faults) (store : Store) (target : Name) :
    ∃ (selects : Bool) (response : Response), ∀ v, u.Alike v → ∀ selected,
      useNamespace faults store ⟨v, selected⟩ target =
        (⟨v, if selects then some target else selected⟩, response) := by
  -- a user with nothing selected shows what becomes of a selection
  refine ⟨(useNamespace faults store ⟨u, none⟩ target).1.selected.isSome,
    (useNamespace faults store ⟨u, none⟩ target).2, fun v h selected => ?_⟩
  simp only [useNamespace, h.admin_eq, User.namespaces_congr h.rolesIn_eq]
  split
  · rfl
  · rfl
  · split
    · rfl
    · rfl

/-- Users who are alike create namespaces alike. -/
theorem createNamespace_of_alike (h : u.Alike v) (target : Name) :
    createNamespace faults store v target = createNamespace faults store u target := by
  simp only [createNamespace, createRoot, createBelow, authorizes_of_alike h, h.admin_eq]

/-- Users who are alike drop namespaces alike. -/
theorem dropNamespace_of_alike (h : u.Alike v) (target : Name) :
    dropNamespace faults store v target = dropNamespace faults store u target := by
  simp only [dropNamespace, authorizes_of_alike h, h.admin_eq]

/-- Users who are alike are shown the same. -/
theorem showNamespaces_of_alike (h : u.Alike v) :
    showNamespaces faults store v = showNamespaces faults store u := by
  simp only [showNamespaces, visible_of_alike h, h.admin_eq,
    User.namespaces_congr h.rolesIn_eq]

/-- A statement goes the same way for users who are alike. -/
theorem execute_of_alike (h : u.Alike v) (faults : Faults) (store : Store)
    (selected : Option Name) (statement : Statement) :
    execute faults store ⟨v, selected⟩ statement =
      (execute faults store ⟨u, selected⟩ statement).withUser v := by
  cases statement with
  | useNamespace target =>
    obtain ⟨selects, response, huse⟩ := exists_useNamespace_eq u faults store target
    simp only [execute, huse v h, huse u (.refl u), withUser, Session.withUser]
  | createNamespace target =>
    simp only [execute, createNamespace_of_alike h, withUser, Session.withUser]
  | dropNamespace target =>
    simp only [execute, dropNamespace_of_alike h, withUser, Session.withUser]
  | showNamespaces =>
    simp only [execute, showNamespaces_of_alike h, withUser, Session.withUser]

/-- A session stays with its user. -/
theorem user_execute (faults : Faults) (store : Store) (session : Session)
    (statement : Statement) :
    (execute faults store session statement).session.user = session.user := by
  cases statement with
  | useNamespace target =>
    obtain ⟨selects, response, huse⟩ := exists_useNamespace_eq session.user faults store target
    exact congrArg (·.1.user) (huse session.user (.refl _) session.selected)
  | createNamespace | dropNamespace | showNamespaces => rfl

/-- A statement gets the same response for users who are alike, whatever they have selected. -/
theorem response_of_alike (h : u.Alike v) (faults : Faults) (store : Store)
    (selected selected' : Option Name) (statement : Statement) :
    (execute faults store ⟨u, selected⟩ statement).response =
      (execute faults store ⟨v, selected'⟩ statement).response := by
  cases statement with
  | useNamespace target =>
    obtain ⟨selects, response, huse⟩ := exists_useNamespace_eq u faults store target
    simp only [execute, huse u (.refl u), huse v h]
  | createNamespace | dropNamespace | showNamespaces => rw [execute_of_alike h]; rfl

end Execution

/-! ## Runs -/

namespace Shared

variable {ι : Type} [DecidableEq ι] {s : Shared ι} {i : ι}

/-- The sessions, one of them with another user. -/
def withUser (s : Shared ι) (i : ι) (v : User) : Shared ι where
  store := s.store
  sessions j := if j = i then (s.sessions j).withUser v else s.sessions j

/-- The session in question has the other user. -/
theorem sessions_withUser_self (s : Shared ι) (i : ι) (v : User) :
    (s.withUser i v).sessions i = (s.sessions i).withUser v := if_pos rfl

/-- The other sessions have their own users. -/
theorem sessions_withUser_of_ne {j : ι} (s : Shared ι) (v : User) (h : j ≠ i) :
    (s.withUser i v).sessions j = s.sessions j := if_neg h

omit [DecidableEq ι] in
/-- States with the same store and the same sessions are the same. -/
theorem ext_sessions {t : Shared ι} (hstore : s.store = t.store)
    (hsessions : ∀ i, s.sessions i = t.sessions i) : s = t := by
  cases s
  cases t
  obtain rfl := hstore
  obtain rfl := funext hsessions
  rfl

/-- A request gets the same response, and leaves the same behind but for the user, if a user is
replaced by one who is alike. -/
theorem step_withUser (h : (s.sessions i).user.Alike v) (r : Request ι) :
    ((s.withUser i v).execute r).response = (s.execute r).response ∧
    (s.withUser i v).after r = (s.after r).withUser i v := by
  by_cases hr : r.session = i
  · subst hr
    have hexecute : (s.withUser r.session v).execute r = (s.execute r).withUser v := by
      rw [execute, sessions_withUser_self]
      exact Execution.execute_of_alike h r.faults s.store _ r.statement
    refine ⟨by rw [hexecute]; rfl, ext_sessions ?_ fun j => ?_⟩
    · show ((s.withUser r.session v).execute r).store = (s.execute r).store
      rw [hexecute]
      rfl
    · by_cases hj : j = r.session
      · subst hj
        rw [sessions_after_self, hexecute, sessions_withUser_self, sessions_after_self]
        rfl
      · rw [sessions_after_of_ne _ hj, sessions_withUser_of_ne s v hj,
          sessions_withUser_of_ne _ v hj, sessions_after_of_ne s hj]
  · have hexecute : (s.withUser i v).execute r = s.execute r := by
      rw [execute, sessions_withUser_of_ne s v hr]
      rfl
    refine ⟨congrArg Execution.response hexecute, ext_sessions ?_ fun j => ?_⟩
    · exact congrArg Execution.store hexecute
    · by_cases hj : j = r.session
      · subst hj
        rw [sessions_after_self, hexecute, sessions_withUser_of_ne _ v hr, sessions_after_self]
      · rw [sessions_after_of_ne _ hj]
        by_cases hi : j = i
        · subst hi
          rw [sessions_withUser_self, sessions_withUser_self, sessions_after_of_ne s hj]
        · rw [sessions_withUser_of_ne s v hi, sessions_withUser_of_ne _ v hi,
            sessions_after_of_ne s hj]

/-- The user of a session is alike another one after a request if so before it. -/
theorem alike_after (h : (s.sessions i).user.Alike v) (r : Request ι) :
    ((s.after r).sessions i).user.Alike v := by
  by_cases hr : i = r.session
  · subst hr
    rw [sessions_after_self, execute, Execution.user_execute]
    exact h
  · rw [sessions_after_of_ne s hr]
    exact h

/-- A run gets the same responses, and leaves the same behind but for the user, if a user is
replaced by one who is alike. -/
theorem run_withUser (h : (s.sessions i).user.Alike v) (requests : List (Request ι)) :
    (s.withUser i v).responses requests = s.responses requests ∧
    (s.withUser i v).afterAll requests = (s.afterAll requests).withUser i v := by
  induction requests generalizing s with
  | nil => exact ⟨rfl, rfl⟩
  | cons r rest ih =>
    obtain ⟨hresponse, hafter⟩ := step_withUser h r
    obtain ⟨hresponses, hafterAll⟩ := ih (alike_after h r)
    constructor
    · rw [responses, responses, hresponse, hafter, hresponses]
    · rw [afterAll, List.foldl_cons, hafter]
      exact hafterAll

/-- **The roles of a user are a set, however they were given.** Two users are made to hold the same
roles, which are given one after the other, in some order and perhaps repeatedly, or are listed in
an account, perhaps repeatedly and along with namespaces without roles. Then they list the same
namespaces, and in each the same roles, both in strictly ascending order: the roles that they were
given, and the namespaces in which there are some. If both are administrators or neither is, every
statement gets the same response for both of them, whatever is in the store and whichever of its
calls fail. And where one takes the place of the other among sessions that share a store, a run gets
the same responses for all sessions, and leaves the same behind. -/
theorem same_roles_same_responses {held : Name → String → Prop} {admin admin' : Bool} {u v : User}
    (hu : u.Made held admin) (hv : v.Made held admin') :
    (u.namespaces = v.namespaces ∧ ∀ n, u.rolesIn n = v.rolesIn n) ∧
    (u.admin = admin ∧ ∀ n role, role ∈ u.rolesIn n ↔ held n role) ∧
    (u.namespaces.Pairwise (fun a b => compare a b = .lt) ∧
      (∀ n, n ∈ u.namespaces ↔ u.rolesIn n ≠ []) ∧
      ∀ n, (u.rolesIn n).Pairwise fun a b => compare a b = .lt) ∧
    (admin = admin' →
      (∀ faults store selected selected' statement,
        (NamespaceControl.execute faults store ⟨u, selected⟩ statement).response =
          (NamespaceControl.execute faults store ⟨v, selected'⟩ statement).response) ∧
      ∀ (s : Shared ι) (i : ι), (s.sessions i).user = u → ∀ requests,
        (s.withUser i v).responses requests = s.responses requests ∧
        (s.withUser i v).afterAll requests = (s.afterAll requests).withUser i v) := by
  have hroles := User.rolesIn_eq_of_made hu hv
  refine ⟨⟨User.namespaces_congr hroles, hroles⟩,
    ⟨User.admin_of_made hu, fun _ _ => User.mem_rolesIn_of_made hu⟩,
    ⟨u.ascending_namespaces, fun _ => User.mem_namespaces_iff, u.ascending_rolesIn⟩, ?_⟩
  rintro rfl
  have halike : u.Alike v := User.alike_of_made hu hv
  refine ⟨Execution.response_of_alike halike, ?_⟩
  rintro s i rfl requests
  exact run_withUser halike requests

/-- An account that lists one role twice, and a namespace without roles, makes a user who is kept in
another way than one who is given the roles one after the other; but both get the same responses. -/
theorem same_roles_same_responses_viewer :
    let acme : Name := ⟨["acme"], by decide, by decide⟩
    let lab : Name := ⟨["acme", "lab"], by decide, by decide⟩
    let account : Account :=
      ⟨"ann", false, ((∅ : Std.ExtTreeMap Name (List String)).insert lab []).insert acme
        ["viewer", "builder", "viewer"]⟩
    let pairs := [(acme, "builder"), (acme, "viewer"), (acme, "builder")]
    let ann := account.user
    let bob := (User.regular "bob").withRoles pairs
    let s : Shared Unit := ⟨Store.empty.afterAll [.insert acme [⟨"builder", .createNamespace⟩]],
      fun _ => .start ann⟩
    let requests : List (Request Unit) := [⟨(), .none, .createNamespace lab⟩,
      ⟨(), .none, .useNamespace lab⟩, ⟨(), .none, .useNamespace acme⟩]
    ann.Made (fun n role => (n, role) ∈ pairs) false ∧
      bob.Made (fun n role => (n, role) ∈ pairs) false ∧
      ann.roles.contains lab = true ∧ bob.roles.contains lab = false ∧
      (s.withUser () bob).responses requests = s.responses requests ∧
      (s.responses requests).map Response.status = [.ok, .unauthorized, .ok] := by
  intro acme lab account pairs ann bob s requests
  have hann : ann.Made (fun n role => (n, role) ∈ pairs) false := by
    refine .account account fun n role => ?_
    simp only [Account.Lists, account, pairs, Std.ExtTreeMap.getElem?_insert,
      Std.LawfulEqCmp.compare_eq_iff_eq]
    have hne : acme ≠ lab := by decide
    by_cases hacme : acme = n
    · subst hacme
      have hrepeated : role ∈ ["viewer", "builder", "viewer"] ↔
          role ∈ ["builder", "viewer", "builder"] := by grind
      simpa using hrepeated
    · by_cases hlab : lab = n
      · subst hlab
        simp [hne, hne.symm]
      · simp [hacme, hlab, Ne.symm hacme]
  have hbob : bob.Made (fun n role => (n, role) ∈ pairs) false :=
    .regular "bob" pairs fun _ _ => Iff.rfl
  have hrun := ((same_roles_same_responses hann hbob).2.2.2 rfl).2 s () rfl requests
  exact ⟨hann, hbob, by decide, by decide, hrun.1, by decide⟩

end Shared

end NamespaceControl
