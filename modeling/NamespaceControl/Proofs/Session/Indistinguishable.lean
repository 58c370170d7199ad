import NamespaceControl.Proofs.Execution.View
import NamespaceControl.Proofs.Session.Shared
import NamespaceControl.Proofs.Store.Listing

/-!
# Grants that do not show

Two stores with the same namespaces may differ in what is granted on them. Sessions can tell this
only by grants of a permission that statements ask for, made to a role that a user who is no
administrator holds on that very namespace (`Shared.Matters`). Where two stores agree in these
(`Store.Agree`), every run gives the same responses and selections on both and leaves stores that
agree again: one statement keeps the agreement, because it sees the same of both stores, and so a
run does.
-/

namespace NamespaceControl

open Command (Statement)

/-! ## Stores that agree -/

namespace Store

/-- Two stores have the same namespaces, and agree in the grants that matter. -/
structure Agree (s t : Store) (matters : Name → String → Permission → Prop) : Prop where
  /-- The same namespaces exist. -/
  contains_eq : ∀ n, s.contains n = t.contains n
  /-- A grant that matters is made in both or in neither. -/
  hasPermission_eq : ∀ n role permission, matters n role permission →
    s.hasPermission n role permission = t.hasPermission n role permission

variable {s t s' t' : Store} {n : Name} {matters : Name → String → Permission → Prop}

/-- Stores that agree still do so after the same edit. -/
theorem Agree.edit {e : Edit} (h : s.Agree t matters) (hs : e.Makes n s s')
    (ht : e.Makes n t t') : s'.Agree t' matters where
  contains_eq m := by
    by_cases hm : m = n
    · subst hm
      rw [Store.contains_eq, Store.contains_eq, hs.record?_self, ht.record?_self]
    · rw [hs.contains_of_ne hm, ht.contains_of_ne hm]
      exact h.contains_eq m
  hasPermission_eq m role permission hmatters := by
    by_cases hm : m = n
    · subst hm
      rw [hasPermission, hasPermission, hs.record?_self, ht.record?_self]
    · rw [hs.hasPermission_of_ne hm, ht.hasPermission_of_ne hm]
      exact h.hasPermission_eq m role permission hmatters

end Store

/-! ## What a user sees of stores that agree -/

namespace Execution

variable {s t : Store} {user : User} {n : Name} {permission : Permission}
  {matters : Name → String → Permission → Prop}

/-- The permissions that statements ask for. -/
def checked : List Permission := [.createNamespace, .dropNamespace, .showNamespaces]

/-- The grants by which a user is authorized matter, unless the user is an administrator. -/
def Heeds (matters : Name → String → Permission → Prop) (user : User) : Prop :=
  user.admin = false → ∀ n, ∀ role ∈ user.rolesIn n, ∀ permission ∈ checked,
    matters n role permission

/-- A user whose grants matter is authorized in both stores or in neither. -/
theorem authorizes_congr (h : s.Agree t matters) (hheeds : Heeds matters user)
    (hadmin : user.admin = false) (hchecked : permission ∈ checked) (n : Name) :
    authorizes s user n permission = authorizes t user n permission := by
  rw [Bool.eq_iff_iff, authorizes_iff, authorizes_iff]
  refine exists_congr fun role => and_congr_right fun hrole => ?_
  rw [h.hasPermission_eq n role permission (hheeds hadmin n role hrole permission hchecked)]

/-- A user whose grants matter is allowed the same in both stores. -/
theorem allowed_congr (h : s.Agree t matters) (hheeds : Heeds matters user)
    (hchecked : permission ∈ checked) (n : Name) :
    Allowed s user n permission ↔ Allowed t user n permission := by
  unfold Allowed
  cases hadmin : user.admin with
  | true => simp
  | false => rw [authorizes_congr h hheeds hadmin hchecked]

/-- Trees that agree look the same to a user whose grants matter. -/
theorem sameView_of_agree (hs : s.IsTree) (ht : t.IsTree) (h : s.Agree t matters)
    (hheeds : Heeds matters user) (n : Name) : SameView s t user n where
  contains_eq := h.contains_eq n
  children_eq := hs.children_congr ht h.contains_eq n
  drop_iff := allowed_congr h hheeds (by decide) n
  contains_parent_eq p _ := h.contains_eq p
  create_iff p _ := allowed_congr h hheeds (by decide) p

/-- A user who is authorized in both stores or in neither is shown the same names. -/
theorem visible_congr {faults : Faults} {names : List Name}
    (hcontains : ∀ n, s.contains n = t.contains n)
    (hauthorizes : ∀ n, authorizes s user n .showNamespaces = authorizes t user n .showNamespaces)
    (k : Nat) : visible faults s user k names = visible faults t user k names := by
  induction names generalizing k with
  | nil => rfl
  | cons n rest ih =>
    simp only [visible, Store.get_congr (hcontains n), hauthorizes, ih]

/-- A user whose grants matter is shown the same of stores that agree. -/
theorem showNamespaces_congr {faults : Faults} (h : s.Agree t matters)
    (hheeds : Heeds matters user) :
    showNamespaces faults s user = showNamespaces faults t user := by
  unfold showNamespaces
  cases hadmin : user.admin with
  | true => simp only [Store.names_congr h.contains_eq, ↓reduceIte]
  | false =>
    have hauthorizes : ∀ n, authorizes s user n .showNamespaces =
        authorizes t user n .showNamespaces :=
      authorizes_congr h hheeds hadmin (by decide)
    simp only [visible_congr h.contains_eq hauthorizes, Bool.false_eq_true, ↓reduceIte]

/-- Stores that agree still do so when they are changed in the same way. -/
theorem agree_of_sameChange {s' t' : Store} (h : s.Agree t matters)
    (hchange : SameChange n s t s' t') : s'.Agree t' matters := by
  cases hchange with
  | kept => exact h
  | edited e hleft hright => exact h.edit hleft hright

/-- A statement of a user whose grants matter gets the same response on trees that agree, leaves
the same session, and leaves stores that agree. -/
theorem execute_congr (hs : s.IsTree) (ht : t.IsTree) (h : s.Agree t matters) {session : Session}
    (hheeds : Heeds matters session.user) (faults : Faults) (statement : Statement) :
    (execute faults s session statement).response = (execute faults t session statement).response ∧
    (execute faults s session statement).session = (execute faults t session statement).session ∧
    (execute faults s session statement).store.Agree (execute faults t session statement).store
      matters := by
  cases htarget : statement.target? with
  | none =>
    obtain rfl : statement = .showNamespaces := by
      cases statement with
      | showNamespaces => rfl
      | useNamespace | createNamespace | dropNamespace => cases htarget
    exact ⟨showNamespaces_congr h hheeds, rfl, h⟩
  | some n =>
    have hview := sameView_of_agree hs ht h hheeds n
    have hsame : SameOutcome n s t session session (execute faults s session statement)
        (execute faults t session statement) := sameOutcome_execute hs ht rfl htarget hview
    refine ⟨hsame.response_eq, ?_, agree_of_sameChange h hsame.change⟩
    rcases hsame.session with ⟨hleft, hright⟩ | ⟨hleft, hright⟩
    · rw [hleft, hright]
    · rw [hleft, hright]

end Execution

/-! ## Runs on two stores -/

namespace Shared

variable {ι : Type} [DecidableEq ι] {s t : Shared ι}

omit [DecidableEq ι] in
/-- The grants that can show: those of a permission that statements ask for, to a role that a user
who is no administrator holds on that very namespace. -/
def Matters (s : Shared ι) (n : Name) (role : String) (permission : Permission) : Prop :=
  permission ∈ Execution.checked ∧
    ∃ i, (s.sessions i).user.admin = false ∧ role ∈ (s.sessions i).user.rolesIn n

/-- The responses to some requests, in their order. -/
def responses (s : Shared ι) : List (Request ι) → List Response
  | [] => []
  | r :: rest => (s.execute r).response :: (s.after r).responses rest

/-- A run goes the same way from two states, whose stores agree again at its end. -/
structure SameRun (s t : Shared ι) (requests : List (Request ι)) : Prop where
  /-- The responses are the same. -/
  responses_eq : s.responses requests = t.responses requests
  /-- All sessions are the same at the end, with what they have selected. -/
  sessions_eq : (s.afterAll requests).sessions = (t.afterAll requests).sessions
  /-- The same names are there at the end. -/
  names_eq : (s.afterAll requests).store.names = (t.afterAll requests).store.names
  /-- The stores agree at the end. -/
  agree : (s.afterAll requests).store.Agree (t.afterAll requests).store s.Matters

omit [DecidableEq ι] in
/-- The grants of every session's user matter. -/
theorem heeds_matters (s : Shared ι) (i : ι) :
    Execution.Heeds s.Matters (s.sessions i).user :=
  fun hadmin _ _ hrole _ hchecked => ⟨hchecked, i, hadmin, hrole⟩

/-- The same grants matter after a request, since every session keeps its user. -/
theorem matters_after (hs : s.store.IsTree) (r : Request ι) : (s.after r).Matters = s.Matters := by
  funext n role permission
  simp only [Matters, user_after hs]

/-- A request goes the same way from two states whose stores agree. -/
theorem step_congr (hs : s.store.IsTree) (ht : t.store.IsTree) (hsessions : s.sessions = t.sessions)
    (h : s.store.Agree t.store s.Matters) (r : Request ι) :
    (s.execute r).response = (t.execute r).response ∧
    (s.after r).sessions = (t.after r).sessions ∧
    (s.after r).store.Agree (t.after r).store s.Matters := by
  obtain ⟨hresponse, hsession, hagree⟩ :=
    Execution.execute_congr hs ht h (s.heeds_matters r.session) r.faults r.statement
  have hrun : t.execute r =
      NamespaceControl.execute r.faults t.store (s.sessions r.session) r.statement := by
    rw [execute, hsessions]
  refine ⟨?_, ?_, ?_⟩
  · rw [hrun]
    exact hresponse
  · funext i
    simp only [after, hrun, ← hsessions]
    split
    · exact hsession
    · rfl
  · show (s.execute r).store.Agree (t.execute r).store s.Matters
    rw [hrun]
    exact hagree

/-- Every run goes the same way from two states whose stores agree. -/
theorem sameRun_of_agree (hs : s.store.IsTree) (ht : t.store.IsTree)
    (hsessions : s.sessions = t.sessions) (h : s.store.Agree t.store s.Matters)
    (requests : List (Request ι)) : s.SameRun t requests := by
  induction requests generalizing s t with
  | nil => exact ⟨rfl, hsessions, Store.names_congr h.contains_eq, h⟩
  | cons r rest ih =>
    obtain ⟨hresponse, hsessions', hagree⟩ := step_congr hs ht hsessions h r
    rw [← matters_after hs r] at hagree
    have hrest := ih (isTree_after hs r) (isTree_after ht r) hsessions' hagree
    refine ⟨?_, hrest.sessions_eq, hrest.names_eq, ?_⟩
    · rw [responses, responses, hresponse, hrest.responses_eq]
    · rw [← matters_after hs r]
      exact hrest.agree

/-- **Grants that a user does not hold do not influence the user.** Given two stores with the same
names, and the same sessions: if the stores agree in every grant that can show, every run goes the
same way on both. So it does, whatever is granted, if all users are administrators; and if the
stores differ in nothing but grants to use a namespace. -/
theorem grants_not_held_invisible (hs : s.store.Reachable) (ht : t.store.Reachable)
    (hsessions : s.sessions = t.sessions) (hnames : s.store.names = t.store.names)
    (requests : List (Request ι)) :
    ((∀ n role permission, s.Matters n role permission →
        s.store.hasPermission n role permission = t.store.hasPermission n role permission) →
      s.SameRun t requests) ∧
    ((∀ i, (s.sessions i).user.admin = true) → s.SameRun t requests) ∧
    ((∀ n role permission, permission ≠ .useNamespace →
        s.store.hasPermission n role permission = t.store.hasPermission n role permission) →
      s.SameRun t requests) := by
  have hcontains : ∀ n, s.store.contains n = t.store.contains n := by
    intro n
    rw [Bool.eq_iff_iff, ← Store.mem_names, ← Store.mem_names, hnames]
  have hrun : (∀ n role permission, s.Matters n role permission →
      s.store.hasPermission n role permission = t.store.hasPermission n role permission) →
      s.SameRun t requests :=
    fun hgrants => sameRun_of_agree hs.isTree ht.isTree hsessions ⟨hcontains, hgrants⟩ requests
  refine ⟨hrun, fun hadmin => hrun ?_, fun hgrants => hrun ?_⟩
  · rintro n role permission ⟨-, i, hi, -⟩
    rw [hadmin i] at hi
    cases hi
  · rintro n role permission ⟨hchecked, -⟩
    refine hgrants n role permission ?_
    rintro rfl
    exact absurd hchecked (by decide)

/-- A role that lets its holders drop `acme` makes no difference to a user who holds another role
there, and neither does a grant to use `acme`: whatever the user asks for, the responses are the
same as without both. -/
theorem grants_not_held_invisible_acme :
    let acme : Name := ⟨["acme"], by decide, by decide⟩
    let lab : Name := ⟨["acme", "lab"], by decide, by decide⟩
    let bob := (User.regular "bob").withRole acme "member"
    let few : List Grant := [⟨"member", .createNamespace⟩]
    let more : List Grant :=
      [⟨"member", .createNamespace⟩, ⟨"owner", .dropNamespace⟩, ⟨"member", .useNamespace⟩]
    let s : Shared Unit := ⟨Store.empty.afterAll [.insert acme few], fun _ => .start bob⟩
    let t : Shared Unit := ⟨Store.empty.afterAll [.insert acme more], fun _ => .start bob⟩
    let requests : List (Request Unit) :=
      [⟨(), .none, .createNamespace lab⟩, ⟨(), .none, .dropNamespace acme⟩,
        ⟨(), .none, .useNamespace acme⟩]
    t.store.hasPermission acme "owner" .dropNamespace = true ∧
      s.store.hasPermission acme "owner" .dropNamespace = false ∧
      s.responses requests = t.responses requests := by
  intro acme lab bob few more s t requests
  have hs : s.store.Reachable := ⟨[.insert acme few], rfl⟩
  have ht : t.store.Reachable := ⟨[.insert acme more], rfl⟩
  have hnames : s.store.names = t.store.names := by decide
  refine ⟨by decide, by decide, ?_⟩
  refine ((grants_not_held_invisible hs ht rfl hnames requests).1 ?_).responses_eq
  rintro n role permission ⟨hchecked, i, -, hrole⟩
  have hrole : role ∈ bob.rolesIn n := hrole
  have hheld : n = acme ∧ role = "member" := by
    simp only [bob, User.rolesIn, User.withRole, User.regular, Std.ExtTreeMap.getD_insert,
      Std.LawfulEqCmp.compare_eq_iff_eq] at hrole
    split at hrole
    · next hn =>
      have hmember : "member" = role := by simpa using hrole
      exact ⟨hn.symm, hmember.symm⟩
    · simp at hrole
  obtain ⟨rfl, rfl⟩ := hheld
  cases permission with
  | useNamespace => exact absurd hchecked (by decide)
  | createNamespace | dropNamespace | showNamespaces => decide

end Shared

end NamespaceControl
