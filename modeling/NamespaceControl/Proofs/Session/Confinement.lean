import NamespaceControl.Proofs.Session.Shared

/-!
# Runs that escalate nothing

However the statements of several sessions follow each other, nothing is granted at the end that
was not granted at the start. Hence what users do who are no administrators stays within what was
granted to them at the start: they create only children of namespaces on which they could create
from the beginning, and what they create is of no use to them, since nobody grants them anything
on it.
-/

namespace NamespaceControl.Shared

open Command (Statement)

variable {ι : Type} [DecidableEq ι] {s : Shared ι} {n : Name} {r : Request ι}

/-- What a user who is no administrator creates is no root: its parent is a namespace on which one
of the user's roles is granted to create. -/
theorem Creates.exists_parent (h : s.Creates r n) (hs : s.store.IsTree)
    (hadmin : (s.sessions r.session).user.admin = false) :
    ∃ p, n.parent? = some p ∧ ∃ role ∈ (s.sessions r.session).user.rolesIn p,
      s.store.hasPermission p role .createNamespace = true :=
  (outcome_execute hs r).exists_parent_of_absent hadmin h.1 h.2

/-- A namespace that was created in a run is bare from then on, as long as no session belongs to an
administrator. -/
theorem Creates.stays_bare {before between : List (Request ι)}
    (h : (s.afterAll before).Creates r n) (hs : s.store.IsTree)
    (hadmin : ∀ next ∈ between, (s.sessions next.session).user.admin = false) :
    (s.afterAll (before ++ r :: between)).store.Bare n := by
  have hbefore : (s.afterAll before).store.IsTree := isTree_afterAll hs before
  have hcreated : ((s.afterAll before).after r).store.Bare n :=
    ((outcome_execute hbefore r).created_of_absent h.1 h.2).1.bare
  rw [afterAll_append]
  apply bare_afterAll (isTree_after hbefore r) _ hcreated
  intro next hnext
  rw [user_after hbefore, user_afterAll hs]
  exact hadmin next hnext

/-- A user who is no administrator neither sees a bare namespace nor drops it nor creates a child
of it. -/
theorem inert_of_bare (hs : s.store.IsTree) (hadmin : (s.sessions r.session).user.admin = false)
    (hbare : s.store.Bare n) :
    n.text ∉ (s.execute r).response.rows ∧ ¬ s.Drops r n ∧
      ∀ c, c.parent? = some n → ¬ s.Creates r c := by
  have houtcome := outcome_execute hs r
  refine ⟨houtcome.text_not_mem_rows_of_bare hadmin hbare, ?_, ?_⟩
  · rintro ⟨-, hgone⟩
    have hkept := (houtcome.bare hs hadmin hbare).present
    exact Bool.false_ne_true (hgone.symm.trans hkept)
  · rintro c hc ⟨habsent, hthere⟩
    have hgone := houtcome.absent_of_bare hadmin hbare hc habsent
    exact Bool.false_ne_true (hgone.symm.trans hthere)

/-- **No statement escalates privileges.** Whatever sessions ask for in whatever order, and
whatever calls fail: every permission that a role has on a namespace after the run it had there
before. If no session of the run belongs to an administrator, then every namespace that is created
is no root, and it is the child of a namespace that was there when the run began, with a role of
its creator being granted to create on it then; it is there when the run ends; and after its
creation no listing of the run shows it, and no statement of the run drops it or creates a child
of it. -/
theorem privileges_confined (hs : s.store.Reachable) (requests : List (Request ι)) :
    (∀ n role permission, (s.afterAll requests).store.hasPermission n role permission = true →
      s.store.hasPermission n role permission = true) ∧
    ((∀ r ∈ requests, (s.sessions r.session).user.admin = false) →
      ∀ before r later, requests = before ++ r :: later →
      ∀ n, (s.afterAll before).Creates r n →
        n.isRoot = false ∧
        (∃ p, n.parent? = some p ∧ s.store.contains p = true ∧
          ∃ role ∈ (s.sessions r.session).user.rolesIn p,
            s.store.hasPermission p role .createNamespace = true) ∧
        (s.afterAll requests).store.contains n = true ∧
        ∀ between next rest, later = between ++ next :: rest →
          n.text ∉ ((s.afterAll (before ++ r :: between)).execute next).response.rows ∧
          ¬ (s.afterAll (before ++ r :: between)).Drops next n ∧
          ∀ c, c.parent? = some n → ¬ (s.afterAll (before ++ r :: between)).Creates next c) := by
  have htree := hs.isTree
  refine ⟨fun n role permission => hasPermission_before_afterAll htree, ?_⟩
  rintro hadmin before r later rfl n hcreates
  have hr : ((s.afterAll before).sessions r.session).user.admin = false := by
    rw [user_afterAll htree]
    exact hadmin r (List.mem_append_right _ List.mem_cons_self)
  have hlater : ∀ next ∈ later, (s.sessions next.session).user.admin = false := by
    intro next hnext
    exact hadmin next (List.mem_append_right _ (List.mem_cons_of_mem r hnext))
  obtain ⟨p, hp, role, hrole, hgranted⟩ :=
    hcreates.exists_parent (isTree_afterAll htree before) hr
  rw [user_afterAll htree] at hrole
  have hstart := hasPermission_before_afterAll htree hgranted
  refine ⟨?_, ⟨p, hp, Store.contains_of_hasPermission hstart, role, hrole, hstart⟩, ?_, ?_⟩
  · rw [← Bool.not_eq_true, ← Name.parent?_eq_none_iff, hp]
    simp
  · exact (hcreates.stays_bare htree hlater).present
  · rintro between next rest rfl
    have hbare : (s.afterAll (before ++ r :: between)).store.Bare n := by
      apply hcreates.stays_bare htree
      intro past hpast
      exact hlater past (List.mem_append_left _ hpast)
    apply inert_of_bare (isTree_afterAll htree _) _ hbare
    rw [user_afterAll htree]
    exact hlater next (List.mem_append_right _ List.mem_cons_self)

/-- Two users, who hold a role that is granted everything on `acme`, and one of whom holds it on
`acme.lab` too: when the other creates `acme.lab`, it is neither shown to the one who is waiting
for it nor dropped by its creator. -/
theorem privileges_confined_lab :
    let acme : Name := ⟨["acme"], by decide, by decide⟩
    let lab : Name := ⟨["acme", "lab"], by decide, by decide⟩
    let grants : List Grant :=
      [⟨"owner", .createNamespace⟩, ⟨"owner", .dropNamespace⟩, ⟨"owner", .showNamespaces⟩]
    let ann := (User.regular "ann").withRole acme "owner"
    let bob := ((User.regular "bob").withRole acme "owner").withRole lab "owner"
    let s : Shared Bool :=
      ⟨Store.empty.afterAll [.insert acme grants], fun i => .start (if i then ann else bob)⟩
    let create : Request Bool := ⟨true, .none, .createNamespace lab⟩
    let list : Request Bool := ⟨false, .none, .showNamespaces⟩
    let drop : Request Bool := ⟨true, .none, .dropNamespace lab⟩
    s.store.Reachable ∧ s.Creates create lab ∧
      lab.text ∉ ((s.after create).execute list).response.rows ∧
      (s.afterAll [create, list, drop]).store.contains lab = true := by
  intro acme lab grants ann bob s create list drop
  have hreachable : s.store.Reachable := ⟨[.insert acme grants], rfl⟩
  have hadmin : ∀ r ∈ [create, list, drop], (s.sessions r.session).user.admin = false := by
    decide
  have hcreates : s.Creates create lab := ⟨by decide, by decide⟩
  obtain ⟨-, hrun⟩ := privileges_confined hreachable [create, list, drop]
  obtain ⟨-, -, hstays, hlater⟩ := hrun hadmin [] create [list, drop] rfl lab hcreates
  exact ⟨hreachable, hcreates, (hlater [] list [drop] rfl).1, hstays⟩

end NamespaceControl.Shared
