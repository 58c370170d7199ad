import NamespaceControl.Proofs.Execution.Report
import NamespaceControl.Proofs.Execution.View
import NamespaceControl.Proofs.Session.Shared

/-!
# Statements that commute

Statements about two names that are different and not parent and child (`Name.Apart`) can be run in
either order. What the one changes the other does not see, so it comes to the same before and after
it; and their changes, each at its own name, lead to one store in both orders. This holds for
siblings, whose changes meet in the record of their parent, and for a name far above another.
-/

namespace NamespaceControl

open Command (Statement)

/-- Two names are apart if they are different and neither is the parent of the other. -/
structure Name.Apart (n m : Name) : Prop where
  /-- They are different. -/
  ne : n ≠ m
  /-- The first is not the parent of the second. -/
  not_parent : m.parent? ≠ some n
  /-- The first is not a child of the second. -/
  not_child : n.parent? ≠ some m

/-- Two names are apart from each other. -/
theorem Name.Apart.symm {n m : Name} (h : n.Apart m) : m.Apart n :=
  ⟨Ne.symm h.ne, h.not_child, h.not_parent⟩

namespace Execution

variable {s t a c d : Store} {e : Store.Edit} {n m k : Name} {user : User}
  {permission : Permission}

/-! ## Changes apart from each other -/

/-- A user is allowed the same on other names than that of an edit. -/
theorem allowed_iff_of_makes (h : e.Makes m s t) (hk : k ≠ m) :
    Allowed s user k permission ↔ Allowed t user k permission := by
  simp only [Allowed, authorizes, h.hasPermission_of_ne hk]

/-- An edit is not seen from a name apart from its own. -/
theorem sameView_of_makes (h : e.Makes m s t) (hapart : n.Apart m) : SameView s t user n where
  contains_eq := (h.contains_of_ne hapart.ne).symm
  children_eq := (h.children_of_ne hapart.ne hapart.not_parent).symm
  drop_iff := allowed_iff_of_makes h hapart.ne
  contains_parent_eq p hp := by
    have hpm : p ≠ m := fun hpm => hapart.not_child (hpm ▸ hp)
    exact (h.contains_of_ne hpm).symm
  create_iff p hp := by
    have hpm : p ≠ m := fun hpm => hapart.not_child (hpm ▸ hp)
    exact allowed_iff_of_makes h hpm

/-- A store looks the same as itself. -/
theorem SameView.refl (s : Store) (user : User) (n : Name) : SameView s s user n :=
  ⟨rfl, rfl, Iff.rfl, fun _ _ => rfl, fun _ _ => Iff.rfl⟩

/-- A change at a name is not seen from a name apart from it. -/
theorem SameChange.sameView (h : SameChange m s s t c) (hapart : n.Apart m) :
    SameView s t user n := by
  cases h with
  | kept => exact .refl s user n
  | edited e hleft _ => exact sameView_of_makes hleft hapart

/-- Changes at two names that are apart lead to one store, whichever is made first. -/
theorem SameChange.comm (hapart : n.Apart m) (hn : SameChange n s t a d)
    (hm : SameChange m s a t c) : c = d := by
  cases hn with
  | kept =>
    cases hm with
    | kept => rfl
    | edited e hleft hright => exact hright.unique hleft
  | edited e hleft hright =>
    cases hm with
    | kept => exact hleft.unique hright
    | edited e' hleft' hright' =>
      exact Store.Edit.Makes.comm hapart.ne hapart.not_child hapart.not_parent
        hleft hright' hleft' hright

end Execution

namespace Shared

variable {ι : Type} [DecidableEq ι] {s : Shared ι} {x y : Request ι} {n m : Name}

/-! ## Requests apart from each other -/

omit [DecidableEq ι] in
/-- Only a selection changes the session that asks for it. -/
theorem session_execute_of_not_use (hs : s.store.IsTree) (hx : x.statement.target? = some n)
    (huse : x.statement ≠ .useNamespace n) : (s.execute x).session = s.sessions x.session := by
  refine (outcome_execute hs x).session_eq fun target htarget => ?_
  rw [htarget] at hx
  obtain rfl := Option.some.inj hx
  exact absurd htarget huse

/-- A request comes to the same before and after one about a name that is apart from its own. -/
theorem sameOutcome_after (hs : s.store.IsTree) (hx : x.statement.target? = some n)
    (hy : y.statement.target? = some m) (hapart : n.Apart m) :
    Execution.SameOutcome n s.store (s.after y).store (s.sessions x.session)
      ((s.after y).sessions x.session) (s.execute x) ((s.after y).execute x) := by
  have hself : Execution.SameOutcome m s.store s.store (s.sessions y.session)
      (s.sessions y.session) (s.execute y) (s.execute y) :=
    Execution.sameOutcome_execute hs hs rfl hy (.refl s.store (s.sessions y.session).user m)
  exact Execution.sameOutcome_execute hs (isTree_after hs y) (user_after hs y x.session).symm hx
    (hself.change.sameView hapart)

/-- A request that finds its session as it was leaves it as it would have before. -/
theorem session_execute_after (hs : s.store.IsTree) (hx : x.statement.target? = some n)
    (hy : y.statement.target? = some m) (hapart : n.Apart m)
    (hsession : (s.after y).sessions x.session = s.sessions x.session) :
    ((s.after y).execute x).session = (s.execute x).session := by
  rcases (sameOutcome_after hs hx hy hapart).session with ⟨hleft, hright⟩ | ⟨hleft, hright⟩
  · rw [hleft, hright, hsession]
  · rw [hleft, hright, hsession]

/-- Of two requests of one session, if the first is no selection, both orders leave the session
as the second leaves it. -/
theorem session_after_of_not_use (hs : s.store.IsTree) (hx : x.statement.target? = some n)
    (hy : y.statement.target? = some m) (hapart : n.Apart m) (hxy : x.session = y.session)
    (huse : x.statement ≠ .useNamespace n) :
    ((s.after x).execute y).session = ((s.after y).execute x).session := by
  have hstay : (s.after x).sessions y.session = s.sessions y.session := by
    rw [← hxy, sessions_after_self, session_execute_of_not_use hs hx huse]
  calc ((s.after x).execute y).session
      = (s.execute y).session := session_execute_after hs hy hx hapart.symm hstay
    _ = (s.after y).sessions y.session := (sessions_after_self s y).symm
    _ = (s.after y).sessions x.session := by rw [hxy]
    _ = ((s.after y).execute x).session :=
        (session_execute_of_not_use (isTree_after hs y) hx huse).symm

/-- Requests about names that are apart leave all sessions the same in both orders, unless they
are two selections of one session. -/
theorem sessions_comm (hs : s.store.IsTree) (hx : x.statement.target? = some n)
    (hy : y.statement.target? = some m) (hapart : n.Apart m)
    (huse : x.session = y.session →
      ¬ (x.statement = .useNamespace n ∧ y.statement = .useNamespace m)) :
    ((s.after x).after y).sessions = ((s.after y).after x).sessions := by
  funext i
  by_cases hxy : x.session = y.session
  · by_cases hi : i = y.session
    · subst hi
      rw [sessions_after_self, ← hxy, sessions_after_self]
      by_cases hxuse : x.statement = .useNamespace n
      · have hyuse : y.statement ≠ .useNamespace m := fun h => huse hxy ⟨hxuse, h⟩
        exact (session_after_of_not_use hs hy hx hapart.symm hxy.symm hyuse).symm
      · exact session_after_of_not_use hs hx hy hapart hxy hxuse
    · have hix : i ≠ x.session := hxy ▸ hi
      rw [sessions_after_of_ne _ hi, sessions_after_of_ne _ hix, sessions_after_of_ne _ hix,
        sessions_after_of_ne _ hi]
  · have hx' := session_execute_after hs hx hy hapart (sessions_after_of_ne s hxy)
    have hy' := session_execute_after hs hy hx hapart.symm (sessions_after_of_ne s (Ne.symm hxy))
    by_cases hi : i = x.session
    · subst hi
      rw [sessions_after_of_ne _ hxy, sessions_after_self, sessions_after_self, hx']
    · by_cases hiy : i = y.session
      · subst hiy
        rw [sessions_after_self, hy', sessions_after_of_ne _ hi, sessions_after_self]
      · rw [sessions_after_of_ne _ hiy, sessions_after_of_ne _ hi, sessions_after_of_ne _ hi,
          sessions_after_of_ne _ hiy]

/-- **Independent statements commute.** Two requests, each about a namespace, where the two names
are apart: in either order, and whatever calls fail, each of them gets the same response, and both
orders end in the same store and with the same selections. Only two selections of one session are
left out. -/
theorem independent_requests_commute (hs : s.store.Reachable) (hx : x.statement.target? = some n)
    (hy : y.statement.target? = some m) (hapart : n.Apart m)
    (huse : x.session = y.session →
      ¬ (x.statement = .useNamespace n ∧ y.statement = .useNamespace m)) :
    ((s.after y).execute x).response = (s.execute x).response ∧
    ((s.after x).execute y).response = (s.execute y).response ∧
    ((s.after x).after y).store = ((s.after y).after x).store ∧
    ((s.after x).after y).sessions = ((s.after y).after x).sessions := by
  have htree := hs.isTree
  have hxsame := sameOutcome_after htree hx hy hapart
  have hysame := sameOutcome_after htree hy hx hapart.symm
  exact ⟨hxsame.response_eq.symm, hysame.response_eq.symm,
    hxsame.change.comm hapart hysame.change, sessions_comm htree hx hy hapart huse⟩

/-- One session creates `acme.lab` and drops its sibling `acme.attic`: both are done in either
order, and the stores are the same, although both statements change what `acme` lists. -/
theorem independent_requests_commute_siblings :
    let acme : Name := ⟨["acme"], by decide, by decide⟩
    let lab : Name := ⟨["acme", "lab"], by decide, by decide⟩
    let attic : Name := ⟨["acme", "attic"], by decide, by decide⟩
    let s : Shared Unit :=
      ⟨Store.empty.afterAll [.create acme, .createChild acme attic],
        fun _ => .start (.administrator "root")⟩
    let x : Request Unit := ⟨(), .none, .createNamespace lab⟩
    let y : Request Unit := ⟨(), .none, .dropNamespace attic⟩
    lab.Apart attic ∧
      ((s.after y).execute x).response = .succeeded .ok "namespace created" ∧
      ((s.after x).execute y).response = .succeeded .ok "namespace dropped" ∧
      ((s.after x).after y).store = ((s.after y).after x).store := by
  intro acme lab attic s x y
  have hreachable : s.store.Reachable := ⟨[.create acme, .createChild acme attic], rfl⟩
  have hapart : lab.Apart attic := ⟨by decide, by decide, by decide⟩
  have hx : (s.execute x).response = .succeeded .ok "namespace created" := rfl
  have hy : (s.execute y).response = .succeeded .ok "namespace dropped" := rfl
  obtain ⟨hxsame, hysame, hstore, -⟩ := independent_requests_commute (x := x) (y := y) hreachable
    rfl rfl hapart fun _ huse => Statement.noConfusion huse.1
  exact ⟨hapart, hxsame.trans hx, hysame.trans hy, hstore⟩

end Shared

end NamespaceControl
