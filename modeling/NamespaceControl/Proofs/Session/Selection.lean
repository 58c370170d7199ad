import NamespaceControl.Proofs.Execution.Visibility
import NamespaceControl.Proofs.Session.Shared

/-!
# What is selected

A session has selected what it asked for in its last selection that was answered with `OK`
(`Shared.LastSelects`). Nothing else touches a selection: no other statement, no selection that is
refused, nothing that another session does, and no removal of the namespace that is selected. If no
call fails, whether a selection is answered with `OK` is a matter of the namespace being there and
of a role being held on it, whatever that role is granted.
-/

namespace NamespaceControl

open Command (Statement)

namespace Shared

variable {ι : Type} [DecidableEq ι] {s : Shared ι} {r : Request ι} {requests : List (Request ι)}
  {i : ι} {n : Name}

/-! ## Selections -/

/-- A request selects a namespace for a session: it is the session that asks for the selection, and
the answer is `OK`. -/
structure Selects (s : Shared ι) (r : Request ι) (i : ι) (n : Name) : Prop where
  /-- The session asks. -/
  session : r.session = i
  /-- It asks to select the namespace. -/
  statement : r.statement = .useNamespace n
  /-- The answer is `OK`. -/
  ok : (s.execute r).response.status = .ok

/-- No request of a run selects anything for a session. -/
def SelectsNothing (s : Shared ι) (i : ι) : List (Request ι) → Prop
  | [] => True
  | r :: rest => (∀ n, ¬ s.Selects r i n) ∧ (s.after r).SelectsNothing i rest

/-- A request of the run selects a namespace for a session, and none behind it selects anything for
that session. -/
def LastSelects (s : Shared ι) (requests : List (Request ι)) (i : ι) (n : Name) : Prop :=
  ∃ before r later, requests = before ++ r :: later ∧ (s.afterAll before).Selects r i n ∧
    ((s.afterAll before).after r).SelectsNothing i later

/-! ## One request -/

/-- What a request selects is selected behind it. -/
theorem Selects.selected_after (h : s.Selects r i n) :
    ((s.after r).sessions i).selected = some n := by
  obtain ⟨rfl, hstatement, hok⟩ := h
  rw [sessions_after_self]
  unfold execute at hok ⊢
  rw [hstatement] at hok ⊢
  rw [(Execution.outcome_useNamespace n).session_eq_of_ok hok]
  rfl

/-- A request that selects nothing for a session leaves its selection. -/
theorem selected_after_of_not_selects (h : ∀ n, ¬ s.Selects r i n) :
    ((s.after r).sessions i).selected = (s.sessions i).selected := by
  by_cases hi : i = r.session
  · subst hi
    rw [sessions_after_self]
    unfold execute
    cases hstatement : r.statement with
    | useNamespace target =>
      rw [(Execution.outcome_useNamespace target).session_eq]
      rintro target' htarget hok
      obtain rfl := Statement.useNamespace.inj htarget
      refine h target ⟨rfl, hstatement, ?_⟩
      rwa [execute, hstatement]
    | createNamespace _ | dropNamespace _ | showNamespaces => rfl
  · rw [sessions_after_of_ne s hi]

/-! ## Runs -/

/-- A run that selects nothing for a session leaves its selection. -/
theorem SelectsNothing.selected_afterAll (h : s.SelectsNothing i requests) :
    ((s.afterAll requests).sessions i).selected = (s.sessions i).selected := by
  induction requests generalizing s with
  | nil => rfl
  | cons r rest ih =>
    obtain ⟨hr, hrest⟩ := h
    exact (ih hrest).trans (selected_after_of_not_selects hr)

/-- What a run selects last for a session is selected behind it. -/
theorem LastSelects.selected_afterAll (h : s.LastSelects requests i n) :
    ((s.afterAll requests).sessions i).selected = some n := by
  obtain ⟨before, r, later, rfl, hselects, hlater⟩ := h
  rw [afterAll_append]
  exact hlater.selected_afterAll.trans hselects.selected_after

/-- In a run that does not select nothing for a session there is a last selection. -/
theorem exists_lastSelects (h : ¬ s.SelectsNothing i requests) :
    ∃ n, s.LastSelects requests i n := by
  induction requests generalizing s with
  | nil => exact absurd trivial h
  | cons r rest ih =>
    by_cases hrest : (s.after r).SelectsNothing i rest
    · have hr : ∃ n, s.Selects r i n := by
        by_contra hno
        exact h ⟨fun n hn => hno ⟨n, hn⟩, hrest⟩
      obtain ⟨n, hn⟩ := hr
      exact ⟨n, [], r, rest, rfl, hn, hrest⟩
    · obtain ⟨n, before, last, later, rfl, hlast, hlater⟩ := ih hrest
      exact ⟨n, r :: before, last, later, rfl, hlast, hlater⟩

/-- **A session has selected what its last selection was about.** Let any number of sessions that
have selected nothing run statements on one store, in any order and with any calls failing. Behind
every run a session has selected a namespace exactly if that is the target of its last selection
that was answered with `OK`, and nothing exactly if it had no such selection; and from whatever
state, a request that is no such selection of the session leaves what it has selected. If no call
fails, a selection is answered by whether the namespace is there, and then by whether the user is an
administrator or holds a role on exactly that namespace. -/
theorem selected_iff_lastSelects (hstart : ∀ i, (s.sessions i).selected = none) :
    (∀ requests i,
      (∀ n, ((s.afterAll requests).sessions i).selected = some n ↔ s.LastSelects requests i n) ∧
      (((s.afterAll requests).sessions i).selected = none ↔ s.SelectsNothing i requests)) ∧
    (∀ (t : Shared ι) r i, (∀ n, ¬ t.Selects r i n) →
      ((t.after r).sessions i).selected = (t.sessions i).selected) ∧
    ∀ store session n,
      (NamespaceControl.execute .none store session (.useNamespace n)).response =
        if store.contains n = false then Execution.missing n
        else if session.user.admin = true ∨ session.user.rolesIn n ≠ [] then .ok
        else .failed .unauthorized "" := by
  refine ⟨fun requests i => ?_, fun t r i => selected_after_of_not_selects,
    Execution.response_useNamespace⟩
  by_cases hnothing : s.SelectsNothing i requests
  · have hnone : ((s.afterAll requests).sessions i).selected = none :=
      hnothing.selected_afterAll.trans (hstart i)
    refine ⟨fun n => ⟨fun hn => ?_, LastSelects.selected_afterAll⟩, iff_of_true hnone hnothing⟩
    rw [hnone] at hn
    cases hn
  · obtain ⟨last, hlast⟩ := exists_lastSelects hnothing
    have hsome := hlast.selected_afterAll
    refine ⟨fun n => ⟨fun hn => ?_, LastSelects.selected_afterAll⟩, iff_of_false ?_ hnothing⟩
    · obtain rfl := Option.some.inj (hsome.symm.trans hn)
      exact hlast
    · rw [hsome]
      exact Option.some_ne_none last

/-- A user selects a namespace by a role that is granted nothing. The selection is there also when
an administrator has dropped the namespace, although it cannot be selected again. -/
theorem selected_iff_lastSelects_dropped :
    let acme : Name := ⟨["acme"], by decide, by decide⟩
    let ann := (User.regular "ann").withRole acme "guest"
    let root := User.administrator "root"
    let s : Shared Bool :=
      ⟨Store.empty.afterAll [.create acme], fun i => .start (if i then ann else root)⟩
    let pick : Request Bool := ⟨true, .none, .useNamespace acme⟩
    let drop : Request Bool := ⟨false, .none, .dropNamespace acme⟩
    (∀ i, (s.sessions i).selected = none) ∧
      (s.afterAll [pick, drop]).store.contains acme = false ∧
      ((s.afterAll [pick, drop, pick]).sessions true).selected = some acme ∧
      ((s.afterAll [pick, drop, pick]).sessions false).selected = none := by
  intro acme ann root s pick drop
  have hstart : ∀ i, (s.sessions i).selected = none := fun _ => rfl
  obtain ⟨hruns, -, -⟩ := selected_iff_lastSelects hstart
  have hleft : (s.afterAll [pick, drop]).store =
      ((s.store.erase acme).removeSubtrees []).unregister acme := rfl
  have hdropped : (s.afterAll [pick, drop]).store.contains acme = false := by
    have hunregister : ∀ t : Store, t.unregister acme = t := fun _ => rfl
    rw [hleft, hunregister, Store.removeSubtrees, Bool.eq_false_iff]
    exact fun h => (Store.contains_erase.mp h).1 rfl
  have hrefused : ((s.afterAll [pick, drop]).execute pick).response.status =
      .namespaceDoesNotExist := by
    have hresponse := Execution.response_useNamespace (s.afterAll [pick, drop]).store
      ((s.afterAll [pick, drop]).sessions true) acme
    rw [if_pos hdropped] at hresponse
    exact congrArg Response.status hresponse
  have hlast : s.LastSelects [pick, drop, pick] true acme := by
    refine ⟨[], pick, [drop, pick], rfl, ⟨rfl, rfl, by decide⟩, ?_, ?_, trivial⟩
    · rintro n ⟨hsession, -, -⟩
      cases hsession
    · rintro n ⟨-, -, hok⟩
      have hno : Status.namespaceDoesNotExist = .ok := hrefused.symm.trans hok
      cases hno
  have hnothing : s.SelectsNothing false [pick, drop, pick] := by
    refine ⟨?_, ?_, ?_, trivial⟩
    · rintro n ⟨hsession, -, -⟩
      cases hsession
    · rintro n ⟨-, hstatement, -⟩
      cases hstatement
    · rintro n ⟨hsession, -, -⟩
      cases hsession
  exact ⟨hstart, hdropped, ((hruns _ true).1 acme).mpr hlast, (hruns _ false).2.mpr hnothing⟩

end Shared

end NamespaceControl
