import Mathlib.Tactic.ByContra
import NamespaceControl.Proofs.Store.Reachable

/-!
# What a response says about the state

A response tells what has happened: the store has changed exactly if a creation or a drop is
answered with `OK`, and then in the one place that the statement names; the selection has changed
only if a selection is answered with `OK`. This holds for each outcome of a statement
(`Execution.Outcome`), and so however its calls fail.
-/

namespace NamespaceControl.Execution

open Command (Statement)

variable {store : Store} {session : Session} {statement : Statement} {e : Execution}
  {target : Name}

/-! ## The store -/

/-- A creation that is answered with `OK` adds its target. -/
theorem Outcome.grows_of_ok (h : Outcome store session (.createNamespace target) e)
    (hok : e.response.status = .ok) : store.Grows e.store target := by
  cases h with
  | created grows _ => exact grows
  | existed => cases hok
  | failed _ not_ok _ => exact absurd hok not_ok

/-- A drop that is answered with `OK` takes its target, which had no children. -/
theorem Outcome.sheds_of_ok (h : Outcome store session (.dropNamespace target) e)
    (hstore : store.IsTree) (hok : e.response.status = .ok) : store.Sheds e.store target := by
  cases h with
  | dropped prunes leaf _ => exact prunes.sheds hstore leaf
  | failed _ not_ok _ => exact absurd hok not_ok

/-- Without a creation or a drop that is answered with `OK` the store stays. -/
theorem Outcome.store_eq (h : Outcome store session statement e)
    (hno : ∀ target, statement = .createNamespace target ∨ statement = .dropNamespace target →
      e.response.status ≠ .ok) : e.store = store := by
  cases h with
  | created => exact absurd rfl (hno _ (Or.inl rfl))
  | dropped => exact absurd rfl (hno _ (Or.inr rfl))
  | selected | existed | listed | failed => rfl

/-- The store has changed exactly if a creation or a drop is answered with `OK`. -/
theorem Outcome.exists_record?_ne_iff (h : Outcome store session statement e)
    (hstore : store.IsTree) :
    (∃ n, e.store.record? n ≠ store.record? n) ↔
      (∃ target, statement = .createNamespace target ∨ statement = .dropNamespace target) ∧
        e.response.status = .ok := by
  constructor
  · rintro ⟨n, hn⟩
    by_contra hno
    have hsame : e.store = store :=
      h.store_eq fun target htarget hok => hno ⟨⟨target, htarget⟩, hok⟩
    exact hn (by rw [hsame])
  · rintro ⟨⟨target, rfl | rfl⟩, hok⟩
    · have hgrows := h.grows_of_ok hok
      refine ⟨target, ?_⟩
      rw [hgrows.record?_self, Store.record?_eq_none_iff.mpr hgrows.absent]
      simp
    · have hsheds := h.sheds_of_ok hstore hok
      obtain ⟨r, hr⟩ := Store.contains_iff.mp hsheds.present
      refine ⟨target, ?_⟩
      rw [hsheds.record?_eq, if_pos rfl, hr]
      simp

/-! ## The session -/

/-- A selection that is answered with `OK` selects its target. -/
theorem Outcome.session_eq_of_ok (h : Outcome store session (.useNamespace target) e)
    (hok : e.response.status = .ok) : e.session = session.select target := by
  cases h with
  | selected => rfl
  | failed _ not_ok _ => exact absurd hok not_ok

/-- Without a selection that is answered with `OK` the session stays. -/
theorem Outcome.session_eq (h : Outcome store session statement e)
    (hno : ∀ target, statement = .useNamespace target → e.response.status ≠ .ok) :
    e.session = session := by
  cases h with
  | selected => exact absurd rfl (hno _ rfl)
  | created | existed | dropped | listed | failed => rfl

/-! ## The response -/

/-- A response reports success exactly with these two statuses. -/
theorem Outcome.success_iff (h : Outcome store session statement e) :
    e.response.success = true ↔
      e.response.status = .ok ∨ e.response.status = .namespaceAlreadyExists := by
  cases h with
  | selected | created | dropped | listed => exact ⟨fun _ => Or.inl rfl, fun _ => rfl⟩
  | existed => exact ⟨fun _ => Or.inr rfl, fun _ => rfl⟩
  | failed message not_ok not_existing =>
    constructor
    · intro h
      cases h
    · rintro (hok | hexisting)
      · exact absurd hok not_ok
      · exact absurd hexisting not_existing

/-- Only a listing that is answered with `OK` has rows. -/
theorem Outcome.listed_of_rows_ne_nil (h : Outcome store session statement e)
    (hrows : e.response.rows ≠ []) :
    statement = .showNamespaces ∧ e.response.status = .ok := by
  cases h with
  | listed => exact ⟨rfl, rfl⟩
  | selected | created | existed | dropped | failed => exact absurd rfl hrows

/-- **Responses tell the truth.** However the calls of a statement fail, exactly one response is
sent. The records differ afterwards exactly if it answers a creation or a drop with `OK`: then the
target of the creation, which was not there, has an empty record and is listed by its parent, or
the target of the drop, which was there and had no children, has no record and is not listed any
more, and all else is as before. The session keeps its user, and it differs only if a selection is
answered with `OK`: then the target is what is selected. -/
theorem response_agrees_with_state (hstore : store.Reachable) (sink : List Response)
    (faults : Faults) (session : Session) (statement : Statement) :
    ∃ e, executeTo sink faults store session statement = (e, sink ++ [e.response]) ∧
      ((∃ n, e.store.record? n ≠ store.record? n) ↔
        (∃ target, statement = .createNamespace target ∨ statement = .dropNamespace target) ∧
          e.response.status = .ok) ∧
      (∀ target, statement = .createNamespace target → e.response.status = .ok →
        store.Grows e.store target) ∧
      (∀ target, statement = .dropNamespace target → e.response.status = .ok →
        store.Sheds e.store target) ∧
      (∀ target, statement = .useNamespace target → e.response.status = .ok →
        e.session.selected = some target) ∧
      (e.session ≠ session →
        ∃ target, statement = .useNamespace target ∧ e.response.status = .ok) ∧
      e.session.user = session.user ∧
      (e.response.success = true ↔
        e.response.status = .ok ∨ e.response.status = .namespaceAlreadyExists) ∧
      (e.response.rows ≠ [] → statement = .showNamespaces ∧ e.response.status = .ok) := by
  have htree := hstore.isTree
  have houtcome := outcome_execute htree faults session statement
  refine ⟨execute faults store session statement, rfl, houtcome.exists_record?_ne_iff htree,
    ?_, ?_, ?_, ?_, houtcome.user_eq, houtcome.success_iff, houtcome.listed_of_rows_ne_nil⟩
  · rintro target rfl hok
    exact houtcome.grows_of_ok hok
  · rintro target rfl hok
    exact houtcome.sheds_of_ok htree hok
  · rintro target rfl hok
    rw [houtcome.session_eq_of_ok hok]
    rfl
  · intro hchanged
    by_contra hno
    refine hchanged (houtcome.session_eq fun target htarget hok => ?_)
    exact hno ⟨target, htarget, hok⟩

/-- A creation whose first look misses a namespace that is there ends in the response that it is
there, and in no change. -/
theorem response_agrees_with_state_missed :
    let acme : Name := ⟨["acme"], by decide, by decide⟩
    let store := Store.empty.afterAll [.create acme]
    let missed : Faults := fun kind k =>
      if kind = .get ∧ k = 1 then some (.namespaceDoesNotExist acme) else none
    let e := execute missed store (.start (.administrator "root")) (.createNamespace acme)
    store.Reachable ∧ e.response = alreadyExists acme ∧
      ∀ n, e.store.record? n = store.record? n := by
  intro acme store missed e
  have hreachable : store.Reachable := ⟨[.create acme], rfl⟩
  have hresponse : e.response = alreadyExists acme := by rfl
  refine ⟨hreachable, hresponse, fun n => ?_⟩
  obtain ⟨e', he', hchange, -⟩ :=
    response_agrees_with_state hreachable [] missed (.start (.administrator "root"))
      (.createNamespace acme)
  obtain rfl : e = e' := congrArg Prod.fst he'
  by_contra hn
  have hok : e.response.status = .ok := (hchange.mp ⟨n, hn⟩).2
  rw [hresponse] at hok
  cases hok

end NamespaceControl.Execution
