import NamespaceControl.Proofs.Execution.Effect
import NamespaceControl.Proofs.Name.Text

/-!
# What a statement does to authority

No statement makes a grant: what is granted after it was granted before, and on the same name. A
namespace that a statement creates starts without grants, and on a namespace without grants
(`Store.Bare`) only administrators can do anything. So a user who is no administrator gets nothing
from a creation but the namespace itself.
-/

namespace NamespaceControl

open Command (Statement)

variable {store : Store} {session : Session} {statement : Statement} {e : Execution}
  {n p : Name} {role : String} {permission : Permission}

/-- A namespace that is there, and on which nothing is granted to any role. -/
structure Store.Bare (s : Store) (n : Name) : Prop where
  /-- The namespace is there. -/
  present : s.contains n = true
  /-- Nothing is granted on it. -/
  nothing : ∀ role permission, s.hasPermission n role permission = false

/-- A namespace that has just been added is bare. -/
theorem Store.Grows.bare {s s' : Store} (h : s.Grows s' n) : s'.Bare n where
  present := h.contains_iff.mpr (Or.inl rfl)
  nothing role permission := by
    rw [h.hasPermission_eq, ← Bool.not_eq_true]
    intro hgranted
    have hpresent := Store.contains_of_hasPermission hgranted
    rw [h.absent] at hpresent
    cases hpresent

namespace Execution

/-- A bare namespace authorizes nobody. -/
theorem not_authorizes_of_bare {user : User} (h : store.Bare n) :
    authorizes store user n permission = false := by
  rw [← Bool.not_eq_true, authorizes_iff]
  rintro ⟨role, -, hgranted⟩
  rw [h.nothing] at hgranted
  cases hgranted

/-- On a bare namespace a user who is no administrator is allowed nothing. -/
theorem not_allowed_of_bare {user : User} (hadmin : user.admin = false) (hbare : store.Bare n) :
    ¬ Allowed store user n permission := by
  unfold Allowed
  rw [hadmin, not_authorizes_of_bare hbare]
  simp

namespace Outcome

/-- What is granted after a statement was granted before it. -/
theorem hasPermission_before (h : Outcome store session statement e)
    (hafter : e.store.hasPermission n role permission = true) :
    store.hasPermission n role permission = true := by
  cases h with
  | created grows _ =>
    rw [grows.hasPermission_eq] at hafter
    exact hafter
  | dropped prunes _ _ => exact (prunes.hasPermission_iff.mp hafter).2
  | selected | existed | listed | failed => exact hafter

/-- A namespace that was not there before a statement was created by it. -/
theorem created_of_absent (h : Outcome store session statement e)
    (hbefore : store.contains n = false) (hafter : e.store.contains n = true) :
    store.Grows e.store n ∧ MayCreate store session.user n := by
  cases h with
  | created grows allowed =>
    rcases grows.contains_iff.mp hafter with rfl | hn
    · exact ⟨grows, allowed⟩
    · rw [hbefore] at hn
      cases hn
  | dropped prunes _ _ =>
    have hn := (prunes.contains_iff.mp hafter).2
    rw [hbefore] at hn
    cases hn
  | selected | existed | listed | failed =>
    rw [hbefore] at hafter
    cases hafter

/-- A user who is no administrator creates only children of namespaces on which a role of theirs
is granted to create. -/
theorem exists_parent_of_absent (h : Outcome store session statement e)
    (hadmin : session.user.admin = false) (hbefore : store.contains n = false)
    (hafter : e.store.contains n = true) :
    ∃ p, n.parent? = some p ∧
      ∃ role ∈ session.user.rolesIn p, store.hasPermission p role .createNamespace = true := by
  have hmay := (h.created_of_absent hbefore hafter).2
  unfold MayCreate at hmay
  split at hmay
  · rw [hadmin] at hmay
    cases hmay
  · next p hp =>
    rcases hmay with hmay | hmay
    · rw [hadmin] at hmay
      cases hmay
    · exact ⟨p, hp, authorizes_iff.mp hmay⟩

/-- A user who is no administrator leaves a bare namespace as it is. -/
theorem bare (h : Outcome store session statement e) (hstore : store.IsTree)
    (hadmin : session.user.admin = false) (hbare : store.Bare n) : e.store.Bare n := by
  cases h with
  | created grows _ =>
    refine ⟨grows.contains_iff.mpr (Or.inr hbare.present), fun role permission => ?_⟩
    rw [grows.hasPermission_eq]
    exact hbare.nothing role permission
  | @dropped target store' prunes leaf allowed =>
    have hkept : ¬ target.Covers n := by
      intro hcovers
      obtain rfl := hstore.eq_of_covers_of_leaf leaf hbare.present hcovers
      exact not_allowed_of_bare hadmin hbare allowed
    refine ⟨prunes.contains_iff.mpr ⟨hkept, hbare.present⟩, fun role permission => ?_⟩
    rw [← Bool.not_eq_true, prunes.hasPermission_iff, hbare.nothing]
    rintro ⟨-, hgranted⟩
    cases hgranted
  | selected | existed | listed | failed => exact hbare

/-- A user who is no administrator creates nothing below a bare namespace. -/
theorem absent_of_bare (h : Outcome store session statement e)
    (hadmin : session.user.admin = false) (hbare : store.Bare p) (hp : n.parent? = some p)
    (hbefore : store.contains n = false) : e.store.contains n = false := by
  rw [← Bool.not_eq_true]
  intro hafter
  obtain ⟨p', hp', role, -, hgranted⟩ := h.exists_parent_of_absent hadmin hbefore hafter
  obtain rfl := Option.some.inj (hp.symm.trans hp')
  rw [hbare.nothing] at hgranted
  cases hgranted

/-- A user who is no administrator is not shown a bare namespace. -/
theorem text_not_mem_rows_of_bare (h : Outcome store session statement e)
    (hadmin : session.user.admin = false) (hbare : store.Bare n) :
    n.text ∉ e.response.rows := by
  cases h with
  | @listed names allowed =>
    intro hrow
    have hn : n ∈ names := Name.text_mem_map_iff.mp hrow
    exact not_allowed_of_bare hadmin hbare (allowed n hn)
  | selected | created | existed | dropped | failed => exact List.not_mem_nil

end Outcome

end Execution

end NamespaceControl
