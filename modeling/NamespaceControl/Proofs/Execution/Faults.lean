import NamespaceControl.Proofs.Execution.Visibility

/-!
# What shows of a call that fails

A statement makes its calls one after the other and stops where it can go no further, so which
calls it makes (`Execution.Makes`) depends on how those before are answered. A read that fails,
other than for want of the namespace, always comes to the same reply, however much was read before
it; a change that fails comes to a reply that names the target (`Execution.response_of_failure`).
Neither tells more about the failure: of a script nothing matters but the calls made, and not the
texts of the errors that are only texts (`Execution.execute_congr_of_alike`).
-/

namespace NamespaceControl

open Command (Statement)

variable {faults other : Faults} {store : Store} {session : Session} {user : User}
  {statement : Statement} {kind : StoreCall} {j k : Nat} {e : StoreError} {n target : Name}
  {names : List Name}

/-! ## Scripts that differ in texts -/

/-- Two errors are the same, but for a text that names no namespace. -/
inductive StoreError.SameButText : StoreError → StoreError → Prop where
  /-- They are the same. -/
  | same (e : StoreError) : SameButText e e
  /-- They are faults of the store, each with its text. -/
  | store (text text' : String) : SameButText (.store text) (.store text')
  /-- They are about users. -/
  | user (username username' : String) :
      SameButText (.userDoesNotExist username) (.userDoesNotExist username')

namespace Faults

/-- Two scripts treat a call alike: both let it fail, for reasons that are the same but for a text,
or neither does. -/
def Alike (other faults : Faults) (kind : StoreCall) (k : Nat) : Prop :=
  Option.Rel StoreError.SameButText (other kind k) (faults kind k)

/-- A call that two scripts treat alike is answered in the same way, or fails for reasons that
differ in their texts. -/
theorem Alike.call_cases {α : Type} (h : other.Alike faults kind k) (answer : Except StoreError α) :
    other.call kind k answer = faults.call kind k answer ∨
      (∃ s t, other.call kind k answer = .error (.store s) ∧
        faults.call kind k answer = .error (.store t)) ∨
      ∃ s t, other.call kind k answer = .error (.userDoesNotExist s) ∧
        faults.call kind k answer = .error (.userDoesNotExist t) := by
  unfold Alike at h
  unfold call
  cases hother : other kind k <;> cases hfaults : faults kind k <;> rw [hother, hfaults] at h
  all_goals cases h
  · exact Or.inl rfl
  · next h =>
    cases h with
    | same => exact Or.inl rfl
    | store s t => exact Or.inr (Or.inl ⟨s, t, rfl, rfl⟩)
    | user s t => exact Or.inr (Or.inr ⟨s, t, rfl, rfl⟩)

/-- A call that the script lets fail fails. -/
theorem call_of_some {α : Type} {answer : Except StoreError α} (h : faults kind k = some e) :
    faults.call kind k answer = .error e := by
  rw [call, h]

/-- A get is passed if it does not fail, or fails for want of the namespace. -/
def Passes (faults : Faults) (k : Nat) : Prop :=
  ∀ e, faults .get k = some e → ∃ absent, e = .namespaceDoesNotExist absent

/-- A get is passed if it is answered, or answered that the namespace is not there. -/
theorem passes_of_call (store : Store) (n : Name)
    (h : ∀ e, faults.call .get k (store.get n) = .error e →
      ∃ absent, e = .namespaceDoesNotExist absent) : faults.Passes k := fun e he =>
  h e (call_of_some he)

end Faults

namespace Execution

/-! ## The calls of a statement -/

/-- Getting names one after the other, from the `k`-th get on, comes to the `j`-th get. -/
inductive Gets (faults : Faults) : Nat → List Name → Nat → Prop where
  /-- The first name is got. -/
  | first (k : Nat) (n : Name) (rest : List Name) : Gets faults k (n :: rest) k
  /-- A name is got behind the first one. -/
  | later {k j : Nat} {rest : List Name} (n : Name) (passes : faults.Passes k)
      (gets : Gets faults (k + 1) rest j) : Gets faults k (n :: rest) j

/-- Running a statement comes to the `k`-th call of a kind, which takes what is said there. -/
inductive Makes (faults : Faults) (store : Store) (user : User) :
    Statement → StoreCall → Nat → Prop where
  /-- A selection gets its target. -/
  | selection (target : Name) : Makes faults store user (.useNamespace target) .get 1
  /-- A creation looks for its target. -/
  | lookup (target : Name) : Makes faults store user (.createNamespace target) .get 1
  /-- A creation that does not find its target gets the parent of that. -/
  | parent {target p : Name}
      (absent : existence (faults.call .get 1 (store.get target)) = .ok false)
      (child : target.parent? = some p) : Makes faults store user (.createNamespace target) .get 2
  /-- A root that is not found is created, by an administrator. -/
  | root {target : Name} (absent : existence (faults.call .get 1 (store.get target)) = .ok false)
      (root : target.parent? = none) (allowed : user.admin = true) :
      Makes faults store user (.createNamespace target) .create 1
  /-- A child that is not found is created below its parent, by who may do so. -/
  | child {target p : Name} {h : Handle}
      (absent : existence (faults.call .get 1 (store.get target)) = .ok false)
      (child : target.parent? = some p) (present : faults.call .get 2 (store.get p) = .ok h)
      (allowed : Allowed store user h .createNamespace) :
      Makes faults store user (.createNamespace target) .createChild 1
  /-- A drop gets its target. -/
  | drop (target : Name) : Makes faults store user (.dropNamespace target) .get 1
  /-- A target that is there is removed, by who may do so. -/
  | removal {target : Name} {h : Handle} (present : faults.call .get 1 (store.get target) = .ok h)
      (allowed : Allowed store user h .dropNamespace) :
      Makes faults store user (.dropNamespace target) .remove 1
  /-- A listing for an administrator lists the names of the store. -/
  | list (admin : user.admin = true) : Makes faults store user .showNamespaces .list 1
  /-- A listing for anyone else gets the namespaces of the user. -/
  | names {k : Nat} (regular : user.admin = false) (gets : Gets faults 1 user.namespaces k) :
      Makes faults store user .showNamespaces .get k

/-! ## Only the calls made matter, and not the texts of their errors -/

/-- Getting names comes to the same under scripts that treat the gets alike, or it fails under
both. -/
theorem visible_cases (store : Store) (user : User)
    (h : ∀ j, Gets faults k names j → other.Alike faults .get j) :
    visible other store user k names = visible faults store user k names ∨
      ∃ e e', visible other store user k names = .error e ∧
        visible faults store user k names = .error e' := by
  induction names generalizing k with
  | nil => exact Or.inl rfl
  | cons n rest ih =>
    have hrest (hpasses : faults.Passes k) (j : Nat) (hj : Gets faults (k + 1) rest j) :
        other.Alike faults .get j := h j (.later n hpasses hj)
    rw [visible, visible]
    obtain hsame | ⟨s, t, ho, hf⟩ | ⟨s, t, ho, hf⟩ :=
      (h k (.first k n rest)).call_cases (store.get n)
    · rw [hsame]
      -- the later gets are made only if this one is passed, so only then they are alike
      split
      · next absent hget =>
        have hpasses : faults.Passes k := Faults.passes_of_call store n fun e he => by
          rw [hget] at he
          exact ⟨absent, (Except.error.inj he).symm⟩
        exact ih (hrest hpasses)
      · exact Or.inl rfl
      · next handle hget =>
        have hpasses : faults.Passes k := Faults.passes_of_call store n fun e he => by
          rw [hget] at he
          cases he
        obtain hmore | ⟨e, e', ho, hf⟩ := ih (hrest hpasses)
        · rw [hmore]
          exact Or.inl rfl
        · rw [ho, hf]
          exact Or.inr ⟨e, e', rfl, rfl⟩
    · rw [ho, hf]
      exact Or.inr ⟨_, _, rfl, rfl⟩
    · rw [ho, hf]
      exact Or.inr ⟨_, _, rfl, rfl⟩

/-- Creating a root comes to the same under scripts that treat its call alike. -/
theorem createRoot_congr_of_alike (h : user.admin = true → other.Alike faults .create 1) :
    createRoot other store user target = createRoot faults store user target := by
  unfold createRoot
  split
  · rfl
  · next hadmin =>
    have hcall := h (by simpa using hadmin)
    obtain hsame | ⟨s, t, ho, hf⟩ | ⟨s, t, ho, hf⟩ := hcall.call_cases (store.create target)
    · rw [hsame]
    · rw [ho, hf]
    · rw [ho, hf]

/-- Creating a child comes to the same under scripts that treat its calls alike. -/
theorem createBelow_congr_of_alike {p : Name} (hparent : other.Alike faults .get 2)
    (h : ∀ handle, faults.call .get 2 (store.get p) = .ok handle →
      Allowed store user handle .createNamespace → other.Alike faults .createChild 1) :
    createBelow other store user p target = createBelow faults store user p target := by
  unfold createBelow
  obtain hsame | ⟨s, t, ho, hf⟩ | ⟨s, t, ho, hf⟩ := hparent.call_cases (store.get p)
  · rw [hsame]
    split
    · rfl
    · rfl
    · next handle hget =>
      split
      · rfl
      · next hcheck =>
        have hcall := h handle hget (allowed_of_not_check hcheck)
        obtain hsame | ⟨s, t, ho, hf⟩ | ⟨s, t, ho, hf⟩ :=
          hcall.call_cases (store.createChild handle target)
        · rw [hsame]
        · rw [ho, hf]
        · rw [ho, hf]
  · rw [ho, hf]
  · rw [ho, hf]

/-- Creating a namespace comes to the same under scripts that treat its calls alike. -/
theorem createNamespace_congr_of_alike (h : ∀ kind k,
      Makes faults store user (.createNamespace target) kind k → other.Alike faults kind k) :
    createNamespace other store user target = createNamespace faults store user target := by
  unfold createNamespace
  obtain hsame | ⟨s, t, ho, hf⟩ | ⟨s, t, ho, hf⟩ :=
    (h _ _ (.lookup target)).call_cases (store.get target)
  · rw [hsame]
    split
    · rfl
    · rfl
    · next habsent =>
      cases hparent : target.parent? with
      | none => exact createRoot_congr_of_alike fun hadmin => h _ _ (.root habsent hparent hadmin)
      | some p =>
        have hparents := h _ _ (.parent habsent hparent)
        exact createBelow_congr_of_alike hparents fun handle hget hallowed =>
          h _ _ (.child habsent hparent hget hallowed)
  · rw [ho, hf]
    rfl
  · rw [ho, hf]
    rfl

/-- Dropping a namespace comes to the same under scripts that treat its calls alike. -/
theorem dropNamespace_congr_of_alike (h : ∀ kind k,
      Makes faults store user (.dropNamespace target) kind k → other.Alike faults kind k) :
    dropNamespace other store user target = dropNamespace faults store user target := by
  unfold dropNamespace
  obtain hsame | ⟨s, t, ho, hf⟩ | ⟨s, t, ho, hf⟩ :=
    (h _ _ (.drop target)).call_cases (store.get target)
  · rw [hsame]
    split
    · rfl
    · rfl
    · next handle hget =>
      split
      · rfl
      · next hcheck =>
        have hcall := h _ _ (.removal hget (allowed_of_not_check hcheck))
        obtain hsame | ⟨s, t, ho, hf⟩ | ⟨s, t, ho, hf⟩ :=
          hcall.call_cases (store.remove target false)
        · rw [hsame]
        · rw [ho, hf]
        · rw [ho, hf]
  · rw [ho, hf]
  · rw [ho, hf]

/-- A listing comes to the same under scripts that treat its calls alike. -/
theorem showNamespaces_congr_of_alike (h : ∀ kind k,
      Makes faults store user .showNamespaces kind k → other.Alike faults kind k) :
    showNamespaces other store user = showNamespaces faults store user := by
  unfold showNamespaces
  cases hadmin : user.admin with
  | true =>
    obtain hsame | ⟨s, t, ho, hf⟩ | ⟨s, t, ho, hf⟩ :=
      (h _ _ (.list hadmin)).call_cases (.ok store.names : Except StoreError (List Name))
    · simp only [hsame, if_true]
    · simp only [ho, hf, if_true]
    · simp only [ho, hf, if_true]
  | false =>
    have hgets (j : Nat) (hj : Gets faults 1 user.namespaces j) : other.Alike faults .get j :=
      h _ j (.names hadmin hj)
    obtain hsame | ⟨e, e', ho, hf⟩ := visible_cases store user hgets
    · simp only [hsame, Bool.false_eq_true, if_false]
    · simp only [ho, hf, Bool.false_eq_true, if_false]

/-- **Of a script only the calls made matter**, and of their errors not the texts. Under scripts
that treat the calls alike which a statement makes under one of them, the statement comes to the
same. -/
theorem execute_congr_of_alike
    (h : ∀ kind k, Makes faults store session.user statement kind k → other.Alike faults kind k) :
    execute other store session statement = execute faults store session statement := by
  cases statement with
  | useNamespace target =>
    simp only [execute, useNamespace]
    obtain hsame | ⟨s, t, ho, hf⟩ | ⟨s, t, ho, hf⟩ :=
      (h _ _ (.selection target)).call_cases (store.get target)
    · rw [hsame]
    · rw [ho, hf]
    · rw [ho, hf]
  | createNamespace target => simp only [execute, createNamespace_congr_of_alike h]
  | dropNamespace target => simp only [execute, dropNamespace_congr_of_alike h]
  | showNamespaces => simp only [execute, showNamespaces_congr_of_alike h]

/-! ## Calls that fail -/

/-- The reply when a namespace cannot be dropped for some other reason. -/
def notDropped (target : Name) : Response :=
  .failed .dropNamespaceError ("could not drop namespace '" ++ target.text ++ "'")

/-- The reply to which the failure of a call comes by itself, if it does not depend on the rest of
the statement. -/
def failureReply (statement : Statement) : StoreCall → StoreError → Option Response
  | .get, .namespaceDoesNotExist _ => none
  | .get, _ | .list, _ => some storeFault
  | .create, .namespaceAlreadyExists _ => none
  | .createChild, .namespaceAlreadyExists _ | .createChild, .namespaceDoesNotExist _ => none
  | .create, _ | .createChild, _ => statement.target?.map notCreated
  | .remove, .namespaceDoesNotExist _ | .remove, .namespaceHasChildren _ => none
  | .remove, _ => statement.target?.map notDropped

/-- A get that is passed adds its name if it is answered and the user is authorized to see it. -/
theorem visible_cons_of_passes {rest : List Name} (h : faults.Passes k) :
    visible faults store user k (n :: rest) =
      (visible faults store user (k + 1) rest).map fun more =>
        if (faults .get k).isNone && authorizes store user n .showNamespaces then n :: more
        else more := by
  cases hfault : faults .get k with
  | none => exact visible_cons_of_unfaulted hfault
  | some e =>
    obtain ⟨absent, rfl⟩ := h e hfault
    rw [visible, Faults.call_of_some hfault]
    cases visible faults store user (k + 1) rest with
    | error e => rfl
    | ok more => rfl

/-- Getting names fails with the first get that is not passed. -/
theorem visible_of_failure (hgets : Gets faults k names j) (hfault : faults .get j = some e)
    (he : ∀ n, e ≠ .namespaceDoesNotExist n) : visible faults store user k names = .error e := by
  induction hgets with
  | first k n rest =>
    rw [visible, Faults.call_of_some hfault]
    cases e with
    | namespaceDoesNotExist n' => exact absurd rfl (he n')
    | _ => rfl
  | @later k j rest n hpasses _ ih =>
    rw [visible_cons_of_passes hpasses, ih hfault]
    rfl

/-- **A failure comes to a reply of its own**, whatever other calls fail. -/
theorem response_of_failure {r : Response}
    (hmakes : Makes faults store session.user statement kind k)
    (hfault : faults kind k = some e) (hreply : failureReply statement kind e = some r) :
    (execute faults store session statement).response = r := by
  cases hmakes with
  | selection target =>
    simp only [execute, useNamespace, Faults.call_of_some hfault]
    cases e with
    | namespaceDoesNotExist n => cases hreply
    | _ => exact Option.some.inj hreply
  | lookup target =>
    simp only [execute, createNamespace, Faults.call_of_some hfault]
    cases e with
    | namespaceDoesNotExist n => cases hreply
    | _ => exact Option.some.inj hreply
  | parent habsent hparent =>
    simp only [execute, createNamespace, habsent, hparent, createBelow,
      Faults.call_of_some hfault]
    cases e with
    | namespaceDoesNotExist n => cases hreply
    | _ => exact Option.some.inj hreply
  | root habsent hroot hadmin =>
    simp only [execute, createNamespace, habsent, hroot, createRoot, hadmin,
      Faults.call_of_some hfault]
    cases e with
    | namespaceAlreadyExists n => cases hreply
    | _ => exact Option.some.inj hreply
  | child habsent hparent hget hallowed =>
    have hcheck := mt check_iff.mp (not_not_intro hallowed)
    simp only [execute, createNamespace, habsent, hparent, createBelow, hget, if_neg hcheck,
      Faults.call_of_some hfault]
    cases e with
    | namespaceAlreadyExists n | namespaceDoesNotExist n => cases hreply
    | _ => exact Option.some.inj hreply
  | drop target =>
    simp only [execute, dropNamespace, Faults.call_of_some hfault]
    cases e with
    | namespaceDoesNotExist n => cases hreply
    | _ => exact Option.some.inj hreply
  | removal hget hallowed =>
    have hcheck := mt check_iff.mp (not_not_intro hallowed)
    simp only [execute, dropNamespace, hget, if_neg hcheck, Faults.call_of_some hfault]
    cases e with
    | namespaceDoesNotExist n | namespaceHasChildren n => cases hreply
    | _ => exact Option.some.inj hreply
  | list hadmin =>
    simp only [execute, showNamespaces, hadmin, Faults.call_of_some hfault]
    exact Option.some.inj hreply
  | names hadmin hgets =>
    -- a get for want of the namespace has no reply of its own
    have he : ∀ n, e ≠ .namespaceDoesNotExist n := by
      rintro n rfl
      cases hreply
    have hvisible : visible faults store session.user 1 session.user.namespaces = .error e :=
      visible_of_failure hgets hfault he
    simp only [execute, showNamespaces, hadmin, hvisible]
    cases e with
    | namespaceDoesNotExist n => cases hreply
    | _ => exact Option.some.inj hreply

/-! ## Names that a listing misses -/

/-- If all gets that are made are passed, all names are got. -/
theorem gets_of_passes (h : ∀ i, Gets faults k names i → faults.Passes i) (hj : j < names.length) :
    Gets faults k names (k + j) := by
  induction names generalizing k j with
  | nil => cases hj
  | cons n rest ih =>
    have hfirst : faults.Passes k := h k (.first k n rest)
    cases j with
    | zero => exact .first k n rest
    | succ j =>
      rw [← Nat.add_assoc, Nat.add_right_comm]
      refine .later n hfirst (ih (fun i hi => ?_) (Nat.lt_of_succ_lt_succ hj))
      exact h i (.later n hfirst hi)

/-- If one get fails for want of the namespace, and no other get fails, those of the other names are
visible on which the user is authorized to see them. -/
theorem visible_of_missing {absent : Name} (hj : j < names.length)
    (hfault : faults .get (k + j) = some (.namespaceDoesNotExist absent))
    (hrest : ∀ i < names.length, i ≠ j → faults .get (k + i) = .none) :
    visible faults store user k names =
      .ok ((names.eraseIdx j).filter fun n => authorizes store user n .showNamespaces) := by
  induction names generalizing k j with
  | nil => cases hj
  | cons n rest ih =>
    have hnext (i : Nat) : k + 1 + i = k + (i + 1) := Nat.add_right_comm k 1 i
    cases j with
    | zero =>
      have hmissed : faults .get k = some (.namespaceDoesNotExist absent) := hfault
      rw [visible, Faults.call_of_some hmissed, List.eraseIdx_cons_zero]
      refine visible_of_unfaulted fun i hi => ?_
      rw [hnext]
      exact hrest (i + 1) (Nat.succ_lt_succ hi) (Nat.succ_ne_zero i)
    | succ j =>
      have hfirst : faults .get k = .none := hrest 0 (Nat.succ_pos _) (Nat.succ_ne_zero j).symm
      have hmore : visible faults store user (k + 1) rest =
          .ok ((rest.eraseIdx j).filter fun n => authorizes store user n .showNamespaces) := by
        refine ih (Nat.lt_of_succ_lt_succ hj) (by rwa [hnext]) fun i hi hij => ?_
        rw [hnext]
        exact hrest (i + 1) (Nat.succ_lt_succ hi) (by omega)
      rw [visible_cons_of_unfaulted hfirst, hmore, List.eraseIdx_cons_succ, List.filter_cons]
      rfl

/-- A listing in which one get fails for want of the namespace, and no other get that is made fails,
is short of the name that was to be got, and of no other. -/
theorem response_showNamespaces_of_missing {absent : Name} (hadmin : user.admin = false)
    (hn : user.namespaces[j]? = some n)
    (hfault : faults .get (j + 1) = some (.namespaceDoesNotExist absent))
    (hrest : ∀ i, Gets faults 1 user.namespaces i → i ≠ j + 1 → faults .get i = .none) :
    showNamespaces faults store user =
      .listing ((showNamespaces .none store user).rows.filter (· ≠ n.text)) := by
  obtain ⟨hj, hget⟩ := List.getElem?_eq_some_iff.mp hn
  have hpasses : ∀ i, Gets faults 1 user.namespaces i → faults.Passes i := by
    intro i hi e he
    by_cases hij : i = j + 1
    · subst hij
      rw [hfault] at he
      exact ⟨absent, (Option.some.inj he).symm⟩
    · rw [hrest i hi hij] at he
      cases he
  have hall : ∀ i < user.namespaces.length, i ≠ j → faults .get (1 + i) = .none := by
    intro i hi hij
    exact hrest (1 + i) (gets_of_passes hpasses hi) (by omega)
  have hmissed : visible faults store user 1 user.namespaces =
      .ok ((user.namespaces.eraseIdx j).filter fun n => authorizes store user n .showNamespaces) :=
    visible_of_missing hj (by rwa [Nat.add_comm]) hall
  have hfull : visible .none store user 1 user.namespaces =
      .ok (user.namespaces.filter fun n => authorizes store user n .showNamespaces) :=
    visible_of_unfaulted fun _ _ => rfl
  have hdistinct := Name.nodup_of_ascending user.ascending_namespaces
  -- a name stands only once among the namespaces, so its index can be forgotten
  have hothers : user.namespaces.eraseIdx j = user.namespaces.filter (· != n) := by
    rw [← hdistinct.erase_getElem j hj, hget, hdistinct.erase_eq_filter]
  simp only [showNamespaces, hadmin, Bool.false_eq_true, if_false, hmissed, hfull, Response.listing]
  rw [hothers, List.filter_comm, List.filter_map]
  congr 2
  refine List.filter_congr fun m _ => ?_
  rw [Bool.eq_iff_iff, bne_iff_ne, Function.comp_apply, decide_eq_true_iff]
  exact not_congr ⟨congrArg Name.text, Name.text_injective⟩

/-- **Failures are told by the call and no further.** Whatever other calls fail: a get that is made
and fails other than for want of the namespace, and a list that fails, come to the reply that the
store cannot be read, without rows; a creation and a removal that fail for a reason of their own
come to a reply that names nothing but the target. If one get of a listing fails for want of the
namespace, and no other get that is made fails, the listing is short of that name and of no other.
Scripts that let the same of the calls made fail, for reasons that are the same but for their texts,
have the statement come to the same. -/
theorem failures_classified (faults : Faults) (store : Store) (session : Session)
    (statement : Statement) :
    let e := execute faults store session statement
    let made := Makes faults store session.user statement
    (∀ kind k err, made kind k → faults kind k = some err →
      (kind = .get → (∀ n, err ≠ .namespaceDoesNotExist n) →
        e.response = .failed .internalServerError "could not access namespace data") ∧
      (kind = .list →
        e.response = .failed .internalServerError "could not access namespace data") ∧
      (kind = .create ∨ kind = .createChild → (∀ n, err ≠ .namespaceAlreadyExists n) →
        (kind = .createChild → ∀ n, err ≠ .namespaceDoesNotExist n) →
        ∃ target, statement = .createNamespace target ∧ e.response =
          .failed .createNamespaceError ("could not create namespace '" ++ target.text ++ "'")) ∧
      (kind = .remove → (∀ n, err ≠ .namespaceDoesNotExist n) →
        (∀ n, err ≠ .namespaceHasChildren n) →
        ∃ target, statement = .dropNamespace target ∧ e.response =
          .failed .dropNamespaceError ("could not drop namespace '" ++ target.text ++ "'"))) ∧
    (statement = .showNamespaces → session.user.admin = false →
      ∀ j n absent, session.user.namespaces[j]? = some n →
        faults .get (j + 1) = some (.namespaceDoesNotExist absent) →
        (∀ k, made .get k → k ≠ j + 1 → faults .get k = .none) →
        e.response = .listing
          ((execute .none store session statement).response.rows.filter (· ≠ n.text))) ∧
    ∀ other : Faults, (∀ kind k, made kind k → other.Alike faults kind k) →
      execute other store session statement = e := by
  intro e made
  refine ⟨fun kind k err hmakes hfault => ⟨?_, ?_, ?_, ?_⟩, ?_, fun other => execute_congr_of_alike⟩
  · rintro rfl hread
    refine response_of_failure hmakes hfault ?_
    cases err with
    | namespaceDoesNotExist n => exact absurd rfl (hread n)
    | _ => rfl
  · rintro rfl
    refine response_of_failure hmakes hfault ?_
    cases err <;> rfl
  · intro hkind hexisting hmissing
    obtain ⟨target, rfl⟩ : ∃ target, statement = .createNamespace target := by
      rcases hkind with rfl | rfl
      · cases hmakes with
        | @root target => exact ⟨target, rfl⟩
      · cases hmakes with
        | @child target => exact ⟨target, rfl⟩
    refine ⟨target, rfl, response_of_failure hmakes hfault ?_⟩
    rcases hkind with rfl | rfl
    · cases err with
      | namespaceAlreadyExists n => exact absurd rfl (hexisting n)
      | _ => rfl
    · cases err with
      | namespaceAlreadyExists n => exact absurd rfl (hexisting n)
      | namespaceDoesNotExist n => exact absurd rfl (hmissing rfl n)
      | _ => rfl
  · rintro rfl hmissing hchildren
    obtain ⟨target, rfl⟩ : ∃ target, statement = .dropNamespace target := by
      cases hmakes with
      | @removal target => exact ⟨target, rfl⟩
    refine ⟨target, rfl, response_of_failure hmakes hfault ?_⟩
    cases err with
    | namespaceDoesNotExist n => exact absurd rfl (hmissing n)
    | namespaceHasChildren n => exact absurd rfl (hchildren n)
    | _ => rfl
  · rintro rfl hadmin j n absent hn hfault hrest
    refine response_showNamespaces_of_missing hadmin hn hfault fun i hi => ?_
    exact hrest i (.names hadmin hi)

/-- The second get of a listing fails. If it is for a fault of the store, nothing is shown of the
first one; if the namespace is said not to be there, the first one is all that is shown. -/
theorem failures_classified_listing :
    let acme : Name := ⟨["acme"], by decide, by decide⟩
    let lab : Name := ⟨["acme", "lab"], by decide, by decide⟩
    let ann := ((User.regular "ann").withRole acme "viewer").withRole lab "viewer"
    let store := Store.empty.afterAll
      [.insert acme [⟨"viewer", .showNamespaces⟩], .insert lab [⟨"viewer", .showNamespaces⟩]]
    let second (e : StoreError) : Faults := fun kind k =>
      if kind = .get ∧ k = 2 then some e else .none
    let session : Session := ⟨ann, .none⟩
    (execute (second (.store "disk full")) store session .showNamespaces).response =
        .failed .internalServerError "could not access namespace data" ∧
      (execute (second (.namespaceDoesNotExist lab)) store session .showNamespaces).response =
        .listing ["acme"] := by
  intro acme lab ann store second session
  have hnames : session.user.namespaces = [acme, lab] := by decide
  have hgets (faults : Faults) (h : faults .get 1 = .none) :
      Gets faults 1 session.user.namespaces 2 := by
    rw [hnames]
    exact .later acme (fun e he => by rw [h] at he; cases he) (.first 2 lab [])
  have hadmin : session.user.admin = false := rfl
  constructor
  · obtain ⟨hfailures, -, -⟩ :=
      failures_classified (second (.store "disk full")) store session .showNamespaces
    have hmakes : Makes (second (.store "disk full")) store ann .showNamespaces .get 2 :=
      .names hadmin (hgets _ rfl)
    exact (hfailures .get 2 _ hmakes rfl).1 rfl fun n => nofun
  · obtain ⟨-, hlisting, -⟩ :=
      failures_classified (second (.namespaceDoesNotExist lab)) store session .showNamespaces
    have hshort := hlisting rfl hadmin 1 lab lab (by rw [hnames]; rfl) rfl fun k _ hk => by
      simp [second, hk]
    have hrows : ((execute .none store session .showNamespaces).response.rows.filter
        (· ≠ lab.text)) = ["acme"] := by decide
    rw [hshort, hrows]

end Execution

end NamespaceControl
