import NamespaceControl.Proofs.Config.Seeding
import NamespaceControl.Proofs.Store.Reachable

/-!
# What a store remembers of its history

The permissions in a store tell a part of what was done to it. A history (`Store.history`) has an
event for each namespace that was created and for each grant that was made, in their order, and
nothing for what was removed or refused. A role has a permission on a namespace exactly if the
namespace exists and the history has the grant behind its last creation (`GivenSince`); so what was
granted before a removal is forgotten for good, also when the namespace is created again.

One name at a time, a history *recounts* a store (`Recounts`): each change of a store keeps this,
with the events that the change adds.
-/

namespace NamespaceControl

open Command (Statement)

/-! ## Events -/

/-- What is told of a store. -/
inductive Event where
  /-- A namespace was created. -/
  | created (n : Name)
  /-- A grant was made on a namespace. -/
  | granted (n : Name) (g : Grant)
  deriving DecidableEq

/-- The events of a namespace that is created with grants. -/
def Event.inserted (n : Name) (grants : List Grant) : List Event :=
  .created n :: grants.map (.granted n)

/-- The events of a namespace that is declared: it is created, and each permission that is listed
under a role is granted. -/
def Event.declared (d : Declaration) : List Event :=
  .created d.name :: d.grants.toList.flatMap fun (role, permissions) =>
    permissions.map fun permission => .granted d.name ⟨role, permission⟩

/-- The events of a statement: only a creation that is answered with `OK` has one. -/
def Execution.events (statement : Statement) (e : Execution) : List Event :=
  match statement with
  | .createNamespace target => if e.response.status = .ok then [.created target] else []
  | .useNamespace _ | .dropNamespace _ | .showNamespaces => []

/-- The events of an operation that succeeds. -/
def Operation.events (s : Store) : Operation → List Event
  | create n | createChild _ n => [.created n]
  | insert n grants => Event.inserted n grants
  | withNamespace text grants =>
    match Name.parse text with
    | .ok n => Event.inserted n grants
    | .error _ => []
  | seed declarations => declarations.flatMap Event.declared
  | grant n g => [.granted n g]
  | remove _ _ => []
  | execute faults session statement =>
    Execution.events statement (NamespaceControl.execute faults s session statement)

namespace Store

/-- The events of an operation; one that fails has none. -/
def events (s : Store) (o : Operation) : List Event :=
  match o.result s with
  | .ok _ => o.events s
  | .error _ => []

/-- The events of some operations. -/
def history (s : Store) : List Operation → List Event
  | [] => []
  | o :: rest => s.events o ++ (s.after o).history rest

end Store

/-- Since the namespace was created last, the grant was made on it. -/
def GivenSince (history : List Event) (n : Name) (g : Grant) : Prop :=
  ∃ earlier later, history = earlier ++ .created n :: later ∧ .created n ∉ later ∧
    .granted n g ∈ later

variable {history : List Event} {n m : Name} {g : Grant}

/-! ## Declarations -/

/-- A declaration tells of the namespace that is inserted for it. -/
theorem Event.declared_eq (d : Declaration) : declared d = inserted d.name d.grantList := by
  simp [declared, inserted, Declaration.grantList, List.map_flatMap, Function.comp_def]

/-- A declaration tells of the grants that it lists. -/
theorem Event.granted_mem_declared {d : Declaration} {role : String} {permission : Permission} :
    .granted n ⟨role, permission⟩ ∈ declared d ↔
      d.name = n ∧ ∃ granted, d.grants[role]? = some granted ∧ permission ∈ granted := by
  rw [declared_eq, inserted, List.mem_cons, List.mem_map, ← mem_grantList]
  constructor
  · rintro (h | ⟨g, hg, h⟩)
    · cases h
    · obtain ⟨rfl, rfl⟩ := Event.granted.inj h
      exact ⟨rfl, hg⟩
  · rintro ⟨rfl, hg⟩
    exact Or.inr ⟨_, hg, rfl⟩

/-! ## One more event -/

/-- A namespace that was created was created a last time. -/
theorem exists_last_created (h : .created n ∈ history) :
    ∃ earlier later, history = earlier ++ .created n :: later ∧ .created n ∉ later := by
  obtain ⟨later, earlier, hreverse, hlater⟩ :=
    List.eq_append_cons_of_mem (List.mem_reverse.mpr h)
  refine ⟨earlier.reverse, later.reverse, ?_, by simpa using hlater⟩
  simpa using congrArg List.reverse hreverse

/-- What is given behind one more event: what was given, unless that event creates the namespace,
and what that event grants on a namespace that was created. -/
theorem givenSince_concat_iff {e : Event} :
    GivenSince (history ++ [e]) n g ↔
      (e ≠ .created n ∧ GivenSince history n g) ∨ (e = .granted n g ∧ .created n ∈ history) := by
  constructor
  · rintro ⟨earlier, later, hsplit, hlater, hg⟩
    obtain ⟨later, x, rfl⟩ := (List.eq_nil_or_concat later).resolve_left (List.ne_nil_of_mem hg)
    simp only [List.concat_eq_append, List.mem_append, List.mem_singleton, not_or]
      at hsplit hlater hg
    rw [← List.cons_append, ← List.append_assoc] at hsplit
    obtain ⟨rfl, hx⟩ := List.append_inj' hsplit rfl
    obtain rfl := List.singleton_inj.mp hx
    rcases hg with hg | rfl
    · exact Or.inl ⟨Ne.symm hlater.2, earlier, later, rfl, hlater.1, hg⟩
    · exact Or.inr ⟨rfl, List.mem_append_right _ List.mem_cons_self⟩
  · rintro (⟨he, earlier, later, rfl, hlater, hg⟩ | ⟨rfl, hcreated⟩)
    · refine ⟨earlier, later ++ [e], by simp, ?_, List.mem_append_left _ hg⟩
      simp only [List.mem_append, List.mem_singleton, not_or]
      exact ⟨hlater, Ne.symm he⟩
    · obtain ⟨earlier, later, rfl, hlater⟩ := exists_last_created hcreated
      exact ⟨earlier, later ++ [.granted n g], by simp, by simpa using hlater, by simp⟩

/-! ## Histories that recount a store -/

/-- As for one name, the history tells what is in the store. -/
structure Recounts (history : List Event) (s : Store) (n : Name) : Prop where
  /-- A namespace that exists was created. -/
  created : s.contains n = true → .created n ∈ history
  /-- What is granted on it was given since. -/
  granted : ∀ g, s.hasPermission n g.role g.permission = true ↔
    s.contains n = true ∧ GivenSince history n g

namespace Recounts

variable {s s' : Store}

/-- Of a namespace that does not exist there is nothing to tell. -/
theorem of_absent (hn : s.contains n = false) (history : List Event) : Recounts history s n where
  created h := absurd h (by simp [hn])
  granted g := by
    constructor
    · intro hg
      have hpresent := Store.contains_of_hasPermission hg
      simp [hn] at hpresent
    · rintro ⟨hpresent, -⟩
      simp [hn] at hpresent

/-- A new namespace has no grants; the others keep theirs. -/
theorem grows (h : Recounts history s n) (hs : s.Grows s' m) :
    Recounts (history ++ [.created m]) s' n where
  created hn := by
    rcases hs.contains_iff.mp hn with rfl | hn
    · simp
    · exact List.mem_append_left _ (h.created hn)
  granted g := by
    rw [hs.hasPermission_eq, h.granted g, hs.contains_iff, givenSince_concat_iff]
    by_cases hnm : n = m
    · subst hnm
      simp [hs.absent]
    · simp [hnm, Ne.symm hnm]

/-- What a namespace that goes was granted does not matter any more. -/
theorem prunes (h : Recounts history s n) (hs : s.Prunes s' m) : Recounts history s' n where
  created hn := h.created (hs.contains_iff.mp hn).2
  granted g := by
    rw [hs.hasPermission_iff, hs.contains_iff, h.granted g, and_assoc]

/-- One more grant is told, and made. -/
theorem gainsGrant (h : Recounts history s n) (hs : s.GainsGrant s' m g) :
    Recounts (history ++ [.granted m g]) s' n where
  created hn := by
    rw [hs.contains_eq] at hn
    exact List.mem_append_left _ (h.created hn)
  granted g' := by
    rw [hs.hasPermission_iff, hs.contains_eq, h.granted g', givenSince_concat_iff]
    constructor
    · rintro (⟨hn, hgiven⟩ | ⟨rfl, rfl⟩)
      · exact ⟨hn, Or.inl ⟨by simp, hgiven⟩⟩
      · exact ⟨hs.present, Or.inr ⟨rfl, h.created hs.present⟩⟩
    · rintro ⟨hn, ⟨-, hgiven⟩ | ⟨he, -⟩⟩
      · exact Or.inl ⟨hn, hgiven⟩
      · obtain ⟨rfl, rfl⟩ := Event.granted.inj he
        exact Or.inr ⟨rfl, rfl⟩

/-- What every operation tells, a sequence of operations tells that succeeds as a whole. -/
theorem foldlM {α : Type} {f : Store → α → Except StoreError Store} {events : α → List Event}
    (hf : ∀ history s a s', Recounts history s n → f s a = .ok s' →
      Recounts (history ++ events a) s' n)
    {l : List α} (h : Recounts history s n) (hl : l.foldlM f s = .ok s') :
    Recounts (history ++ l.flatMap events) s' n := by
  induction l generalizing history s with
  | nil =>
    obtain rfl := Except.ok.inj hl
    simpa using h
  | cons a l ih =>
    rw [List.foldlM_cons, bind_eq_ok_iff] at hl
    obtain ⟨t, ha, hl⟩ := hl
    rw [List.flatMap_cons, ← List.append_assoc]
    exact ih (hf history s a t h ha) hl

/-- A namespace that is inserted is created, and then its grants are made. -/
theorem insert {grants : List Grant} (h : Recounts history s n)
    (hs : s.insert m grants = .ok s') :
    Recounts (history ++ Event.inserted m grants) s' n := by
  obtain ⟨t, hgrows, hgrants⟩ := Store.exists_grows_of_insert hs
  have hcreated : Recounts (history ++ [.created m]) t n := h.grows hgrows
  have hgranted : Recounts (history ++ [.created m] ++ grants.flatMap fun g => [.granted m g])
      s' n :=
    hcreated.foldlM (fun _ _ _ _ hu hg => hu.gainsGrant (Store.gainsGrant_of_grant hg)) hgrants
  rwa [← List.map_eq_flatMap, List.append_assoc] at hgranted

/-- A seeded store is told of from its first namespace on, whatever was before it. -/
theorem seed {declarations : List Declaration} (history : List Event)
    (hs : Store.seed declarations = .ok s) :
    Recounts (history ++ declarations.flatMap Event.declared) s n := by
  have hempty : Recounts history .empty n := of_absent (by simp [Store.contains_eq]) history
  refine hempty.foldlM (fun _ _ d _ hu hd => ?_) hs
  rw [Event.declared_eq]
  exact hu.insert hd

/-- A statement tells what it creates. -/
theorem outcome {session : Session} {statement : Statement} {e : Execution}
    (h : Recounts history s n) (hs : Execution.Outcome s session statement e) :
    Recounts (history ++ Execution.events statement e) e.store n := by
  cases hs with
  | created grows _ => exact h.grows grows
  | dropped prunes _ _ => simpa [Execution.events] using h.prunes prunes
  | selected | listed => simpa [Execution.events] using h
  | existed => simpa [Execution.events, Execution.alreadyExists, Response.succeeded] using h
  | @failed statement status message not_ok _ =>
    have hnone : Execution.events statement ⟨s, session, .failed status message⟩ = [] := by
      cases statement <;> simp [Execution.events, Response.failed, not_ok]
    rw [hnone, List.append_nil]
    exact h

/-- An operation that succeeds tells what it does. -/
theorem result {o : Operation} (h : Recounts history s n) (hs : s.IsTree)
    (ho : o.result s = .ok s') : Recounts (history ++ o.events s) s' n := by
  cases o with
  | create m => exact h.grows (Store.grows_of_create ho).2
  | createChild handle child => exact h.grows (Store.grows_of_createChild ho).2
  | insert m grants => exact h.insert ho
  | withNamespace text grants =>
    simp only [Operation.result, Store.withNamespace] at ho
    simp only [Operation.events]
    split at ho
    · next hparse => simpa [hparse] using h.insert ho
    · cases ho
  | seed declarations => exact seed history ho
  | grant m g => exact h.gainsGrant (Store.gainsGrant_of_grant ho)
  | remove m cascade => simpa [Operation.events] using h.prunes (Store.prunes_of_remove hs ho).1
  | execute faults session statement =>
    obtain rfl := Except.ok.inj ho
    exact h.outcome (Execution.outcome_execute hs faults session statement)

/-- An operation is told of, whether it succeeds or not. -/
theorem after (h : Recounts history s n) (hs : s.IsTree) (o : Operation) :
    Recounts (history ++ s.events o) (s.after o) n := by
  cases ho : o.result s with
  | ok s' => simpa only [Store.events, Store.after, ho] using h.result hs ho
  | error e => simpa [Store.events, Store.after, ho] using h

/-- Operations are told of. -/
theorem afterAll (h : Recounts history s n) (hs : s.IsTree) (operations : List Operation) :
    Recounts (history ++ s.history operations) (s.afterAll operations) n := by
  induction operations generalizing history s with
  | nil => simpa [Store.history, Store.afterAll] using h
  | cons o operations ih =>
    rw [Store.history, ← List.append_assoc]
    exact ih (h.after hs o) (hs.after o)

end Recounts

/-! ## Permissions and histories -/

namespace Store

/-- Some operations go on from where those before them end. -/
theorem afterAll_append (s : Store) (first second : List Operation) :
    s.afterAll (first ++ second) = (s.afterAll first).afterAll second :=
  List.foldl_append

/-- **Permissions tell of the grants since the last creation.** Whatever is done to a store that
was empty, and through whatever handle one asks: a role has a permission on a namespace exactly if
the namespace exists and the role was given the permission since the namespace was created last.
Once a namespace was removed, by itself or with one that is above it, it has only what was given
after the removal. Seeding gives what is listed for the namespace under the role. -/
theorem hasPermission_afterAll_iff (operations : List Operation) (h : Handle) (role : String)
    (permission : Permission) :
    ((empty.afterAll operations).hasPermission h role permission = true ↔
      (empty.afterAll operations).contains h = true ∧
        GivenSince (empty.history operations) h ⟨role, permission⟩) ∧
    (∀ before a cascade later s, operations = before ++ .remove a cascade :: later →
      (empty.afterAll before).remove a cascade = .ok s → a.Covers h →
      (empty.afterAll operations).hasPermission h role permission = true →
      GivenSince (s.history later) h ⟨role, permission⟩) ∧
    ∀ (s : Store) (declarations : List Declaration),
      .granted h ⟨role, permission⟩ ∈ (Operation.seed declarations).events s ↔
        ∃ d ∈ declarations, d.name = h ∧
          ∃ granted, d.grants[role]? = some granted ∧ permission ∈ granted := by
  refine ⟨?_, ?_, fun s declarations => ?_⟩
  · have hempty : Recounts [] empty h := .of_absent (by simp [contains_eq]) []
    have hall := hempty.afterAll isTree_empty operations
    exact hall.granted ⟨role, permission⟩
  · rintro before a cascade later s rfl hremove hcovers hgranted
    have hbefore : (empty.afterAll before).IsTree := isTree_empty.afterAll before
    have hprunes := (prunes_of_remove hbefore hremove).1
    have habsent : s.contains h = false := by
      rw [← Bool.not_eq_true, hprunes.contains_iff]
      exact fun hs => hs.1 hcovers
    have hsplit : empty.afterAll (before ++ .remove a cascade :: later) = s.afterAll later := by
      rw [afterAll_append]
      show ((empty.afterAll before).after (.remove a cascade)).afterAll later = _
      simp only [after, Operation.result, hremove]
    -- nothing is told of a namespace that is gone, so the history can start behind the removal
    have hlater := (Recounts.of_absent habsent []).afterAll (hprunes.isTree hbefore) later
    rw [hsplit] at hgranted
    exact ((hlater.granted ⟨role, permission⟩).mp hgranted).2
  · simp only [Operation.events, List.mem_flatMap, Event.granted_mem_declared]

/-- A role that could drop `acme.lab` cannot drop it any more when it has gone with `acme` and both
were created again. -/
theorem hasPermission_afterAll_iff_recreated :
    let acme : Name := ⟨["acme"], by decide, by decide⟩
    let lab : Name := ⟨["acme", "lab"], by decide, by decide⟩
    let before : List Operation :=
      [.create acme, .insert lab [⟨"owner", .dropNamespace⟩]]
    let later : List Operation := [.create acme, .createChild acme lab]
    (∃ s, (empty.afterAll before).remove acme true = .ok s) ∧ acme.Covers lab ∧
      (empty.afterAll before).hasPermission lab "owner" .dropNamespace = true ∧
      (empty.afterAll (before ++ .remove acme true :: later)).hasPermission lab "owner"
        .dropNamespace = false := by
  intro acme lab before later
  have hremove : ∃ s, (empty.afterAll before).remove acme true = .ok s := ⟨_, rfl⟩
  have hcovers : acme.Covers lab := by decide
  refine ⟨hremove, hcovers, by decide, ?_⟩
  obtain ⟨s, hs⟩ := hremove
  rw [← Bool.not_eq_true]
  intro hgranted
  obtain ⟨earlier, more, hhistory, -, hgiven⟩ :=
    (hasPermission_afterAll_iff _ lab "owner" .dropNamespace).2.1 before acme true later s rfl hs
      hcovers hgranted
  have hmem : Event.granted lab ⟨"owner", .dropNamespace⟩ ∈ s.history later := by
    rw [hhistory]
    exact List.mem_append_right _ (List.mem_cons_of_mem _ hgiven)
  have hcreated : ∀ e ∈ s.history later, ∃ n, e = .created n := by
    simp only [later, history, events, Operation.events]
    grind
  obtain ⟨n, hn⟩ := hcreated _ hmem
  cases hn

end Store

end NamespaceControl
