import Mathlib.Data.List.Induction
import NamespaceControl.Config.Validation

/-!
# Declarations in order

Declarations are in order (`InOrder`) if each one comes after that of its parent and none comes
twice. If they are not, there is a first one that is out of place (`exists_misplaced`), and what is
wrong with it (`Misplaced`) depends only on those before it. The validation accepts exactly the
declarations that are in order, and users whose names are neither empty nor used twice.
-/

namespace NamespaceControl

variable {declared : List Name} {declarations before : List Declaration} {d : Declaration}
  {n : Name}

/-! ## Places -/

/-- A namespace can be declared behind the given ones. -/
structure WellPlaced (declared : List Name) (n : Name) : Prop where
  /-- It is not declared yet. -/
  fresh : n ∉ declared
  /-- Its parent is. -/
  parent_mem : ∀ p, n.parent? = some p → p ∈ declared

/-- What is wrong with the place of a declaration. -/
inductive Misplacement where
  /-- The parent of the namespace is not declared before. -/
  | orphan (parent : Name)
  /-- The namespace is declared before. -/
  | repeated

/-- What is wrong with declaring a namespace behind the given ones. The parent is asked for
first. -/
inductive Misplaced (declared : List Name) (n : Name) : Misplacement → Prop where
  /-- The parent is not among them. -/
  | orphan {p : Name} (parent : n.parent? = some p) (not_mem : p ∉ declared) :
      Misplaced declared n (.orphan p)
  /-- The namespace is among them. -/
  | repeated (mem : n ∈ declared) (parent_mem : ∀ p, n.parent? = some p → p ∈ declared) :
      Misplaced declared n .repeated

/-- A declaration is in its place, or something is wrong with it. -/
theorem wellPlaced_or_misplaced (declared : List Name) (n : Name) :
    WellPlaced declared n ∨ ∃ fault, Misplaced declared n fault := by
  by_cases hparent : ∀ p, n.parent? = some p → p ∈ declared
  · by_cases hn : n ∈ declared
    · exact Or.inr ⟨_, .repeated hn hparent⟩
    · exact Or.inl ⟨hn, hparent⟩
  · obtain ⟨p, hp⟩ := Classical.not_forall.mp hparent
    obtain ⟨hp, hmem⟩ := Classical.not_imp.mp hp
    exact Or.inr ⟨_, .orphan hp hmem⟩

/-! ## Order -/

/-- The names of declarations. -/
def declaredNames (declarations : List Declaration) : List Name := declarations.map Declaration.name

/-- Namespaces are declared once, and after their parents. -/
structure InOrder (declarations : List Declaration) : Prop where
  /-- No name is declared twice. -/
  nodup : (declaredNames declarations).Nodup
  /-- Each parent is declared before. -/
  parent_mem : ∀ before d after, declarations = before ++ d :: after →
    ∀ p, d.name.parent? = some p → p ∈ declaredNames before

/-- Nothing is in order if nothing is declared. -/
theorem inOrder_nil : InOrder [] where
  nodup := List.nodup_nil
  parent_mem := by
    intro before d after h
    cases before <;> cases h

/-- A declaration in its place behind others that are in order leaves them in order. -/
theorem inOrder_concat_iff :
    InOrder (declarations ++ [d]) ↔
      InOrder declarations ∧ WellPlaced (declaredNames declarations) d.name := by
  constructor
  · rintro ⟨hnodup, hparent⟩
    rw [declaredNames, List.map_append, List.nodup_append] at hnodup
    obtain ⟨hnodup, -, hfresh⟩ := hnodup
    refine ⟨⟨hnodup, fun before e after h => ?_⟩, ?_, hparent declarations d [] rfl⟩
    · exact hparent before e (after ++ [d]) (by rw [h, List.append_assoc, List.cons_append])
    · intro hmem
      exact hfresh _ hmem _ (List.mem_singleton_self _) rfl
  · rintro ⟨⟨hnodup, hparent⟩, hfresh, hplace⟩
    refine ⟨?_, fun before e after h => ?_⟩
    · rw [declaredNames, List.map_append, List.nodup_append]
      refine ⟨hnodup, by simp, ?_⟩
      rintro m hm m' hm' rfl
      obtain rfl := List.mem_singleton.mp hm'
      exact hfresh hm
    · rcases List.eq_nil_or_concat after with rfl | ⟨after, last, rfl⟩
      · obtain ⟨rfl, hlast⟩ := List.append_inj' h rfl
        obtain rfl := List.singleton_inj.mp hlast
        exact hplace
      · rw [List.concat_eq_append, ← List.cons_append, ← List.append_assoc] at h
        obtain ⟨rfl, -⟩ := List.append_inj' h rfl
        exact hparent before e after rfl

/-- Declarations are in order, or there is a first one that is out of its place. -/
theorem exists_misplaced (declarations : List Declaration) :
    InOrder declarations ∨ ∃ before d after fault, declarations = before ++ d :: after ∧
      InOrder before ∧ Misplaced (declaredNames before) d.name fault := by
  induction declarations using List.reverseRecOn with
  | nil => exact Or.inl inOrder_nil
  | append_singleton front d ih =>
    rcases ih with horder | ⟨before, e, after, fault, rfl, hbefore, hfault⟩
    · rcases wellPlaced_or_misplaced (declaredNames front) d.name with hplace | ⟨fault, hfault⟩
      · exact Or.inl (inOrder_concat_iff.mpr ⟨horder, hplace⟩)
      · exact Or.inr ⟨front, d, [], fault, rfl, horder, hfault⟩
    · exact Or.inr ⟨before, e, after ++ [d], fault, by simp, hbefore, hfault⟩

/-! ## Validation -/

/-- The rule that a misplaced declaration breaks. -/
def Misplacement.reason (n : Name) : Misplacement → InvalidConfig
  | orphan p => .undeclaredParent n p
  | repeated => .duplicateNamespace n

namespace Config

/-- The check for the parent finds nothing if the parent is declared, or there is none. -/
theorem filter_parent?_eq_none (h : ∀ p, n.parent? = some p → p ∈ declared) :
    n.parent?.filter (· ∉ declared) = none := by
  rw [Option.filter_eq_none_iff]
  intro p hp
  simpa using h p hp

/-- Behind a declaration in its place the others are checked. -/
theorem checkNamespaces_of_wellPlaced (h : WellPlaced declared d.name)
    (rest : List Declaration) :
    checkNamespaces declared (d :: rest) = checkNamespaces (d.name :: declared) rest := by
  rw [checkNamespaces, filter_parent?_eq_none h.parent_mem]
  exact if_neg h.fresh

/-- A declaration out of its place is rejected. -/
theorem checkNamespaces_of_misplaced {fault : Misplacement} (h : Misplaced declared d.name fault)
    (rest : List Declaration) :
    checkNamespaces declared (d :: rest) = .error (fault.reason d.name) := by
  cases h with
  | @orphan p hp hmem =>
    have hparent : d.name.parent?.filter (· ∉ declared) = some p := by
      rw [hp, Option.filter_some_pos]
      simpa using hmem
    rw [checkNamespaces, hparent]
    rfl
  | repeated hmem hparents =>
    rw [checkNamespaces, filter_parent?_eq_none hparents]
    exact if_pos hmem

/-- Behind declarations in order the others are checked. -/
theorem checkNamespaces_append (h : InOrder before) (rest : List Declaration) :
    checkNamespaces [] (before ++ rest) = checkNamespaces (declaredNames before).reverse rest := by
  induction before using List.reverseRecOn generalizing rest with
  | nil => rfl
  | append_singleton front d ih =>
    obtain ⟨hfront, hfresh, hparent⟩ := inOrder_concat_iff.mp h
    have hplace : WellPlaced (declaredNames front).reverse d.name :=
      ⟨by simpa using hfresh, by simpa using hparent⟩
    rw [List.append_assoc, List.singleton_append, ih hfront, checkNamespaces_of_wellPlaced hplace,
      declaredNames, declaredNames, List.map_append, List.reverse_append]
    rfl

/-- Declarations in order are valid. -/
theorem checkNamespaces_of_inOrder (h : InOrder declarations) :
    checkNamespaces [] declarations = .ok () := by
  have hall := checkNamespaces_append h []
  rwa [List.append_nil] at hall

/-- The first declaration that is out of its place is rejected. -/
theorem checkNamespaces_of_first_misplaced {fault : Misplacement} (h : InOrder before)
    (hd : Misplaced (declaredNames before) d.name fault) (rest : List Declaration) :
    checkNamespaces [] (before ++ d :: rest) = .error (fault.reason d.name) := by
  rw [checkNamespaces_append h]
  refine checkNamespaces_of_misplaced ?_ rest
  cases hd with
  | orphan hp hmem => exact .orphan hp (by simpa using hmem)
  | repeated hmem hparents => exact .repeated (by simpa using hmem) (by simpa using hparents)

/-- Exactly the declarations in order are valid. -/
theorem checkNamespaces_eq_ok_iff :
    checkNamespaces [] declarations = .ok () ↔ InOrder declarations := by
  constructor
  · intro hok
    rcases exists_misplaced declarations with h | ⟨before, d, after, fault, rfl, hbefore, hd⟩
    · exact h
    · rw [checkNamespaces_of_first_misplaced hbefore hd] at hok
      cases hok
  · exact checkNamespaces_of_inOrder

/-- Users are valid if they have names that are neither taken before nor twice. -/
theorem checkUsers_eq_ok_iff {seen : List String} {accounts : List Account} :
    checkUsers seen accounts = .ok () ↔
      (∀ a ∈ accounts, a.username ≠ "" ∧ a.username ∉ seen) ∧
        (accounts.map Account.username).Nodup := by
  induction accounts generalizing seen with
  | nil => simp [checkUsers]
  | cons a rest ih =>
    unfold checkUsers
    split
    · next hempty => simp [hempty]
    · next hname =>
      split
      · next hseen => simp [hseen]
      · next hfresh =>
        have hnew : a.username ∉ rest.map Account.username ↔
            ∀ b ∈ rest, b.username ≠ a.username := by simp
        rw [ih, List.forall_mem_cons, List.map_cons, List.nodup_cons, hnew]
        simp only [List.mem_cons, not_or]
        constructor
        · rintro ⟨hrest, hnodup⟩
          exact ⟨⟨⟨hname, hfresh⟩, fun b hb => ⟨(hrest b hb).1, (hrest b hb).2.2⟩⟩,
            fun b hb => (hrest b hb).2.1, hnodup⟩
        · rintro ⟨⟨-, hrest⟩, hne, hnodup⟩
          exact ⟨fun b hb => ⟨(hrest b hb).1, hne b hb, (hrest b hb).2⟩, hnodup⟩

/-- A configuration is valid if its users and its declarations are. -/
theorem validate_eq_ok_iff {c : Config} :
    c.validate = .ok () ↔
      (∀ a ∈ c.users, a.username ≠ "") ∧ (c.users.map Account.username).Nodup ∧
        InOrder c.namespaces := by
  unfold validate
  rw [← checkNamespaces_eq_ok_iff]
  cases husers : checkUsers [] c.users with
  | ok _ =>
    obtain ⟨hnames, hnodup⟩ := checkUsers_eq_ok_iff.mp husers
    exact ⟨fun h => ⟨fun a ha => (hnames a ha).1, hnodup, h⟩, fun h => h.2.2⟩
  | error e =>
    constructor
    · rintro ⟨⟩
    · rintro ⟨hnames, hnodup, -⟩
      have hok := checkUsers_eq_ok_iff.mpr
        ⟨fun a ha => ⟨hnames a ha, List.not_mem_nil⟩, hnodup⟩
      rw [husers] at hok
      cases hok

end Config

end NamespaceControl
