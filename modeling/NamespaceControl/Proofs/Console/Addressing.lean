import NamespaceControl.Proofs.Command.WrittenForm
import NamespaceControl.Proofs.Console.Effects
import NamespaceControl.Proofs.ControlPlane
import NamespaceControl.Proofs.Execution.Report

/-!
# Which namespaces can be named

Names allow more than statements do: a segment may be a reserved word. So every name can be
configured (`exists_ofConfig_contains`) and inserted, but no text makes a statement about a name
with a reserved segment, and no script selects such a namespace (`isUnreserved_of_selected`). Every
other name is read from the written form of a statement, which is also a line of its own
(`Line.ofText_text`).
-/

namespace NamespaceControl

open Command (IsUnreserved Keyword Statement Token)

variable {s : Statement} {n : Name} {store : Store} {session : Session}

/-! ## Namespaces that are configured -/

/-- Every name can be declared behind the names above it. -/
theorem exists_inOrder (n : Name) :
    ∃ declarations, InOrder declarations ∧ n ∈ declaredNames declarations ∧
      ∀ m ∈ declaredNames declarations, m.Covers n := by
  induction n using Name.inductionOnParent with
  | step n ih =>
    obtain ⟨above, horder, hplace, hcovers⟩ : ∃ above, InOrder above ∧
        WellPlaced (declaredNames above) n ∧ ∀ m ∈ declaredNames above, m.Covers n := by
      cases hp : n.parent? with
      | none => exact ⟨[], inOrder_nil, ⟨List.not_mem_nil, by simp [hp]⟩, by simp [declaredNames]⟩
      | some p =>
        obtain ⟨above, horder, hmem, hcovers⟩ := ih p hp
        have hfresh : n ∉ declaredNames above := fun hn =>
          Name.not_covers_of_parent? hp (hcovers n hn)
        refine ⟨above, horder, ⟨hfresh, fun p' hp' => ?_⟩, fun m hm => ?_⟩
        · obtain rfl := Option.some.inj (hp.symm.trans hp')
          exact hmem
        · exact (hcovers m hm).trans (Name.covers_of_parent? hp)
    refine ⟨above ++ [⟨n, ∅⟩], inOrder_concat_iff.mpr ⟨horder, hplace⟩, by simp [declaredNames], ?_⟩
    intro m hm
    rw [declaredNames, List.map_append, List.mem_append] at hm
    rcases hm with hm | hm
    · exact hcovers m hm
    · obtain rfl := List.mem_singleton.mp hm
      exact m.covers_refl

/-- Every name is that of a namespace that some configuration starts with. -/
theorem exists_ofConfig_contains (n : Name) :
    ∃ c plane, ControlPlane.ofConfig c = .ok plane ∧ plane.namespaces.contains n = true := by
  obtain ⟨declarations, horder, hn, -⟩ := exists_inOrder n
  have hvalid : Config.validate { Config.default with namespaces := declarations } = .ok () :=
    Config.validate_eq_ok_iff.mpr
      ⟨by simp [Config.default, Account.default], by simp [Config.default], horder⟩
  obtain ⟨store, hholds, hplane⟩ := ControlPlane.ofConfig_of_valid hvalid
  exact ⟨_, _, hplane, (hholds.contains_iff n).mpr hn⟩

/-! ## Lines that are written forms -/

/-- A written form begins with a word, and a blank follows. -/
theorem exists_text_eq (hs : s.target? = some n) :
    ∃ c chars more, s.text.toList = c :: (chars ++ ' ' :: more) ∧ isWordChar c = true := by
  obtain ⟨k, ks, hkeywords⟩ : ∃ k ks, s.keywords = k :: ks := by
    cases s with
    | useNamespace _ | createNamespace _ | dropNamespace _ | showNamespaces => exact ⟨_, _, rfl⟩
  obtain ⟨c, chars, hk, hc⟩ := (Command.Part.keyword k).exists_cons
  have hk : k.text.toList = c :: chars := hk
  refine ⟨c, chars, (Command.keywordsText ks ++ n.text).toList, ?_, hc⟩
  simp [Command.Statement.text_eq hs, hkeywords, Command.keywordsText, hk]

/-- There are no blanks around a written form. -/
theorem trim_text (hs : s.target? = some n) : Text.trim s.text.toList = s.text.toList := by
  obtain ⟨first, chars, more, htext, hfirst⟩ := exists_text_eq hs
  obtain ⟨last, hlast, hword⟩ := n.exists_getLast?_text
  refine Text.trim_eq_self (fun c hc => ?_) (fun c hc => ?_)
  · obtain rfl : first = c := by simpa [htext] using hc
    exact Command.isBlank_eq_false_of_isWordChar hfirst
  · rw [Command.Statement.text_eq hs, String.toList_append, List.getLast?_append, hlast,
      Option.some_or] at hc
    obtain rfl := Option.some.inj hc
    exact Command.isBlank_eq_false_of_isWordChar hword

/-- A written form that is read back is a line with that statement. -/
theorem Line.ofText_text (hs : s.target? = some n) (h : Statement.parse s.text = .ok s) :
    Line.ofText s.text = .statement s := by
  obtain ⟨first, chars, more, htext, hfirst⟩ := exists_text_eq hs
  -- a request to leave has no blank, and a comment does not begin with a word
  have hleave : ¬ (s.text = "exit" ∨ s.text = "quit") := by
    have hblank : ' ' ∈ s.text.toList := by simp [htext]
    rintro (hexit | hquit)
    · rw [hexit] at hblank
      exact absurd hblank (by decide)
    · rw [hquit] at hblank
      exact absurd hblank (by decide)
  have hcomment : ∀ c, isWordChar c = false → ([c, c].isPrefixOf s.text.toList) = false := by
    intro c hc
    have hne : c ≠ first := by
      rintro rfl
      rw [hc] at hfirst
      cases hfirst
    rw [htext, List.isPrefixOf_cons_cons, beq_eq_false_iff_ne.mpr hne, Bool.false_and]
  unfold Line.ofText
  dsimp only
  rw [trim_text hs, String.ofList_toList, if_neg (by simp [htext]), if_neg hleave,
    hcomment '/' (by decide), hcomment '-' (by decide), h]
  rfl

/-- A line with a statement is a text that is parsed as it, but for the blanks around the line. -/
theorem Line.exists_parse_of_ofText {line : String} (h : Line.ofText line = .statement s) :
    ∃ input, Statement.parse input = .ok s := by
  have hclass := Line.isOf_ofText line
  rw [h] at hclass
  cases hclass with
  | statement _ hs => exact ⟨_, hs⟩

/-! ## Selections -/

/-- A statement leaves the selection or selects its target. -/
theorem selected_execute (faults : Faults)
    (h : (execute faults store session s).session.selected = some n) :
    session.selected = some n ∨ s = .useNamespace n := by
  cases s with
  | useNamespace target =>
    have houtcome : Execution.Outcome store session (.useNamespace target)
        (execute faults store session (.useNamespace target)) :=
      Execution.outcome_useNamespace target
    by_cases hok : (execute faults store session (.useNamespace target)).response.status = .ok
    · rw [houtcome.session_eq_of_ok hok] at h
      obtain rfl := Option.some.inj h
      exact Or.inr rfl
    · rw [houtcome.session_eq fun _ _ => hok] at h
      exact Or.inl h
  | createNamespace _ | dropNamespace _ | showNamespaces => exact Or.inl h

/-- Lines that select a namespace can name it. -/
theorem isUnreserved_of_selected {lines : List String}
    (hselected : (effects store session (lines.map Line.ofText)).session.selected = some n)
    (hstart : session.selected ≠ some n) : IsUnreserved n := by
  induction lines generalizing store session with
  | nil => exact absurd hselected hstart
  | cons line rest ih =>
    rw [List.map_cons] at hselected
    cases hline : Line.ofText line with
    | leave =>
      rw [hline] at hselected
      exact absurd hselected hstart
    | blank | comment _ | invalid _ =>
      rw [hline] at hselected
      exact ih hselected hstart
    | statement s =>
      rw [hline] at hselected
      by_cases hnext : (execute .none store session s).session.selected = some n
      · obtain rfl := (selected_execute .none hnext).resolve_left hstart
        obtain ⟨input, hinput⟩ := Line.exists_parse_of_ofText hline
        exact Command.isUnreserved_of_parse rfl hinput
      · exact ih hselected hnext

/-- The written form of a selection selects a namespace that exists for an administrator. -/
theorem selected_scriptEffects_text (hn : IsUnreserved n) (hthere : store.contains n = true)
    (hadmin : session.user.admin = true) :
    (scriptEffects store session (Statement.useNamespace n).text).session.selected = some n := by
  have hparse := Command.parse_text_of_isUnreserved (s := .useNamespace n) rfl hn
  have hlines :
      scriptLines (Statement.useNamespace n).text = [(Statement.useNamespace n).text] := by
    obtain ⟨c, chars, more, htext, -⟩ := exists_text_eq (s := .useNamespace n) rfl
    rw [scriptLines, textLines_of_not_mem (by simp [htext])
      (Command.Statement.lineFeed_not_mem_text _), List.map_singleton, String.ofList_toList]
  rw [scriptEffects, hlines, List.map_singleton, Line.ofText_text rfl hparse]
  simp [effects, Effects.behind, execute, Execution.useNamespace, Store.get, hthere, hadmin,
    Session.select]

/-! ## Statements about a namespace -/

/-- **A written form is read back unless a segment is reserved.** The written form of a statement
about a namespace is parsed as that statement if no segment of the name is a reserved word. If one
is, the first such segment is found where a namespace is asked for, or an identifier behind a dot:
its text is what the error names as found, and it stands on the first line, behind all the text in
front of it. Every name can be configured, and inserted where its parent is; but exactly the names
without a reserved segment are named by some statement, and only those can be selected by running a
script. -/
theorem text_parsed_or_refused (s : Statement) (n : Name) (hs : s.target? = some n) :
    (IsUnreserved n → Statement.parse s.text = .ok s) ∧
    (¬ IsUnreserved n → ∃ before k after front expected,
      n.segments = before ++ Keyword.text k :: after ∧
      (∀ w ∈ before, ∀ k' : Keyword, w ≠ k'.text) ∧
      s.text = front ++ (k.text ++ trailing after) ∧
      Statement.parse s.text =
        .error (.unexpected ⟨.keyword k, ⟨1, 1 + front.length⟩⟩ expected) ∧
      (Token.keyword k).literal = k.text ∧
      expected.text = if before = [] then "namespace" else "identifier") ∧
    ((∃ input, Statement.parse input = .ok s) ↔ IsUnreserved n) ∧
    (∃ c plane, ControlPlane.ofConfig c = .ok plane ∧ plane.namespaces.contains n = true) ∧
    (∀ (store : Store) (grants : List Grant), store.contains n = false →
      (∀ p, n.parent? = some p → store.contains p = true) →
      ∃ store', store.insert n grants = .ok store' ∧ store'.contains n = true) ∧
    ∀ (store : Store) (u : User), store.contains n = true → u.admin = true →
      ((∃ script, (scriptEffects store (.start u) script).session.selected = some n) ↔
        IsUnreserved n) := by
  refine ⟨Command.parse_text_of_isUnreserved hs, fun hn => ?_, Command.exists_parse_iff hs,
    exists_ofConfig_contains n, fun store grants habsent hparent => ?_,
    fun store u hthere hadmin => ⟨?_, fun hn => ?_⟩⟩
  · obtain ⟨before, k, after, hsegments, hbefore⟩ := Command.exists_first_reserved hn
    refine ⟨before, k, after, _, _, hsegments, hbefore, s.text_eq_append hs hsegments,
      Command.parse_text_of_reserved hs hsegments hbefore, rfl, ?_⟩
    split
    · rfl
    · rfl
  · obtain ⟨store', hinsert, hinserts⟩ := Store.exists_inserts grants habsent hparent
    exact ⟨store', hinsert, (hinserts.contains_iff n).mpr (Or.inl rfl)⟩
  · rintro ⟨script, hselected⟩
    exact isUnreserved_of_selected hselected (Option.some_ne_none n).symm
  · exact ⟨_, selected_scriptEffects_text hn hthere hadmin⟩

/-- The name `acme.USE.x` can be configured, but no statement creates it: its written form is
refused at the second segment. -/
theorem text_parsed_or_refused_use :
    let n : Name := ⟨["acme", "USE", "x"], by decide, by decide⟩
    let s : Statement := .createNamespace n
    s.target? = some n ∧ ¬ IsUnreserved n ∧
      (∃ c plane, ControlPlane.ofConfig c = .ok plane ∧ plane.namespaces.contains n = true) ∧
      (¬ ∃ input, Statement.parse input = .ok s) ∧
      Statement.parse s.text = .error (.unexpected ⟨.keyword .useKw, ⟨1, 23⟩⟩ .identifier) ∧
      (Token.keyword .useKw).literal = "USE" := by
  intro n s
  have hreserved : ¬ IsUnreserved n := fun h => h "USE" (by decide) .useKw rfl
  obtain ⟨-, -, hparse, hconfig, -, -⟩ := text_parsed_or_refused s n rfl
  have hbefore : ∀ w ∈ ["acme"], ∀ k : Keyword, w ≠ k.text := by
    intro w hw k
    obtain rfl := List.mem_singleton.mp hw
    cases k <;> decide
  have hsegments : n.segments = ["acme"] ++ Keyword.text .useKw :: ["x"] := rfl
  have hrefused := Command.parse_text_of_reserved (s := s) rfl hsegments hbefore
  have hlength : (Command.keywordsText s.keywords ++ leading ["acme"]).length = 22 := by decide
  rw [hlength] at hrefused
  exact ⟨rfl, hreserved, hconfig, mt hparse.mp hreserved, hrefused, rfl⟩

end NamespaceControl
