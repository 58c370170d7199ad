import NamespaceControl.Execution
import NamespaceControl.Proofs.Name.Text

/-!
# What responses are written

Whatever becomes of a statement, its response is one of a few (`Execution.IsReply`), whose messages
and rows are fixed texts and names. So none of them has a line feed, and whether the response
reports success is told by its status. Written as text, such a response has its headline on the
first line and each row on a line of its own (`Response.IsPlain.pieces_text`), and is told from
every other one (`Response.IsPlain.eq_of_text_eq`), although success is not written.
-/

namespace NamespaceControl

open Command (Statement)

/-! ## The lines of a response -/

namespace Response

variable {r other : Response} {status : Status} {message : String}

/-- The first line of a response: the status, with the message behind it if there is one. -/
def headline (r : Response) : String :=
  r.status.text ++ if r.message = "" then "" else ": " ++ r.message

/-- Neither the message nor a row of the response has a line feed, and the status tells whether it
reports success. -/
structure IsPlain (r : Response) : Prop where
  /-- The message is on one line. -/
  message_line : '\n' ∉ r.message.toList
  /-- Each row is on one line. -/
  row_line : ∀ row ∈ r.rows, '\n' ∉ row.toList
  /-- Success is a matter of the status. -/
  success_iff : r.success = true ↔ r.status = .ok ∨ r.status = .namespaceAlreadyExists

/-- A refusal is plain if its message is on one line. -/
theorem isPlain_failed (hok : status ≠ .ok) (hexisting : status ≠ .namespaceAlreadyExists)
    (hmessage : '\n' ∉ message.toList) : (failed status message).IsPlain where
  message_line := hmessage
  row_line := by simp [failed]
  success_iff := by simp [failed, hok, hexisting]

/-- A success is plain if its message is on one line. -/
theorem isPlain_succeeded (hstatus : status = .ok ∨ status = .namespaceAlreadyExists)
    (hmessage : '\n' ∉ message.toList) : (succeeded status message).IsPlain where
  message_line := hmessage
  row_line := by simp [succeeded]
  success_iff := by simp [succeeded, hstatus]

/-- A listing of names is plain. -/
theorem isPlain_listing (names : List Name) : (listing (names.map Name.text)).IsPlain where
  message_line := by simp [listing, ok, succeeded]
  row_line row hrow := by
    obtain ⟨n, -, rfl⟩ := List.mem_map.mp hrow
    exact n.lineFeed_not_mem_text
  success_iff := by simp [listing, ok, succeeded]

/-- No status has a colon or a line feed in its written form. -/
theorem separator_not_mem_status (s : Status) : ':' ∉ s.text.toList ∧ '\n' ∉ s.text.toList := by
  cases s <;> decide

/-- Statuses that are written alike are the same. -/
theorem status_injective {s t : Status} (h : s.text = t.text) : s = t := by
  have hread := Status.ofText?_text s
  rw [h, Status.ofText?_text] at hread
  exact (Option.some.inj hread).symm

/-- The status comes before the first colon of a headline. -/
theorem takeWhile_headline (r : Response) :
    r.headline.toList.takeWhile (· != ':') = r.status.text.toList := by
  have hstatus : ∀ c ∈ r.status.text.toList, (c != ':') = true := by
    intro c hc
    rw [bne_iff_ne]
    rintro rfl
    exact (separator_not_mem_status r.status).1 hc
  rw [headline, String.toList_append, List.takeWhile_append_of_pos hstatus]
  split
  · simp
  · simp

/-- A headline is that of one status and one message. -/
theorem eq_of_headline_eq (h : r.headline = other.headline) :
    r.status = other.status ∧ r.message = other.message := by
  have hstatus : r.status = other.status := by
    apply status_injective
    rw [← String.toList_inj, ← takeWhile_headline, ← takeWhile_headline, h]
  refine ⟨hstatus, ?_⟩
  rw [headline, headline, hstatus, String.append_right_inj] at h
  by_cases hr : r.message = ""
  · by_cases hother : other.message = ""
    · rw [hr, hother]
    · simp [hr, hother] at h
  · by_cases hother : other.message = ""
    · simp [hr, hother] at h
    · rwa [if_neg hr, if_neg hother, String.append_right_inj] at h

/-- The text of a response is its headline and its rows with line feeds between them. -/
theorem text_eq_intercalate (r : Response) : r.text = "\n".intercalate (r.headline :: r.rows) :=
  (Text.intercalate_cons "\n" r.headline r.rows).symm

namespace IsPlain

/-- The headline of a plain response is one line. -/
theorem lineFeed_not_mem_headline (h : r.IsPlain) : '\n' ∉ r.headline.toList := by
  rw [headline, String.toList_append, List.mem_append, not_or]
  refine ⟨(separator_not_mem_status r.status).2, ?_⟩
  split
  · simp
  · rw [String.toList_append, List.mem_append, not_or]
    exact ⟨by decide, h.message_line⟩

/-- The lines of a plain response are its headline and its rows. -/
theorem forall_line (h : r.IsPlain) : ∀ line ∈ r.headline :: r.rows, '\n' ∉ line.toList :=
  List.forall_mem_cons.mpr ⟨h.lineFeed_not_mem_headline, h.row_line⟩

/-- The text of a plain response is cut into its headline and its rows. -/
theorem pieces_text (h : r.IsPlain) :
    (Text.pieces '\n' r.text.toList).map String.ofList = r.headline :: r.rows := by
  rw [text_eq_intercalate]
  exact Text.pieces_intercalate (List.cons_ne_nil _ _) h.forall_line

/-- **Plain responses that are written alike are the same.** -/
theorem eq_of_text_eq (hr : r.IsPlain) (hother : other.IsPlain) (h : r.text = other.text) :
    r = other := by
  have hlines : r.headline :: r.rows = other.headline :: other.rows := by
    rw [← hr.pieces_text, ← hother.pieces_text, h]
  obtain ⟨hheadline, hrows⟩ := List.cons.inj hlines
  obtain ⟨hstatus, hmessage⟩ := eq_of_headline_eq hheadline
  have hsuccess : r.success = other.success := by
    rw [Bool.eq_iff_iff, hr.success_iff, hother.success_iff, hstatus]
  obtain ⟨_, _, _, _⟩ := r
  obtain ⟨_, _, _, _⟩ := other
  congr

end IsPlain

/-- A message with a line feed would look like a row. -/
example : (succeeded .ok "a\nb").text = { succeeded .ok "a" with rows := ["b"] }.text := by decide

end Response

/-! ## The responses to statements -/

namespace Execution

/-- The responses that statements get. -/
inductive IsReply : Response → Prop where
  /-- A namespace was selected. -/
  | selected : IsReply .ok
  /-- A namespace may not be selected. -/
  | notSelected : IsReply (.failed .unauthorized "")
  /-- Names were listed. -/
  | listed (names : List Name) : IsReply (.listing (names.map Name.text))
  /-- A namespace was created. -/
  | created : IsReply (.succeeded .ok "namespace created")
  /-- The namespace to create is there. -/
  | existing (n : Name) : IsReply (alreadyExists n)
  /-- A root may not be created. -/
  | rootRefused :
      IsReply (.failed .unauthorized "root namespaces can only be created by an admin")
  /-- A child may not be created. -/
  | childRefused (n : Name) :
      IsReply (.failed .unauthorized ("cannot create namespace '" ++ n.text ++ "'"))
  /-- A namespace cannot be created. -/
  | notCreated (n : Name) : IsReply (Execution.notCreated n)
  /-- A namespace was dropped. -/
  | dropped : IsReply (.succeeded .ok "namespace dropped")
  /-- A namespace may not be dropped. -/
  | dropRefused (n : Name) :
      IsReply (.failed .unauthorized ("cannot drop namespace '" ++ n.text ++ "'"))
  /-- The namespace to drop has children. -/
  | hasChildren (n : Name) : IsReply (.failed .dropNamespaceError
      ("namespace '" ++ n.text ++ "' still has child namespaces"))
  /-- A namespace cannot be dropped. -/
  | notDropped (n : Name) :
      IsReply (.failed .dropNamespaceError ("could not drop namespace '" ++ n.text ++ "'"))
  /-- A namespace is not there. -/
  | missing (n : Name) : IsReply (Execution.missing n)
  /-- The store cannot be read. -/
  | storeFault : IsReply Execution.storeFault

variable {faults : Faults} {store : Store} {session : Session} {user : User} {r : Response}

/-- A response about a namespace is on one line if the text around the name is. -/
theorem lineFeed_not_mem_around {front back : String} (n : Name) (hfront : '\n' ∉ front.toList)
    (hback : '\n' ∉ back.toList) : '\n' ∉ (front ++ n.text ++ back).toList := by
  simp only [String.toList_append, List.mem_append, not_or]
  exact ⟨⟨hfront, n.lineFeed_not_mem_text⟩, hback⟩

/-- The responses that statements get are plain. -/
theorem IsReply.isPlain (h : IsReply r) : r.IsPlain := by
  cases h with
  | selected => exact Response.isPlain_succeeded (Or.inl rfl) (by simp)
  | listed names => exact Response.isPlain_listing names
  | created | dropped => exact Response.isPlain_succeeded (Or.inl rfl) (by simp)
  | existing n => exact Response.isPlain_succeeded (Or.inr rfl) n.lineFeed_not_mem_text
  | missing n => exact Response.isPlain_failed (by simp) (by simp) n.lineFeed_not_mem_text
  | notSelected | rootRefused | storeFault =>
    exact Response.isPlain_failed (by simp) (by simp) (by simp)
  | childRefused n | notCreated n | dropRefused n | hasChildren n | notDropped n =>
    exact Response.isPlain_failed (by simp) (by simp)
      (lineFeed_not_mem_around n (by simp) (by simp))

/-- Selecting a namespace is answered. -/
theorem isReply_useNamespace (target : Name) :
    IsReply (useNamespace faults store session target).2 := by
  unfold useNamespace
  split
  · exact .missing target
  · exact .storeFault
  · split
    · exact .selected
    · exact .notSelected

/-- Creating a root that is not there is answered. -/
theorem isReply_createRoot (target : Name) : IsReply (createRoot faults store user target).2 := by
  unfold createRoot
  split
  · exact .rootRefused
  · split
    · exact .created
    · exact .existing target
    · exact .notCreated target

/-- Creating a child that is not there is answered. -/
theorem isReply_createBelow (parent target : Name) :
    IsReply (createBelow faults store user parent target).2 := by
  unfold createBelow
  split
  · exact .missing parent
  · exact .storeFault
  · split
    · exact .childRefused target
    · split
      · exact .created
      · exact .existing target
      · exact .missing _
      · exact .notCreated target

/-- Creating a namespace is answered. -/
theorem isReply_createNamespace (target : Name) :
    IsReply (createNamespace faults store user target).2 := by
  unfold createNamespace
  split
  · exact .storeFault
  · exact .existing target
  · split
    · exact isReply_createRoot target
    · next parent _ => exact isReply_createBelow parent target

/-- Dropping a namespace is answered. -/
theorem isReply_dropNamespace (target : Name) :
    IsReply (dropNamespace faults store user target).2 := by
  unfold dropNamespace
  split
  · exact .missing target
  · exact .storeFault
  · split
    · exact .dropRefused target
    · split
      · exact .dropped
      · exact .hasChildren target
      · exact .missing target
      · exact .notDropped target

/-- A listing is answered. -/
theorem isReply_showNamespaces : IsReply (showNamespaces faults store user) := by
  unfold showNamespaces
  dsimp only
  split
  · next names _ => exact .listed names
  · exact .storeFault

/-- **Every statement gets one of the responses**, whatever the store holds and whichever calls
fail. -/
theorem isReply_execute (faults : Faults) (store : Store) (session : Session)
    (statement : Statement) : IsReply (execute faults store session statement).response := by
  cases statement with
  | useNamespace target => exact isReply_useNamespace target
  | createNamespace target => exact isReply_createNamespace target
  | dropNamespace target => exact isReply_dropNamespace target
  | showNamespaces => exact isReply_showNamespaces

end Execution

end NamespaceControl
