import NamespaceControl.Proofs.Toml.Values

/-!
# The lines of a written document

A document is read line by line, so what is written line by line is read back by saying of each
line what it is read as, whatever stands below it (`ReadsLines`). Pairs and headers below each
other are grouped into sections again (`sections_lines`).
-/

namespace NamespaceControl.Toml

open Config (elementHeader pairLine tableHeader)

variable {c : Char} {key rest written : List Char} {parts : List String} {d : Data}

/-! ## Keys -/

/-- The characters that a written key can begin with. -/
def BeginsKey (c : Char) : Prop := c = '"' ∨ isBareKeyChar c = true

instance : DecidablePred BeginsKey := fun c => inferInstanceAs (Decidable (c = '"' ∨ _))

/-- A written key begins like a key. -/
theorem exists_writeKey_eq_cons (key : List Char) :
    ∃ c more, writeKey key = c :: more ∧ BeginsKey c := by
  unfold writeKey
  split
  · next h =>
    obtain ⟨hne, hbare⟩ := h
    obtain ⟨c, more, rfl⟩ := List.exists_cons_of_ne_nil hne
    exact ⟨c, more, rfl, Or.inr (List.all_eq_true.mp hbare c List.mem_cons_self)⟩
  · exact ⟨'"', _, rfl, Or.inl rfl⟩

/-- A key does not begin with a character that it cannot begin with. -/
theorem BeginsKey.ne {c' : Char} (h : BeginsKey c) (hc' : ¬ BeginsKey c') : c ≠ c' := by
  rintro rfl
  exact hc' h

/-- A key begins with no space. -/
theorem BeginsKey.not_space (h : BeginsKey c) : isSpace c = false := by
  have hblank : c ≠ ' ' := h.ne (by decide)
  have htab : c ≠ '\t' := h.ne (by decide)
  simp [isSpace, hblank, htab]

/-- A key without quotes is read up to the first character that is no part of it. -/
theorem keyPart?_bare (hne : key ≠ []) (hbare : ∀ c ∈ key, isBareKeyChar c = true)
    (hrest : StopsAt isBareKeyChar rest) :
    keyPart? (key ++ rest) = some (String.ofList key, rest) := by
  have htake : (key ++ rest).takeWhile isBareKeyChar = key := by
    rw [List.takeWhile_append_of_pos hbare, hrest.takeWhile_eq, List.append_nil]
  have hdrop : (key ++ rest).dropWhile isBareKeyChar = rest := by
    rw [List.dropWhile_append_of_pos hbare, hrest.dropWhile_eq]
  have hmark : ∀ mark more, isBareKeyChar mark = false → key ++ rest ≠ mark :: more := by
    intro mark more hmark h
    obtain ⟨c, key', rfl⟩ := List.exists_cons_of_ne_nil hne
    have hc := hbare c List.mem_cons_self
    rw [(List.cons.inj h).1, hmark] at hc
    exact absurd hc Bool.false_ne_true
  unfold keyPart?
  split
  · next h => exact absurd h (hmark _ _ (by decide))
  · next h => exact absurd h (hmark _ _ (by decide))
  · simp only [htake, hdrop, if_neg hne]

/-- A key is read from its written form up to where no more of a key without quotes can stand. -/
theorem keyPart?_writeKey (key : List Char) (h : StopsAt isBareKeyChar rest) :
    keyPart? (writeKey key ++ rest) = some (String.ofList key, rest) := by
  unfold writeKey
  split
  · next hbare => exact keyPart?_bare hbare.1 (List.all_eq_true.mp hbare.2) h
  · have hwritten : writeOneLine key ++ rest = '"' :: (key.flatMap escape ++ '"' :: rest) := by
      simp [writeOneLine]
    rw [hwritten]
    exact scan_escape key rest

/-- A key is read with the spaces around it. -/
theorem spacedKeyPart?_writeKey (key : List Char) (h : StopsAt isBareKeyChar rest) :
    spacedKeyPart? (writeKey key ++ rest) = some (String.ofList key, skipSpaces rest) := by
  have hskip : skipSpaces (writeKey key ++ rest) = writeKey key ++ rest := by
    obtain ⟨c, more, hkey, hc⟩ := exists_writeKey_eq_cons key
    rw [hkey]
    exact (stopsAt_cons hc.not_space _).dropWhile_eq
  rw [spacedKeyPart?, hskip, keyPart?_writeKey key h]
  rfl

/-- A key of one part is read up to the equals sign. -/
theorem key?_writeKey (key rest : List Char) :
    key? (writeKey key ++ ' ' :: '=' :: rest) = some ([String.ofList key], '=' :: rest) := by
  have hpart : spacedKeyPart? (writeKey key ++ ' ' :: '=' :: rest) =
      some (String.ofList key, '=' :: rest) :=
    spacedKeyPart?_writeKey key (stopsAt_cons (by decide) _)
  rw [key?, separated, hpart]
  rfl

/-- The written form of a path. -/
def writePath (parts : List String) : List Char :=
  ['.'].intercalate (parts.map fun part => writeKey part.toList)

/-- What may follow a part of a path at once is no more of a key and no space. -/
def EndsKey (rest : List Char) : Prop := StopsAt isBareKeyChar rest ∧ StopsAt isSpace rest

/-- A path is read up to the bracket that ends it. -/
theorem key?_writePath (hne : parts ≠ []) (hlength : parts.length ≤ depthLimit)
    (rest : List Char) : key? (writePath parts ++ ']' :: rest) = some (parts, ']' :: rest) := by
  have hparts : List.Forall₂ (IsReadAs spacedKeyPart? EndsKey)
      (parts.map fun part => writeKey part.toList) parts := by
    rw [List.forall₂_map_left_iff, List.forall₂_same]
    intro part _ rest hrest
    rw [spacedKeyPart?_writeKey _ hrest.1, skipSpaces, hrest.2.dropWhile_eq, String.ofList_toList]
  have hdot : ∀ more, EndsKey ('.' :: more) :=
    fun more => ⟨stopsAt_cons (by decide) more, stopsAt_cons (by decide) more⟩
  have hbracket : EndsKey (']' :: rest) :=
    ⟨stopsAt_cons (by decide) rest, stopsAt_cons (by decide) rest⟩
  rw [key?, writePath, separated_intercalate hparts (by simpa using hne) hdot hbracket
    (after?_eq_none (by simp))]
  exact if_pos hlength

/-! ## Lines -/

/-- A key with its value is read from its written form. -/
theorem pair?_written {value : Scan Data} (key : List Char)
    (hspace : StopsAt isSpace (written ++ rest))
    (hvalue : value (written ++ rest) = some (d, rest)) :
    pair? value (writeKey key ++ [' ', '=', ' '] ++ written ++ rest) =
      some (([String.ofList key], d), rest) := by
  have hwritten : writeKey key ++ [' ', '=', ' '] ++ written ++ rest =
      writeKey key ++ ' ' :: '=' :: ' ' :: (written ++ rest) := by
    simp
  have hskip : skipSpaces (' ' :: (written ++ rest)) = written ++ rest :=
    hspace.dropWhile_eq
  rw [hwritten, pair?, key?_writeKey]
  simp [hskip, hvalue]

/-- A line that begins like a key has a pair on it. -/
theorem lineContent?_of_beginsKey (hc : BeginsKey c) (rest : List Char) :
    lineContent? (c :: rest) =
      (pair? (value? depthLimit) (c :: rest)).map fun (pair, left) => (.pair pair, left) := by
  unfold lineContent?
  split
  · next h => exact absurd h (List.cons_ne_nil _ _)
  · next h => exact absurd (List.cons.inj h).1 (hc.ne (by decide))
  · next h => exact absurd (List.cons.inj h).1 (hc.ne (by decide))
  · next h => exact absurd (List.cons.inj h).1 (hc.ne (by decide))
  · next h => exact absurd (List.cons.inj h).1 (hc.ne (by decide))
  · next h => exact absurd (List.cons.inj h).1 (hc.ne (by decide))
  · rfl

/-- A path begins like a key. -/
theorem exists_writePath_eq_cons (hne : parts ≠ []) :
    ∃ c more, writePath parts = c :: more ∧ BeginsKey c := by
  obtain ⟨part, more, rfl⟩ := List.exists_cons_of_ne_nil hne
  obtain ⟨c, key, hkey, hc⟩ := exists_writeKey_eq_cons part.toList
  cases more with
  | nil => exact ⟨c, key, by simpa [writePath] using hkey, hc⟩
  | cons next more => exact ⟨c, _, by simp [writePath, hkey]; rfl, hc⟩

/-- The header of a table is read from its written form. -/
theorem lineContent?_table (hne : parts ≠ []) (hlength : parts.length ≤ depthLimit)
    (rest : List Char) :
    lineContent? ('[' :: (writePath parts ++ ']' :: rest)) =
      some (.header (.table parts), rest) := by
  have hkey := key?_writePath hne hlength rest
  obtain ⟨c, more, hpath, hc⟩ := exists_writePath_eq_cons hne
  rw [hpath, List.cons_append] at hkey ⊢
  have hbracket : c ≠ '[' := hc.ne (by decide)
  simp [lineContent?, hbracket, hkey]

/-- The header of one more table in a list of tables is read from its written form. -/
theorem lineContent?_element (hne : parts ≠ []) (hlength : parts.length ≤ depthLimit)
    (rest : List Char) :
    lineContent? ('[' :: '[' :: (writePath parts ++ ']' :: ']' :: rest)) =
      some (.header (.element parts), rest) := by
  simp [lineContent?, key?_writePath hne hlength]

/-- A text is read as lines, whatever stands below it. -/
def ReadsLines (written : List Char) (lines : List DocumentLine) : Prop :=
  ∀ rest, lines? (written ++ rest) = (lines? rest).map (lines ++ ·)

namespace ReadsLines

variable {written' : List Char} {lines lines' : List DocumentLine}

/-- Nothing at all is no line. -/
theorem nil : ReadsLines [] [] := by
  intro rest
  simp

/-- Texts below each other are read one by one. -/
theorem append (h : ReadsLines written lines) (h' : ReadsLines written' lines') :
    ReadsLines (written ++ written') (lines ++ lines') := by
  intro rest
  rw [List.append_assoc, h, h', Option.map_map]
  congr 1
  funext more
  exact (List.append_assoc _ _ _).symm

/-- Texts that are written for the items of a list are read one by one. -/
theorem flatMap {α : Type} {items : List α} {write : α → List Char} {read : α → List DocumentLine}
    (h : ∀ item ∈ items, ReadsLines (write item) (read item)) :
    ReadsLines (items.flatMap write) (items.flatMap read) := by
  induction items with
  | nil => exact nil
  | cons item items ih =>
    obtain ⟨hitem, hitems⟩ := List.forall_mem_cons.mp h
    rw [List.flatMap_cons, List.flatMap_cons]
    exact hitem.append (ih hitems)

/-- Texts that are written for the items of a list, a line for each, are read one by one. -/
theorem map {α : Type} {items : List α} {write : α → List Char} {read : α → DocumentLine}
    (h : ∀ item, ReadsLines (write item) [read item]) :
    ReadsLines (items.flatMap write) (items.map read) := by
  have hlines : items.map read = items.flatMap fun item => [read item] :=
    List.map_eq_flatMap
  rw [hlines]
  exact flatMap fun item _ => h item

/-- A document that is read as lines has just these lines. -/
theorem lines?_eq (h : ReadsLines written lines) : lines? written = some lines := by
  have hend : lines? [] = some [] := by rw [lines?, if_pos rfl]
  have hall := h []
  rwa [List.append_nil, hend, Option.map_some, List.append_nil] at hall

/-- A line is read by what stands on it. -/
theorem line {line : DocumentLine}
    (hspace : StopsAt isSpace (written ++ ['\n']))
    (h : ∀ rest, lineContent? (written ++ '\n' :: rest) = some (line, '\n' :: rest)) :
    ReadsLines (written ++ ['\n']) [line] := by
  intro rest
  have hwritten : written ++ ['\n'] ++ rest = written ++ '\n' :: rest := by simp
  have hskip : skipSpaces (written ++ '\n' :: rest) = written ++ '\n' :: rest := by
    cases written with
    | nil => exact StopsAt.dropWhile_eq hspace
    | cons c more => exact (stopsAt_cons (hspace c rfl) _).dropWhile_eq
  have hne : written ++ '\n' :: rest ≠ [] := by simp
  have hless : rest.length < (written ++ '\n' :: rest).length := by
    rw [List.length_append, List.length_cons]
    omega
  have hend : afterLine? ('\n' :: rest) = some rest := rfl
  rw [hwritten, lines?, if_neg hne, hskip, h]
  simp only [hend, if_pos hless, List.singleton_append]

/-- An empty line is read as such. -/
theorem empty : ReadsLines ['\n'] [.empty] := by
  have hline : ReadsLines ([] ++ ['\n']) [.empty] := line (stopsAt_cons (by decide) _) fun _ => rfl
  exact hline

/-- A pair is read from the line that is written for it. -/
theorem pairLine (key : String) (h : ReadsValue depthLimit written d) :
    ReadsLines (pairLine key.toList written) [.pair ([key], d)] := by
  obtain ⟨c, more, hkey, hc⟩ := exists_writeKey_eq_cons key.toList
  refine line ?_ fun rest => ?_
  · rw [hkey]
    exact stopsAt_cons hc.not_space _
  · have hvalue := h.read ('\n' :: rest) (endsValue_cons (by decide) rest)
    have hread := pair?_written key.toList (h.stopsAt _) hvalue
    rw [hkey, String.ofList_toList] at hread
    rw [hkey]
    simp only [List.cons_append] at hread ⊢
    rw [lineContent?_of_beginsKey hc, hread]
    rfl

/-- The header of a table is read from the lines that are written for it. -/
theorem tableHeader {path : String} (hpath : path.toList = writePath parts) (hne : parts ≠ [])
    (hlength : parts.length ≤ depthLimit) :
    ReadsLines (tableHeader path) [.empty, .header (.table parts)] := by
  have hwritten : Config.tableHeader path =
      ['\n'] ++ ('[' :: (writePath parts ++ [']']) ++ ['\n']) := by
    simp [Config.tableHeader, hpath]
  have hheader : ReadsLines ('[' :: (writePath parts ++ [']']) ++ ['\n'])
      [.header (.table parts)] := by
    refine line (stopsAt_cons (by decide) _) fun rest => ?_
    simpa using lineContent?_table hne hlength ('\n' :: rest)
  rw [hwritten]
  exact empty.append hheader

/-- The header of one more table in a list of tables is read from the lines that are written for
it. -/
theorem elementHeader {path : String} (hpath : path.toList = writePath parts) (hne : parts ≠ [])
    (hlength : parts.length ≤ depthLimit) :
    ReadsLines (elementHeader path) [.empty, .header (.element parts)] := by
  have hwritten : Config.elementHeader path =
      ['\n'] ++ ('[' :: '[' :: (writePath parts ++ [']', ']']) ++ ['\n']) := by
    simp [Config.elementHeader, hpath]
  have hheader : ReadsLines ('[' :: '[' :: (writePath parts ++ [']', ']']) ++ ['\n'])
      [.header (.element parts)] := by
    refine line (stopsAt_cons (by decide) _) fun rest => ?_
    simpa using lineContent?_element hne hlength ('\n' :: rest)
  rw [hwritten]
  exact empty.append hheader

end ReadsLines

/-! ## Sections -/

/-- The lines of a section, with an empty one before its header. -/
def Section.lines (s : Section) : List DocumentLine :=
  .empty :: .header s.header :: s.pairs.map .pair

/-- Pairs stand in the section of the header above them. -/
theorem sections_pairs (pairs : List (List String × Data)) (rest : List DocumentLine) :
    sections (pairs.map .pair ++ rest) = (pairs ++ (sections rest).1, (sections rest).2) := by
  induction pairs with
  | nil => rfl
  | cons pair pairs ih =>
    rw [List.map_cons, List.cons_append, sections, ih]
    rfl

/-- **The lines of sections are grouped into these sections.** -/
theorem sections_lines (pairs : List (List String × Data)) (more : List Section) :
    sections (pairs.map .pair ++ more.flatMap Section.lines) = (pairs, more) := by
  induction more generalizing pairs with
  | nil =>
    rw [List.flatMap_nil, sections_pairs]
    simp [sections]
  | cons s more ih =>
    rw [List.flatMap_cons, sections_pairs, Section.lines, List.cons_append, List.cons_append,
      sections, sections, ih]
    simp

end NamespaceControl.Toml
