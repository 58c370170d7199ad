import NamespaceControl.Text.Pieces

/-!
# Namespace names

A name is a path of segments, written with dots between them: `acme.example` is the child of
`acme`, and `acme` is a root. The parent of a namespace is never stored; it is read off its name.

Names are ordered by their segments, so that a namespace comes before everything below it.
-/

namespace NamespaceControl

/-! ## Segments -/

/-- The characters of a word: ASCII letters, ASCII digits and the underscore. -/
def isWordChar (c : Char) : Bool := c.isAlphanum || c == '_'

/-- A segment of a name is a word that is not empty. -/
def IsSegment (s : String) : Prop := s ≠ "" ∧ ∀ c ∈ s.toList, isWordChar c = true

instance (s : String) : Decidable (IsSegment s) :=
  @instDecidableAnd _ _ inferInstance (List.decidableBAll _ s.toList)

/-! ## Names -/

/-- A fully qualified namespace name: at least one segment, and every segment a word. -/
structure Name where
  /-- The segments, from the root down. -/
  segments : List String
  /-- There is a segment. -/
  segments_ne_nil : segments ≠ []
  /-- Every segment is a word. -/
  isSegment : ∀ s ∈ segments, IsSegment s
  deriving DecidableEq

/-- What is wrong with a text, or with a list of segments, that is no name. -/
inductive NameError where
  /-- There is nothing at all. -/
  | empty
  /-- A segment is empty; the whole text is kept. -/
  | emptySegment (text : String)
  /-- A segment has a character that no word has. -/
  | invalidSegment (segment : String)
  deriving DecidableEq, Repr

/-- The wording of a name error. -/
def NameError.message : NameError → String
  | .empty => "namespace name is empty"
  | .emptySegment text => "namespace '" ++ text ++ "' contains an empty segment"
  | .invalidSegment segment =>
    "namespace segment '" ++ segment ++ "' must only contain letters, digits or '_'"

/-- The segments joined by dots. -/
def dotted (segments : List String) : String := ".".intercalate segments

/-- The first segment that is not a word decides what is wrong with a list of segments; a list
without one is wrong only if it is empty. -/
def NameError.ofSegments (segments : List String) : NameError :=
  match segments.find? fun s => !decide (IsSegment s) with
  | none => .empty
  | some s => if s = "" then .emptySegment (dotted segments) else .invalidSegment s

namespace Name

/-- The name with the given segments, if they make one. -/
def ofSegments (segments : List String) : Except NameError Name :=
  if h : segments ≠ [] ∧ ∀ s ∈ segments, IsSegment s then .ok ⟨segments, h.1, h.2⟩
  else .error (.ofSegments segments)

/-- The name that a text writes. The empty text has no segment, not an empty one. -/
def parse (text : String) : Except NameError Name :=
  if text = "" then .error .empty
  else ofSegments ((Text.pieces '.' text.toList).map String.ofList)

/-- The written form of a name. -/
def text (n : Name) : String := dotted n.segments

/-- The number of segments. -/
def depth (n : Name) : Nat := n.segments.length

/-- A root has one segment. -/
def isRoot (n : Name) : Bool := n.depth == 1

/-- The name without its last segment; a root has no parent. -/
def parent? (n : Name) : Option Name :=
  if h : n.segments.dropLast = [] then none
  else some ⟨n.segments.dropLast, h, fun s hs => n.isSegment s (List.dropLast_subset _ hs)⟩

/-- True if `child` is `n` with one more segment. -/
def isParentOf (n child : Name) : Bool :=
  child.depth == n.depth + 1 && n.segments.isPrefixOf child.segments

/-- A parent has the segments of its child but the last. -/
theorem segments_of_parent? {n p : Name} (h : n.parent? = some p) :
    p.segments = n.segments.dropLast := by
  unfold parent? at h
  split at h
  · simp at h
  · exact (congrArg segments (Option.some.inj h)).symm

/-- A parent has one segment less than its child. -/
theorem depth_of_parent? {n p : Name} (h : n.parent? = some p) : n.depth = p.depth + 1 := by
  have hlen : n.segments.length ≠ 0 := fun h0 => n.segments_ne_nil (List.length_eq_zero_iff.mp h0)
  rw [depth, depth, segments_of_parent? h, List.length_dropLast]
  omega

/-- The parent, its parent and so on, up to the root. -/
def ancestors (n : Name) : List Name :=
  match _h : n.parent? with
  | none => []
  | some p => p :: p.ancestors
termination_by n.depth
decreasing_by exact depth_of_parent? _h ▸ Nat.lt_succ_self _

/-! ## Order -/

instance : Ord Name := ⟨compareOn segments⟩

instance : Std.TransOrd Name := inferInstanceAs (Std.TransCmp (compareOn segments))

/-- Names with the same segments are the same. -/
theorem ext_segments {a b : Name} (h : a.segments = b.segments) : a = b := by
  cases a; cases b; cases h; rfl

instance : Std.LawfulEqOrd Name where
  compare_self {a} := (Std.ReflCmp.compare_self : compare a.segments a.segments = .eq)
  eq_of_compare {a b} (h : compare a.segments b.segments = .eq) :=
    ext_segments (Std.LawfulEqCmp.eq_of_compare h)

/-- The list of names in ascending order; equal names stay. -/
def sort (names : List Name) : List Name := names.mergeSort fun a b => (compare a b).isLE

end Name

end NamespaceControl
