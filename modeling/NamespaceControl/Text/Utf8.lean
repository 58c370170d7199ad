/-!
# Texts as bytes

The UTF-8 form of a text as a list of bytes, and the text that a list of bytes is the form of. A
text can also be cut at places that are counted in bytes, unless a character would be cut in two.
-/

namespace NamespaceControl.Text.Utf8

/-- The UTF-8 form of a text. -/
def encode (text : String) : List UInt8 := text.toByteArray.data.toList

/-- The text whose UTF-8 form the bytes are, if they are one. -/
def decode? (bytes : List UInt8) : Option String := String.fromUTF8? ⟨bytes.toArray⟩

/-- The form of a text reads back. -/
@[simp] theorem decode?_encode (text : String) : decode? (encode text) = some text := by
  simp [decode?, encode, String.fromUTF8?, String.fromUTF8, text.isValidUTF8]

/-- The number of bytes of a text. -/
def size : List Char → Nat
  | [] => 0
  | c :: rest => c.utf8Size + size rest

/-- The first bytes of a text, as many as asked for, and what follows them. There must be as many,
and they must end between two characters. -/
def split? : Nat → List Char → Option (List Char × List Char)
  | 0, text => some ([], text)
  | _ + 1, [] => none
  | n + 1, c :: rest =>
    if c.utf8Size ≤ n + 1 then
      (split? (n + 1 - c.utf8Size) rest).map fun (first, left) => (c :: first, left)
    else none

/-- The part of a text from one byte up to another. -/
def slice? (start stop : Nat) (text : List Char) : Option (List Char) := do
  let (_, rest) ← split? start text
  let (part, _) ← split? (stop - start) rest
  return part

/-- A text splits behind any first part of it. -/
theorem split?_append (first rest : List Char) :
    split? (size first) (first ++ rest) = some (first, rest) := by
  induction first with
  | nil => simp [size, split?]
  | cons c more ih =>
    have hpos := c.utf8Size_pos
    have hsize : size (c :: more) = (c.utf8Size - 1 + size more) + 1 := by
      rw [size]
      omega
    rw [hsize, List.cons_append, split?, if_pos (by omega),
      show c.utf8Size - 1 + size more + 1 - c.utf8Size = size more by omega, ih]
    rfl

end NamespaceControl.Text.Utf8
