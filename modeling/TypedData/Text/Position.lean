/-!
# Places in a text

A place in a source text is an offset in bytes of its UTF-8 form.  A `Span` is the half-open range
of bytes that a token or a tree covers.  For a reader, an offset is turned into a line and a column,
both counted from one; a column counts characters, not bytes.

An offset inside a character counts that character as passed, and an offset past the end is the
end of the text, so `Location.ofOffset` is defined everywhere.
-/

namespace TypedData

/-- The bytes from `start` up to, but not including, `stop`. -/
structure Span where
  start : Nat
  stop : Nat
deriving DecidableEq, Repr

namespace Span

/-- How many bytes the span covers; a span that ends before it starts covers none. -/
def length (s : Span) : Nat := s.stop - s.start

/-- The span of no bytes at the beginning of a text. -/
def zero : Span := ⟨0, 0⟩

/-- The least span that starts where `s` starts and ends where `t` ends. -/
def through (s t : Span) : Span := ⟨s.start, t.stop⟩

end Span

/-- The number of bytes that a list of characters takes in UTF-8. -/
def utf8Length : List Char → Nat
  | [] => 0
  | c :: cs => c.utf8Size + utf8Length cs

/-- The empty text takes no bytes. -/
@[simp] theorem utf8Length_nil : utf8Length [] = 0 := rfl

/-- A character adds the bytes that it takes. -/
@[simp] theorem utf8Length_cons (c : Char) (cs : List Char) :
    utf8Length (c :: cs) = c.utf8Size + utf8Length cs := rfl

/-- The bytes of two texts in a row add up. -/
@[simp] theorem utf8Length_append (cs ds : List Char) :
    utf8Length (cs ++ ds) = utf8Length cs + utf8Length ds := by
  induction cs with
  | nil => simp
  | cons c cs ih => simp [ih, Nat.add_assoc]

/-- The length in bytes is that of the string. -/
theorem utf8Length_eq (cs : List Char) : utf8Length cs = (String.ofList cs).utf8ByteSize := by
  induction cs with
  | nil => rfl
  | cons c cs ih =>
    rw [utf8Length_cons, ih, String.ofList_cons, String.utf8ByteSize_append, String.utf8ByteSize_singleton]

/-- An offset is valid in a text, as the start of a character or as the end, if it is the length of a beginning of the
text. -/
theorem isValid_iff_exists_prefix {source : String} {n : Nat} :
    String.Pos.Raw.IsValid source ⟨n⟩ ↔ ∃ taken, taken <+: source.toList ∧ utf8Length taken = n := by
  rw [String.Pos.Raw.isValid_iff_exists_append]
  constructor
  · rintro ⟨before, after, rfl, hn⟩
    refine ⟨before.toList, ⟨after.toList, String.toList_append.symm⟩, ?_⟩
    rw [utf8Length_eq, String.ofList_toList]
    exact (congrArg String.Pos.Raw.byteIdx hn).symm
  · rintro ⟨taken, ⟨rest, htext⟩, rfl⟩
    refine ⟨.ofList taken, .ofList rest, ?_, ?_⟩
    · rw [← String.ofList_append, htext, String.ofList_toList]
    · rw [utf8Length_eq]
      rfl

/-- A line and a column, both counted from one. -/
structure Location where
  line : Nat
  column : Nat
deriving DecidableEq, Repr

namespace Location

/-- The place after the character `c`, when `c` stands `here`. -/
def after (here : Location) (c : Char) : Location :=
  if c = '\n' then ⟨here.line + 1, 1⟩ else ⟨here.line, here.column + 1⟩

/-- The place `bytes` bytes further on in `cs`, when `cs` starts `here`. -/
def advance (here : Location) : (bytes : Nat) → List Char → Location
  | _, [] => here
  | bytes, c :: cs => if bytes = 0 then here else advance (here.after c) (bytes - c.utf8Size) cs

/-- The line and column of a byte offset of `source`. -/
def ofOffset (source : String) (offset : Nat) : Location :=
  advance ⟨1, 1⟩ offset source.toList

end Location

end TypedData
