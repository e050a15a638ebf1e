import TypedData.Text.Position

/-!
# What is reported about a failure

Every stage has its own type of failures.  A `Diagnostic` is the common form in which they are shown:
a message, the place, a code that names the kind of failure, perhaps a hint, and the marked places.
-/

namespace TypedData

/-- A failure as it is shown. -/
structure Diagnostic where
  message : String
  span : Span
  code : String
  help : Option String
  /-- The marked places, each with what is written beside it. -/
  labels : List (String × Span)
deriving DecidableEq, Repr

namespace Diagnostic

/-- A failure with one marked place. -/
def single (message : String) (span : Span) (code : String) (help : Option String)
    (label : String) : Diagnostic :=
  ⟨message, span, code, help, [(label, span)]⟩

/-- A name between grave accents. -/
def name (text : String) : String := "\x60" ++ text ++ "\x60"

end Diagnostic

end TypedData
