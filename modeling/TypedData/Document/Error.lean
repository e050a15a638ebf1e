import TypedData.Token

/-!
# Tokens that are not a document

A parser stops at a token that it cannot use, at the end of the text, or where something is nested too
deeply.  In the first two cases it says what it was looking for.
-/

namespace TypedData

/-- How deeply values, types and expressions may be nested. -/
def maxNesting : Nat := 128

/-- What a parser looks for. -/
inductive Expectation where
  | token (kind : TokenKind)
  /-- A separator, or the bracket that closes the group. -/
  | separatorOr (close : Mark)
  | declarationOrValue
  | typeName
  | constructor
  | constructorOrLineEnd
  | constructorName
  | constructorCall
  | type
  | template
  | bindingName
  | value
  | fieldName
  | key
  | expression
  | lineEnd
deriving DecidableEq

namespace Expectation

/-- What a message calls it. -/
def describe : Expectation → String
  | token kind => kind.describe
  | separatorOr close =>
    Diagnostic.name Mark.comma.spelling ++ " or " ++ Diagnostic.name close.spelling
  | declarationOrValue => "a declaration or value"
  | typeName => "a type name"
  | constructor => "a constructor"
  | constructorOrLineEnd => "a constructor or end of line"
  | constructorName => "a constructor name"
  | constructorCall => "a constructor call"
  | type => "a type"
  | template => "a pattern template"
  | bindingName => "a binding name"
  | value => "a value"
  | fieldName => "a field name"
  | key => "an identifier or string for a key"
  | expression => "an expression"
  | lineEnd => "end of line"

end Expectation

/-- Why tokens are not a document, and where. -/
inductive ParseError where
  | unexpectedToken (expected : Expectation) (found : TokenKind) (span : Span)
  | unexpectedEnd (expected : Expectation) (span : Span)
  | tooDeep (span : Span)
deriving DecidableEq

namespace ParseError

/-- The place of the failure. -/
def span : ParseError → Span
  | unexpectedToken _ _ span | unexpectedEnd _ span | tooDeep span => span

/-- What was looked for. -/
def expected : ParseError → String
  | unexpectedToken expected _ _ | unexpectedEnd expected _ => expected.describe
  | tooDeep _ => "a less deeply nested value"

/-- The failure as it is shown. -/
def diagnostic : ParseError → Diagnostic
  | unexpectedToken expected found span =>
    .single ("Unexpected token: expected " ++ expected.describe ++ ", found " ++ found.describe)
      span "parser::unexpected_token"
      (some "The parser found a token it did not expect in this position.")
      ("expected " ++ expected.describe)
  | unexpectedEnd expected span =>
    .single ("Unexpected end of file: expected " ++ expected.describe) span
      "parser::unexpected_eof"
      (some "The file ended unexpectedly. The parser expected more tokens.") "file ended here"
  | tooDeep span =>
    .single ("Nesting deeper than " ++ toString maxNesting ++ " levels") span "parser::too_deep"
      (some ("Split the value into named bindings and refer to them with " ++
        Diagnostic.name "!name" ++ "."))
      "too deep here"

end ParseError

end TypedData
