import TypedData.Diagnostic

/-!
# Texts that are not tokens

The five ways in which a text fails to be a sequence of tokens.
-/

namespace TypedData

/-- Why a text cannot be divided into tokens, and where. -/
inductive TokenError where
  | unterminatedString (span : Span)
  | invalidNumber (lexeme : String) (span : Span)
  | unexpectedCharacter (found : Char) (span : Span)
  | mixedIndentation (span : Span)
  | inconsistentDedent (column : Nat) (span : Span)
deriving DecidableEq, Repr

namespace TokenError

/-- The place of the failure. -/
def span : TokenError → Span
  | unterminatedString span | invalidNumber _ span | unexpectedCharacter _ span
  | mixedIndentation span | inconsistentDedent _ span => span

/-- The failure as it is shown. -/
def diagnostic : TokenError → Diagnostic
  | unterminatedString span =>
    .single "Unterminated string literal" span "lexer::unterminated_string"
      (some ("Close the string with a " ++ Diagnostic.name "\"" ++ " before the end of the line."))
      "string starts here"
  | invalidNumber lexeme span =>
    .single ("Invalid numeric literal " ++ Diagnostic.name lexeme) span "lexer::invalid_number"
      none "not a valid number"
  | unexpectedCharacter found span =>
    .single ("Unexpected character " ++ Diagnostic.name (String.singleton found)) span
      "lexer::unexpected_character" none "not part of any token"
  | mixedIndentation span =>
    .single "Tabs and spaces mixed in indentation" span "lexer::mixed_indentation"
      (some "Indent every line of a block with the same character.") "inconsistent indentation"
  | inconsistentDedent column span =>
    .single "Dedent does not match any outer indentation level" span "lexer::inconsistent_dedent"
      none ("this line is indented to " ++ toString column ++ " columns")

end TokenError

end TypedData
