import TypedData.Diagnostic
import TypedData.Number.Layout
import TypedData.Text.Quoted
import TypedData.Template

/-!
# Tokens

The words of the notation, and the marks that its layout stands for: the end of a line, a deeper
indentation and the return from it.
-/

namespace TypedData

/-- Punctuation and operators. -/
inductive Mark where
  | leftBrace | rightBrace | leftBracket | rightBracket | leftParen | rightParen
  | comma | colon | define | dot | bar | equals | arrow | bang
  | minus | plus | star | slash | percent
  | equal | notEqual | less | lessEqual | greater | greaterEqual
deriving DecidableEq, Repr

namespace Mark

/-- How a mark is written. -/
def spelling : Mark → String
  | leftBrace => "\x7b"
  | rightBrace => "\x7d"
  | leftBracket => "["
  | rightBracket => "]"
  | leftParen => "("
  | rightParen => ")"
  | comma => ","
  | colon => ":"
  | define => ":="
  | dot => "."
  | bar => "|"
  | equals => "="
  | arrow => "=>"
  | bang => "!"
  | minus => "-"
  | plus => "+"
  | star => "*"
  | slash => "/"
  | percent => "%"
  | equal => "=="
  | notEqual => "!="
  | less => "<"
  | lessEqual => "<="
  | greater => ">"
  | greaterEqual => ">="

end Mark

/-- The kinds of tokens. -/
inductive TokenKind where
  /-- The end of the text; always the last token, and only there. -/
  | eof
  /-- The end of a line that holds tokens, or a line break between brackets. -/
  | newline
  /-- The line is indented deeper than the block around it. -/
  | indent
  /-- A block ends. -/
  | dedent
  | name (text : String)
  | string (template : Template)
  | int (value : Integer)
  | float (value : Double)
  | keyword (word : Keyword)
  | mark (mark : Mark)
deriving DecidableEq

namespace TokenKind

/-- Whether a value can end here, so that a minus after it is an operator and no sign. -/
def endsValue : TokenKind → Bool
  | name _ | string _ | int _ | float _ => true
  | keyword .true | keyword .false | keyword .null => true
  | mark .rightParen | mark .rightBracket | mark .rightBrace => true
  | _ => false

/-- What a message calls the token. -/
def describe : TokenKind → String
  | eof => "end of file"
  | newline => "newline"
  | indent => "indentation"
  | dedent => "end of block"
  | name text => "identifier " ++ Diagnostic.name text
  | string template => "string " ++ quoted template.text
  | int value => "number " ++ Diagnostic.name value.text
  | float value => "number " ++ Diagnostic.name (value.text .message)
  | keyword word => Diagnostic.name word.spelling
  | mark m => Diagnostic.name m.spelling

end TokenKind

/-- A token and the bytes of the text that it covers. -/
structure Token where
  kind : TokenKind
  span : Span
deriving DecidableEq

end TypedData
