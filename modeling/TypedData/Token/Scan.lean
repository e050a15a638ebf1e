import TypedData.Token.Lexeme

/-!
# The tokens of a text

`scan` divides a text into tokens and derives the marks of its layout.  At the beginning of a line
outside brackets the indentation is compared with that of the blocks around it: deeper opens a block,
shallower closes blocks down to one of the same indentation.  Lines without tokens take no part in
this.  Between brackets indentation means nothing, and a run of line breaks is one newline.

All tokens but the end of the text cover characters of the text; blocks that are open at its end are
closed there.
-/

namespace TypedData

/-- The indentation of an open block: how wide it is, and the character that it consists of. -/
structure Indentation where
  width : Nat
  unit : Char
deriving DecidableEq, Repr

/-- What the tokens read so far leave behind. -/
structure ScanState where
  /-- The offset of the text that is still to be read. -/
  offset : Nat
  /-- The open blocks, the innermost first; the block of the whole text is not among them. -/
  blocks : List Indentation
  /-- How many brackets are open. -/
  depth : Nat
  /-- Whether no token has been read on this line, outside brackets. -/
  atLineStart : Bool
  /-- Whether a token has been read on this line, outside brackets. -/
  lineHasTokens : Bool
  /-- The token before. -/
  previous : Option TokenKind

namespace ScanState

/-- The beginning of a text. -/
def initial : ScanState := ⟨0, [], 0, true, false, none⟩

/-- The number of open brackets after a token. -/
def depthAfter (depth : Nat) : TokenKind → Nat
  | .mark .leftBrace | .mark .leftBracket | .mark .leftParen => depth + 1
  | .mark .rightBrace | .mark .rightBracket | .mark .rightParen => depth - 1
  | _ => depth

/-- Whether a value can end with the token before. -/
def afterValue (st : ScanState) : Bool := (st.previous.map TokenKind.endsValue).getD false

/-- Passes over characters that make no token. -/
def skip (st : ScanState) (passed : List Char) : ScanState :=
  { st with offset := st.offset + utf8Length passed }

/-- Passes a token. -/
def pass (st : ScanState) (lexeme : Lexeme) : ScanState :=
  { st with
    offset := st.offset + utf8Length lexeme.taken
    depth := depthAfter st.depth lexeme.kind
    lineHasTokens := true
    previous := some lexeme.kind }

/-- Passes a line feed: whether it makes a newline token, and the state after it. -/
def passLineFeed (st : ScanState) : Bool × ScanState :=
  let marks := if 0 < st.depth then st.previous != some .newline else st.lineHasTokens
  let next := { st with
    offset := st.offset + 1
    previous := if marks then some .newline else st.previous }
  (marks, if 0 < st.depth then next else { next with atLineStart := true, lineHasTokens := false })

end ScanState

/-- A character that indentation consists of. -/
def isIndentChar (c : Char) : Bool := c = ' ' || c = '\t'

/-- Whether the text goes on with a line that has no tokens, up to its comment or its end. -/
def isLineBlank : List Char → Bool
  | [] => true
  | '\n' :: _ | '\r' :: _ => true
  | '/' :: '/' :: _ => true
  | _ => false

/-- The character that some indentation consists of; `none` where it is empty, an error where it is
mixed. -/
def indentUnit (span : Span) (blanks : List Char) : Except TokenError (Option Char) :=
  match blanks.contains ' ', blanks.contains '\t' with
  | true, true => .error (.mixedIndentation span)
  | true, false => .ok (some ' ')
  | false, true => .ok (some '\t')
  | false, false => .ok none

/-- Compares the indentation of a line with the open blocks: the tokens that it stands for, and the
blocks that are open in the line. -/
def indentBlocks (span : Span) (blocks : List Indentation) (blanks : List Char) :
    Except TokenError (List Token × List Indentation) := do
  let unit ← indentUnit span blanks
  let width := blanks.length
  let top := (blocks.head?.map Indentation.width).getD 0
  if top < width then
    match blocks.head?, unit with
    | some block, some c =>
      if block.unit ≠ c then throw (.mixedIndentation span)
      return ([⟨.indent, span⟩], ⟨width, c⟩ :: blocks)
    | none, some c => return ([⟨.indent, span⟩], ⟨width, c⟩ :: blocks)
    | _, none => return ([], blocks)
  else
    let closed := blocks.takeWhile fun block => width < block.width
    let remaining := blocks.dropWhile fun block => width < block.width
    let here := (remaining.head?.map Indentation.width).getD 0
    if here ≠ width then throw (.inconsistentDedent width span)
    if remaining.head?.map Indentation.unit ≠ unit then throw (.mixedIndentation span)
    return (closed.map fun _ => ⟨.dedent, ⟨span.stop, span.stop⟩⟩, remaining)

/-- Reads the indentation at the beginning of a line outside brackets: its tokens, the state after it
and the rest of the line. -/
def readIndentation (st : ScanState) (text : List Char) :
    Except TokenError (List Token × ScanState × List Char) := do
  let blanks := text.takeWhile isIndentChar
  let rest := text.dropWhile isIndentChar
  let st' := st.skip blanks
  if isLineBlank rest then return ([], st', rest)
  let (tokens, blocks) ← indentBlocks ⟨st.offset, st'.offset⟩ st.blocks blanks
  return (tokens,
    { st' with
      blocks := blocks
      atLineStart := false
      previous := ((tokens.getLast?.map Token.kind).or st.previous) },
    rest)

/-- The layout tokens before the next character, the state there, and the text from there on. -/
def readLayout (st : ScanState) (text : List Char) :
    Except TokenError (List Token × ScanState × List Char) :=
  if st.atLineStart && st.depth = 0 then readIndentation st text else .ok ([], st, text)

/-- The tokens at the end of a text. -/
def finish (st : ScanState) : List Token :=
  let here : Span := ⟨st.offset, st.offset⟩
  let newline : List Token := if st.lineHasTokens && st.depth = 0 then [⟨.newline, here⟩] else []
  newline ++ st.blocks.map (fun _ => ⟨.dedent, here⟩) ++ [⟨.eof, here⟩]

/-- Layout leaves no more text than there was, so that scanning ends. -/
theorem readLayout_length {st st' : ScanState} {text rest : List Char} {tokens : List Token}
    (h : readLayout st text = .ok (tokens, st', rest)) : rest.length ≤ text.length := by
  unfold readLayout at h
  split at h
  · unfold readIndentation at h
    have hle : (text.dropWhile isIndentChar).length ≤ text.length := by
      have := congrArg List.length (List.takeWhile_append_dropWhile (p := isIndentChar) (l := text))
      simp only [List.length_append] at this
      omega
    dsimp only at h
    split at h
    · cases h; exact hle
    · cases hb : indentBlocks ⟨st.offset, (st.skip (text.takeWhile isIndentChar)).offset⟩ st.blocks
        (text.takeWhile isIndentChar) with
      | error e => rw [hb] at h; cases h
      | ok r => rw [hb] at h; cases h; exact hle
  · cases h; exact Nat.le_refl _

/-- The tokens of the text that is still to be read. -/
def scanFrom (st : ScanState) (text : List Char) : Except TokenError (List Token) :=
  match hl : readLayout st text with
  | .error e => .error e
  | .ok (tokens, st', []) => .ok (tokens ++ finish st')
  | .ok (tokens, st', c :: rest) =>
    have _hle := readLayout_length hl
    if c = ' ' || c = '\t' || c = '\r' then
      (scanFrom (st'.skip [c]) rest).map (tokens ++ ·)
    else if c = '\n' then
      let (marks, next) := st'.passLineFeed
      let newline : List Token := if marks then [⟨.newline, ⟨st'.offset, next.offset⟩⟩] else []
      (scanFrom next rest).map (tokens ++ newline ++ ·)
    else if c = '/' && rest.head? = some '/' then
      let comment := rest.takeWhile (· != '\n')
      (scanFrom (st'.skip (c :: comment)) (rest.drop comment.length)).map (tokens ++ ·)
    else
      match hr : Lexeme.read st'.offset st'.afterValue c rest with
      | .error e => .error e
      | .ok lexeme =>
        have _hlt := (Lexeme.read_splits hr).rest_lt
        let next := st'.pass lexeme
        let token : Token := ⟨lexeme.kind, ⟨st'.offset, next.offset⟩⟩
        (scanFrom next lexeme.rest).map (tokens ++ token :: ·)
termination_by text.length
decreasing_by
  all_goals simp only [List.length_cons, List.length_drop] at *
  all_goals omega

/-- The tokens of a text. -/
def scan (text : String) : Except TokenError (List Token) := scanFrom .initial text.toList

end TypedData
