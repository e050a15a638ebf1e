import TypedData.Proofs.Reading.Names
import TypedData.Proofs.Scanning.Literals

/-!
# Names and keys that are written

The printer asks whether a text is a name (`isName`) before it writes it without quotes, and has a list of the words
that are none (`reservedWords`).  The scanner decides by rules of its own what a name is, and has its own words
(`Keyword`). The two agree: a text is a name exactly if scanning it gives that name and nothing else
(`isName_iff_scan`).  So a key that is written, be it as a name or as a literal, is read as the key
(`names_are_scanned`), whatever stands behind it.
-/

namespace TypedData

/-! ## Names -/

/-- Every name among the tokens of a text is one. -/
theorem isName_of_scan {source : String} {tokens : List Token} (h : scan source = .ok tokens) {name : String}
    (hname : .name name ∈ kinds tokens) : isName name = true := by
  obtain ⟨token, htoken, hkind⟩ := List.mem_map.1 hname
  have hspelled := (ends_scanFrom lexical_spelled .initial source.toList fun _ _ => trivial).yields tokens h
  have hholds : token.kind.Spelled := (hspelled token htoken).kind
  rwa [hkind] at hholds

/-- A name that is written is scanned as it is. -/
theorem exists_scan_name {name : String} (h : isName name = true) :
    ∃ tokens, scan name = .ok tokens ∧ kinds tokens = [.name name, .newline, .eof] := by
  have htext : name.toList = Glyph.text [.token (.name name)] := (List.append_nil _).symm
  exact exists_scan_row htext ⟨_, _, rfl, by rintro ⟨⟩⟩ ⟨h, by rintro c ⟨⟩, by rintro ⟨⟩, trivial⟩ rfl

/-- **A text is a name if the scanner says so.** -/
theorem isName_iff_scan {text : String} :
    isName text = true ↔ ∃ tokens, scan text = .ok tokens ∧ kinds tokens = [.name text, .newline, .eof] := by
  constructor
  · exact exists_scan_name
  · rintro ⟨tokens, hscan, hkinds⟩
    exact isName_of_scan hscan (hkinds ▸ .head _)

/-! ## Keys -/

/-- A colon ends a key, and so does whatever is no part of a word. -/
theorem endsAt_keyKind (key : String) (rest : List Char) : (keyKind key).EndsAt (':' :: rest) := by
  rcases Parser.keyKind_eq key with hkey | hkey
  · rw [hkey]
    rintro c ⟨⟩
    rfl
  · rw [hkey]
    trivial

/-- A key before a colon is the first token of a text, whatever stands behind the colon. -/
theorem exists_scan_key (key rest : String) : ∃ span st,
    scan (keyText key ++ ":" ++ rest) = (scanFrom st (':' :: rest.toList)).map (⟨keyKind key, span⟩ :: ·) := by
  have htext : (keyText key ++ ":" ++ rest).toList = (keyKind key).spelling ++ ':' :: rest.toList := by
    rw [String.toList_append, String.toList_append, Parser.text_keyKind, List.append_assoc]
    rfl
  have hends := endsAt_keyKind key rest.toList
  obtain ⟨c, tail, hspelling, hstarts⟩ := Lexeme.exists_spelling (legible_keyKind key) hends
  have hblanks : ∀ c ∈ ([] : List Char), isIndentChar c = true := List.forall_mem_nil _
  have hnomarks : ∀ kind ∈ ([] : List TokenKind), kind.endsValue = false := List.forall_mem_nil _
  have hstart : ScanState.initial.atLineStart = true := rfl
  obtain ⟨marks, st, hlayout, hmarks, hst⟩ := exists_readLayout hstart rfl rfl hblanks hnomarks (fun _ => rfl) hstarts
  obtain rfl := List.map_eq_nil_iff.1 hmarks
  have hsign : (keyKind key).isNegative = true → st.afterValue = false := fun _ => hst.afterValue
  have hfirst : scan (keyText key ++ ":" ++ rest) = scanFrom st ((keyKind key).spelling ++ ':' :: rest.toList) := by
    rw [scan, htext, hspelling]
    exact (scanFrom_of_layout hlayout hst.atLineStart).trans (map_nil_append _)
  exact ⟨_, _, hfirst.trans (scanFrom_spelling hst.atLineStart (legible_keyKind key) hends hsign)⟩

/-- What is read as a key is the key, if its token is the first. -/
theorem outcome_key (key : String) (span : Span) (tokens : List Token) :
    Parser.key.outcome (Cursor.ofTokens (⟨keyKind key, span⟩ :: tokens)) =
      (.ok key, (Cursor.ofTokens (⟨keyKind key, span⟩ :: tokens)).advance) := by
  rcases Parser.keyKind_eq key with hkey | hkey
  · rw [hkey]
    rfl
  · rw [hkey]
    exact congrArg (fun text => (Except.ok text, _)) (Parser.text_plain key)

/-- A key with a colon behind it is scanned as the key and the colon. -/
theorem exists_scan_keyText (key : String) : ∃ tokens, scan (keyText key ++ ":") = .ok tokens ∧
    kinds tokens = [keyKind key, .mark .colon, .newline, .eof] := by
  have htext : (keyText key ++ ":").toList = Glyph.text [.token (keyKind key), .token (.mark .colon)] := by
    rw [String.toList_append, Parser.text_keyKind]
    rfl
  have hcolon : Glyph.Readable (keyKind key).endsValue [] [.token (.mark .colon)] :=
    ⟨trivial, by rintro d ⟨⟩, by rintro ⟨⟩, trivial⟩
  refine exists_scan_row htext ⟨_, _, rfl, by rintro ⟨⟩⟩
    ⟨legible_keyKind key, endsAt_keyKind key [], fun _ => rfl, hcolon⟩ ?_
  rcases Parser.keyKind_eq key with hkey | hkey <;> rw [hkey] <;> rfl

/-- **Names and keys are scanned as they are written.**  A text is a name, in the sense of the printer, if and only if
scanning it gives that name, the end of its line and the end of the text.  A key with a colon behind it is scanned as
the name or the literal that it is written as, and the colon; and whatever else stands behind the colon, if the text can
be scanned, then what is read as a key from its first token is the key. -/
theorem names_are_scanned :
    (∀ text, isName text = true ↔ ∃ tokens, scan text = .ok tokens ∧ kinds tokens = [.name text, .newline, .eof]) ∧
    (∀ key, ∃ tokens, scan (keyText key ++ ":") = .ok tokens ∧
      kinds tokens = [keyKind key, .mark .colon, .newline, .eof] ∧
      Parser.key.outcome (Cursor.ofTokens tokens) = (.ok key, (Cursor.ofTokens tokens).advance)) ∧
    ∀ key rest tokens, scan (keyText key ++ ":" ++ rest) = .ok tokens →
      Parser.key.outcome (Cursor.ofTokens tokens) = (.ok key, (Cursor.ofTokens tokens).advance) := by
  have hany : ∀ key rest tokens, scan (keyText key ++ ":" ++ rest) = .ok tokens →
      Parser.key.outcome (Cursor.ofTokens tokens) = (.ok key, (Cursor.ofTokens tokens).advance) := by
    intro key rest tokens hscan
    obtain ⟨span, st, hfirst⟩ := exists_scan_key key rest
    obtain ⟨more, -, rfl⟩ := map_eq_ok_iff.1 (hfirst.symm.trans hscan)
    exact outcome_key key span more
  refine ⟨fun text => isName_iff_scan, fun key => ?_, hany⟩
  obtain ⟨tokens, hscan, hkinds⟩ := exists_scan_keyText key
  exact ⟨tokens, hscan, hkinds, hany key "" tokens (by rwa [String.append_empty])⟩

/-- A key that is a reserved word, so it is written as a literal. -/
theorem names_are_scanned_reserved : isName "for" = false ∧ ∃ tokens, scan (keyText "for" ++ ":" ++ " 1") = .ok tokens ∧
    Parser.key.outcome (Cursor.ofTokens tokens) = (.ok "for", (Cursor.ofTokens tokens).advance) := by
  have htest : (scan (keyText "for" ++ ":" ++ " 1")).toOption.any (fun _ => true) = true := by decide +kernel
  obtain ⟨tokens, hscan, -⟩ := exists_ok_of_any htest
  exact ⟨by decide, tokens, hscan, names_are_scanned.2.2 _ _ _ hscan⟩

end TypedData
