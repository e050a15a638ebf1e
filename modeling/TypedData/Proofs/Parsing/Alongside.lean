import TypedData.Proofs.Parsing.Nesting

/-!
# Two cursors side by side

The tokens of a text, and the same tokens with a line break more, are read side by side.  The place of the line break
(`LineBreak`) is one where a parenthesis around an expression is the innermost bracket (`Surroundings`).  The two
cursors are `Alongside` each other as long as the place is ahead of them, and again when it has been passed: the same
token stands before both of them unless they stand at the line break.

Between some tokens a line break is not passed over (`Joined`), so it cannot have been passed there.
-/

namespace TypedData

/-! ## Brackets -/

/-- What a bracket in an expression is for. -/
inductive Enclosure where
  /-- A parenthesis around an expression. -/
  | group
  /-- A parenthesis around the arguments of a call. -/
  | call
  | list
  | record
deriving DecidableEq, Repr

def TokenKind.isName : TokenKind → Bool
  | name _ => true
  | _ => false

def TokenKind.isNewline (kind : TokenKind) : Bool := kind = .newline

/-- What the tokens before a place say about it: the last of them, and the brackets that are open, the innermost
first. -/
structure Surroundings where
  previous : Option TokenKind
  brackets : List Enclosure

namespace Surroundings

/-- Behind one token more.  A parenthesis behind a name opens a call. -/
def pass (s : Surroundings) (kind : TokenKind) : Surroundings where
  previous := some kind
  brackets := match kind with
    | .mark .leftParen => (if s.previous.any TokenKind.isName then .call else .group) :: s.brackets
    | .mark .leftBracket => .list :: s.brackets
    | .mark .leftBrace => .record :: s.brackets
    | .mark .rightParen | .mark .rightBracket | .mark .rightBrace => s.brackets.tail
    | _ => s.brackets

def across (s : Surroundings) (kinds : List TokenKind) : Surroundings := kinds.foldl pass s

/-- The surroundings behind the tokens that a text begins with. -/
def behind (kinds : List TokenKind) : Surroundings := across ⟨none, []⟩ kinds

/-- The number of open brackets is the depth, token by token. -/
theorem length_brackets_pass (s : Surroundings) (kind : TokenKind) :
    (s.pass kind).brackets.length = ScanState.depthAfter s.brackets.length kind := by
  unfold pass ScanState.depthAfter
  split <;> simp

/-- The number of open brackets behind some tokens is the depth there. -/
theorem length_brackets_across (s : Surroundings) (kinds : List TokenKind) :
    (s.across kinds).brackets.length = kinds.foldl ScanState.depthAfter s.brackets.length := by
  induction kinds generalizing s with
  | nil => rfl
  | cons kind kinds ih =>
    change ((s.pass kind).across kinds).brackets.length = _
    rw [ih, length_brackets_pass, List.foldl_cons]

/-- As many brackets are open as the scanner counts. -/
theorem length_brackets_behind (tokens : List Token) : (behind (kinds tokens)).brackets.length = openBrackets tokens :=
  length_brackets_across ..

/-- Line breaks open and close nothing. -/
theorem across_newlines (s : Surroundings) {newlines : List TokenKind} (h : ∀ kind ∈ newlines, kind = .newline) :
    s.across newlines = ⟨newlines.getLast?.or s.previous, s.brackets⟩ := by
  induction newlines generalizing s with
  | nil => rfl
  | cons kind newlines ih =>
    obtain ⟨rfl, hnewlines⟩ := List.forall_mem_cons.1 h
    change (s.pass .newline).across newlines = _
    rw [ih _ hnewlines, List.getLast?_cons]
    cases newlines.getLast? <;> rfl

end Surroundings

/-! ## The place of a line break -/

/-- Between the two tokens a line break is not passed over: the second one goes on with the operand that ends with the
first one, or names its field. -/
def Joined (s t : TokenKind) : Prop :=
  s.endsValue = true ∧ (t = .mark .dot ∨ (Parser.binaryOp? t).isSome = true) ∨
    s.isName = true ∧ t = .mark .leftParen ∨ s = .mark .dot ∧ t.isName = true

instance (s t : TokenKind) : Decidable (Joined s t) := inferInstanceAs (Decidable (_ ∨ _ ∨ _))

/-- A name may end a value. -/
theorem TokenKind.endsValue_of_isName {kind : TokenKind} (h : kind.isName = true) : kind.endsValue = true := by
  cases kind with
  | name => rfl
  | _ => cases h

/-- Behind the first of two joined tokens no operand starts. -/
theorem Joined.not_fresh {s t : TokenKind} (h : Joined s t) : s.endsValue = true ∨ s = .mark .dot := by
  rcases h with ⟨h, -⟩ | ⟨h, -⟩ | ⟨h, -⟩
  · exact .inl h
  · exact .inl (TokenKind.endsValue_of_isName h)
  · exact .inr h

/-- What is joined does not begin behind a line break. -/
theorem Joined.previous_ne {s t : TokenKind} (h : Joined s t) : s ≠ .newline := by
  rintro rfl
  rcases h.not_fresh with hvalue | hdot
  · cases hvalue
  · cases hdot

/-- What is joined to a value is neither a line break nor a closing parenthesis. -/
theorem Joined.next_ne {s t : TokenKind} (h : Joined s t) : t ≠ .newline ∧ t ≠ .mark .rightParen := by
  rcases h with ⟨-, rfl | hop⟩ | ⟨-, rfl⟩ | ⟨-, hname⟩
  · simp
  · constructor <;> rintro rfl <;> cases hop
  · simp
  · constructor <;> rintro rfl <;> cases hname

/-- The place of a line break, between two tokens, and the kinds of the tokens behind it, without the line break and
with it. -/
structure LineBreak where
  previous : TokenKind
  next : TokenKind
  behind : List TokenKind
  broken : List TokenKind
  same : ¬ Joined previous next → broken = next :: behind
  other : Joined previous next → ∃ k ks, broken = k :: ks ∧ k ≠ .newline ∧ k ≠ .mark .rightParen

namespace LineBreak

/-- The line break may stand here. -/
structure Fits (b : LineBreak) (s : Surroundings) : Prop where
  previous : s.previous = some b.previous
  innermost : s.brackets.head? = some .group
  next_ne : b.next ≠ .newline

/-- The tokens ahead of two cursors: the line break is ahead, too, or it has been passed. -/
inductive Meets (b : LineBreak) (s : Surroundings) (kinds kinds' : List TokenKind) : Prop
  | ahead (front : List TokenKind) : kinds = front ++ b.next :: b.behind → kinds' = front ++ .newline :: b.broken →
      b.Fits (s.across front) → Meets b s kinds kinds'
  | passed : ¬ Joined b.previous b.next → kinds' = kinds → Meets b s kinds kinds'

/-- The cursors stand at the line break. -/
structure Here (b : LineBreak) (s : Surroundings) (kinds kinds' : List TokenKind) : Prop where
  fits : b.Fits s
  kinds : kinds = b.next :: b.behind
  kinds' : kinds' = .newline :: b.broken

variable {b : LineBreak} {s : Surroundings} {k k' : TokenKind} {kinds kinds' : List TokenKind}

/-- Where two lists of tokens meet, their first tokens are the same, or the line break comes here. -/
theorem Meets.head_cases (h : b.Meets s (k :: kinds) (k' :: kinds')) :
    k' = k ∨ b.Here s (k :: kinds) (k' :: kinds') := by
  cases h with
  | ahead front hkinds hkinds' hfits =>
    cases front with
    | nil => exact .inr ⟨hfits, hkinds, hkinds'⟩
    | cons kind front => exact .inl ((List.cons.inj hkinds').1.trans (List.cons.inj hkinds).1.symm)
  | passed _ hsame => exact .inl (List.cons.inj hsame).1

/-- A token that stands before both cursors is passed. -/
theorem Meets.tail (h : b.Meets s (k :: kinds) (k :: kinds')) : b.Meets (s.pass k) kinds kinds' := by
  cases h with
  | ahead front hkinds hkinds' hfits =>
    cases front with
    | nil => exact absurd ((List.cons.inj hkinds).1.symm.trans (List.cons.inj hkinds').1) hfits.next_ne
    | cons kind front =>
      obtain ⟨rfl, htail⟩ := List.cons.inj hkinds
      exact .ahead front htail (List.cons.inj hkinds').2 hfits
  | passed hjoined hsame => exact .passed hjoined (List.cons.inj hsame).2

/-- Newlines are passed, and the line break with them. -/
theorem Meets.skip (h : b.Meets s kinds kinds') (hhere : b.Here s kinds kinds' → ¬ Joined b.previous b.next) :
    b.Meets (s.across (kinds.takeWhile TokenKind.isNewline)) (kinds.dropWhile TokenKind.isNewline)
        (kinds'.dropWhile TokenKind.isNewline) ∧
      (kinds'.dropWhile TokenKind.isNewline).head? = (kinds.dropWhile TokenKind.isNewline).head? := by
  cases h with
  | ahead front hkinds hkinds' hfits =>
    subst hkinds hkinds'
    induction front generalizing s with
    | nil =>
      have hjoined := hhere ⟨hfits, rfl, rfl⟩
      have hnext : ¬ b.next.isNewline = true := mt of_decide_eq_true hfits.next_ne
      rw [b.same hjoined, List.nil_append, List.nil_append, List.takeWhile_cons_of_neg hnext,
        List.dropWhile_cons_of_pos (show TokenKind.newline.isNewline = true from rfl), List.dropWhile_cons_of_neg hnext]
      exact ⟨.passed hjoined rfl, rfl⟩
    | cons kind front ih =>
      rw [List.cons_append, List.cons_append]
      by_cases hkind : kind = .newline
      · subst hkind
        have hnewline : TokenKind.newline.isNewline = true := rfl
        rw [List.takeWhile_cons_of_pos hnewline, List.dropWhile_cons_of_pos hnewline,
          List.dropWhile_cons_of_pos hnewline]
        exact ih hfits fun h hjoined => hjoined.previous_ne (Option.some.inj h.fits.previous).symm
      · have hother : ¬ kind.isNewline = true := mt of_decide_eq_true hkind
        rw [List.takeWhile_cons_of_neg hother, List.dropWhile_cons_of_neg hother, List.dropWhile_cons_of_neg hother]
        exact ⟨.ahead (kind :: front) rfl rfl hfits, rfl⟩
  | passed hjoined hsame =>
    subst hsame
    generalize s.across _ = s
    exact ⟨.passed hjoined rfl, rfl⟩

end LineBreak

/-! ## Two cursors -/

namespace Cursor

variable {M : Material} {c : Cursor}

/-- The kind of the token before the cursor. -/
def lastKind (c : Cursor) : Option TokenKind := c.previous.map Token.kind

/-- A value ends before the cursor. -/
def EndsValue (c : Cursor) : Prop := ∃ kind, c.lastKind = some kind ∧ kind.endsValue = true

/-- No value ends before the cursor, and no field is to be named. -/
def Fresh (c : Cursor) : Prop := ∀ kind ∈ c.lastKind, kind.endsValue = false ∧ kind ≠ .mark .dot

/-- What is ahead of a cursor is all that is left, by kind. -/
theorem ahead_eq (c : Cursor) : c.ahead = c.rest.map Token.kind := rfl

/-- Going on takes the first token that is ahead. -/
theorem ahead_advance (h : c.upcoming ≠ []) : c.ahead = c.kind :: c.advance.ahead ∧ c.advance.lastKind = some c.kind ∧
    c.advance.groups = c.groups := by
  obtain ⟨previous, current, upcoming, groups⟩ := c
  obtain ⟨token, tokens, rfl⟩ := List.exists_cons_of_ne_nil h
  exact ⟨rfl, rfl, rfl⟩

/-- The token after the next one is the one at hand when the cursor has gone on. -/
theorem Sound.kindAhead?_eq (h : c.Sound M) (hkind : c.kind ≠ .eof) : c.kindAhead? = some c.advance.kind := by
  have hne := mt h.kind_eq_eof_iff.2 hkind
  obtain ⟨previous, current, upcoming, groups⟩ := c
  obtain ⟨token, tokens, rfl⟩ := List.exists_cons_of_ne_nil hne
  rfl

/-- Behind a token that ends no value, and is no dot, something new begins. -/
theorem fresh_of_lastKind {kind : TokenKind} (h : c.lastKind = some kind) (hvalue : kind.endsValue = false)
    (hdot : kind ≠ .mark .dot) : c.Fresh := fun _ hkind =>
  Option.some.inj (h.symm.trans hkind) ▸ ⟨hvalue, hdot⟩

/-- Where something new begins, no name has just been passed. -/
theorem Fresh.not_name (h : c.Fresh) : c.lastKind.any TokenKind.isName = false := by
  rw [Option.any_eq_false]
  intro kind hkind
  have hvalue := mt TokenKind.endsValue_of_isName (Bool.not_eq_true _ ▸ (h kind hkind).1)
  exact eq_false_of_ne_true hvalue

/-- Skipping line breaks drops those that are ahead. -/
theorem ahead_skipNewlinesFrom (groups : Nat) (previous : Option Token) (current : Token) (upcoming : List Token)
    (h : ∃ token ∈ current :: upcoming, token.kind ≠ .newline) :
    let c := skipNewlinesFrom groups previous current upcoming
    let kinds := (current :: upcoming).map Token.kind
    c.ahead = kinds.dropWhile TokenKind.isNewline ∧
      c.lastKind = (kinds.takeWhile TokenKind.isNewline).getLast?.or (previous.map Token.kind) ∧ c.groups = groups := by
  induction upcoming generalizing previous current with
  | nil =>
    obtain ⟨token, ht, hkind⟩ := h
    obtain rfl := List.mem_singleton.1 ht
    have hother : ¬ token.kind.isNewline = true := mt of_decide_eq_true hkind
    dsimp only
    rw [List.map_cons, List.dropWhile_cons_of_neg hother, List.takeWhile_cons_of_neg hother]
    exact ⟨rfl, rfl, rfl⟩
  | cons token tokens ih =>
    dsimp only
    rw [skipNewlinesFrom, List.map_cons]
    split
    · rename_i hkind
      have hnewline : current.kind.isNewline = true := decide_eq_true hkind
      rw [List.dropWhile_cons_of_pos hnewline, List.takeWhile_cons_of_pos hnewline, List.getLast?_cons]
      obtain ⟨hahead, hlast, hgroups⟩ := ih (some current) token <| by
        obtain ⟨t, ht, hother⟩ := h
        exact ⟨t, (List.mem_cons.1 ht).resolve_left fun h => hother (h ▸ hkind), hother⟩
      refine ⟨hahead, hlast.trans ?_, hgroups⟩
      cases ((token :: tokens).map Token.kind).takeWhile TokenKind.isNewline |>.getLast? <;> rfl
    · rename_i hkind
      have hother : ¬ current.kind.isNewline = true := mt of_decide_eq_true hkind
      rw [List.dropWhile_cons_of_neg hother, List.takeWhile_cons_of_neg hother]
      exact ⟨rfl, rfl, rfl⟩

/-- Skipping line breaks drops those that are ahead, and remembers the last one. -/
theorem Sound.ahead_skipNewlines (h : c.Sound M) : c.skipNewlines.ahead = c.ahead.dropWhile TokenKind.isNewline ∧
    c.skipNewlines.lastKind = (c.ahead.takeWhile TokenKind.isNewline).getLast?.or c.lastKind ∧
    c.skipNewlines.groups = c.groups := by
  obtain ⟨before, span, hrest, -⟩ := h.ends
  refine ahead_skipNewlinesFrom c.groups c.previous c.current c.upcoming ⟨⟨.eof, span⟩, ?_, by simp⟩
  change _ ∈ c.rest
  rw [hrest]
  exact List.mem_append_right _ (.head _)

/-- Behind line breaks the cursor is at the first token that is none. -/
theorem Sound.kind_skipNewlines_eq (hc : c.Sound M) {kind : TokenKind} {kinds : List TokenKind}
    (h : c.ahead.dropWhile TokenKind.isNewline = kind :: kinds) : c.skipNewlines.kind = kind :=
  (List.cons.inj (hc.ahead_skipNewlines.1.trans h)).1

/-- Behind newlines, no value ends if none did before them or a newline has been passed. -/
theorem Sound.fresh_skipNewlines (hc : c.Sound M) (h : c.kind = .newline ∨ c.Fresh) : c.skipNewlines.Fresh := by
  obtain ⟨-, hlast, -⟩ := hc.ahead_skipNewlines
  cases hpassed : (c.ahead.takeWhile TokenKind.isNewline).getLast? with
  | some kind =>
    have hnewline : kind = .newline :=
      of_decide_eq_true (List.all_eq_true.1 List.all_takeWhile kind (List.mem_of_getLast? hpassed))
    rw [hpassed, hnewline] at hlast
    exact fresh_of_lastKind hlast rfl (by simp)
  | none =>
    have hother : c.kind ≠ .newline := fun hkind => by
      rw [ahead, hkind, List.takeWhile_cons_of_pos (show TokenKind.newline.isNewline = true from rfl),
        List.getLast?_cons] at hpassed
      cases hpassed
    rw [hpassed, Option.none_or] at hlast
    unfold Fresh
    rw [hlast]
    exact h.resolve_left hother

/-- The cursor behind the newlines here, if a group is open. -/
def skipNewlinesInGroup (c : Cursor) : Cursor := if 0 < c.groups then c.skipNewlines else c

/-- Skipping line breaks in a group goes on. -/
theorem onward_skipNewlinesInGroup (c : Cursor) : c.Onward c.skipNewlinesInGroup := by
  unfold skipNewlinesInGroup
  split
  · exact c.onward_skipNewlines
  · exact .refl c

/-- Something new still begins behind line breaks in a group. -/
theorem Sound.fresh_skipNewlinesInGroup (hc : c.Sound M) (h : c.Fresh) : c.skipNewlinesInGroup.Fresh := by
  unfold skipNewlinesInGroup
  split
  · exact hc.fresh_skipNewlines (.inr h)
  · exact h

end Cursor

/-- The cursors read the tokens of the two texts side by side, where some brackets and some groups are open. -/
structure Alongside (b : LineBreak) (brackets : List Enclosure) (groups : Nat) (c c' : Cursor) : Prop where
  meets : b.Meets ⟨c.lastKind, brackets⟩ c.ahead c'.ahead
  groups_eq : c.groups = groups
  groups_eq' : c'.groups = groups

variable {M : Material} {b : LineBreak} {brackets : List Enclosure} {groups : Nat} {c c' : Cursor}

/-- Both cursors stand at the line break. -/
def LineBreak.At (b : LineBreak) (brackets : List Enclosure) (c c' : Cursor) : Prop :=
  b.Here ⟨c.lastKind, brackets⟩ c.ahead c'.ahead

namespace LineBreak.At

/-- The second cursor is at the line break where the two part. -/
theorem kind_eq_newline (hat : b.At brackets c c') : c'.kind = .newline := (List.cons.inj hat.kinds').1

/-- The first cursor is at the token behind the line break where the two part. -/
theorem kind_eq_next (hat : b.At brackets c c') : c.kind = b.next := (List.cons.inj hat.kinds).1

/-- Where no operand ends, the tokens are not joined. -/
theorem not_joined (hat : b.At brackets c c') (hfresh : c.Fresh) : ¬ Joined b.previous b.next := by
  intro hjoined
  obtain ⟨hvalue, hdot⟩ := hfresh b.previous hat.fits.previous
  rcases hjoined.not_fresh with h | h
  · rw [h] at hvalue
    cases hvalue
  · exact hdot h

/-- If the tokens are joined, the second one closes no parenthesis. -/
theorem kind_skipNewlines_ne (hat : b.At brackets c c') (hc : c.Sound M)
    (hjoined : Joined b.previous b.next) : c.skipNewlines.kind ≠ .mark .rightParen := by
  obtain ⟨hnewline, hparen⟩ := hjoined.next_ne
  have hother : ¬ b.next.isNewline = true := mt of_decide_eq_true hnewline
  have hdrop : c.ahead.dropWhile TokenKind.isNewline = b.next :: b.behind := by
    rw [hat.kinds, List.dropWhile_cons_of_neg hother]
  exact hc.kind_skipNewlines_eq hdrop ▸ hparen

end LineBreak.At

namespace Alongside

/-- Both cursors are at the same token, unless they part here. -/
theorem kind_cases (h : Alongside b brackets groups c c') : c'.kind = c.kind ∨ b.At brackets c c' :=
  h.meets.head_cases

/-- Unless a parenthesis around an expression is the innermost bracket, the same token stands before both cursors. -/
theorem kind_eq (h : Alongside b brackets groups c c') (hinner : brackets.head? ≠ some .group) : c'.kind = c.kind :=
  h.kind_cases.resolve_right fun hat => hinner hat.fits.innermost

/-- Both cursors pass the token that stands before both of them. -/
theorem advance {kind : TokenKind} (h : Alongside b brackets groups c c') (hkind : c'.kind = c.kind)
    (heq : c.kind = kind) (heof : kind ≠ .eof) (hc : c.Sound M) (hc' : c'.Sound M) :
    Alongside b (Surroundings.pass ⟨c.lastKind, brackets⟩ kind).brackets groups c.advance c'.advance ∧
      c.advance.lastKind = some kind := by
  subst heq
  obtain ⟨hahead, hlast, hgroups⟩ := Cursor.ahead_advance (mt hc.kind_eq_eof_iff.2 heof)
  obtain ⟨hahead', -, hgroups'⟩ := Cursor.ahead_advance (mt hc'.kind_eq_eof_iff.2 (hkind ▸ heof))
  refine ⟨⟨?_, hgroups.trans h.groups_eq, hgroups'.trans h.groups_eq'⟩, hlast⟩
  have hmeets := h.meets
  rw [hahead, hahead', hkind] at hmeets
  rw [hlast]
  exact hmeets.tail

/-- Both cursors skip line breaks to the same token, unless what comes next is joined. -/
theorem skipNewlines (h : Alongside b brackets groups c c') (hat : b.At brackets c c' → ¬ Joined b.previous b.next)
    (hc : c.Sound M) (hc' : c'.Sound M) :
    Alongside b brackets groups c.skipNewlines c'.skipNewlines ∧ c'.skipNewlines.kind = c.skipNewlines.kind := by
  obtain ⟨hahead, hlast, hgroups⟩ := hc.ahead_skipNewlines
  obtain ⟨hahead', -, hgroups'⟩ := hc'.ahead_skipNewlines
  obtain ⟨hmeets, hhead⟩ := h.meets.skip hat
  have hnewlines : ∀ kind ∈ c.ahead.takeWhile TokenKind.isNewline, kind = .newline := fun kind hkind =>
    of_decide_eq_true (List.all_eq_true.1 List.all_takeWhile kind hkind)
  rw [Surroundings.across_newlines _ hnewlines, ← hahead, ← hahead', ← hlast] at hmeets
  rw [← hahead, ← hahead'] at hhead
  exact ⟨⟨hmeets, hgroups.trans h.groups_eq, hgroups'.trans h.groups_eq'⟩, Option.some.inj hhead⟩

/-- Both cursors skip line breaks in a group to the same token, unless what comes next is joined. -/
theorem skipNewlinesInGroup (h : Alongside b brackets brackets.length c c')
    (hat : b.At brackets c c' → ¬ Joined b.previous b.next) (hc : c.Sound M) (hc' : c'.Sound M) :
    Alongside b brackets brackets.length c.skipNewlinesInGroup c'.skipNewlinesInGroup ∧
      c'.skipNewlinesInGroup.kind = c.skipNewlinesInGroup.kind := by
  unfold Cursor.skipNewlinesInGroup
  rw [h.groups_eq, h.groups_eq']
  split
  · exact h.skipNewlines hat hc hc'
  · rename_i hnone
    refine ⟨h, h.kind_eq fun hinner => hnone ?_⟩
    obtain ⟨outer, rfl⟩ := List.head?_eq_some_iff.1 hinner
    exact Nat.succ_pos _

/-- The number of groups may change on both sides alike. -/
theorem setGroups (h : Alongside b brackets groups c c') (change : Nat → Nat) :
    Alongside b brackets (change groups) { c with groups := change c.groups } { c' with groups := change c'.groups } :=
  ⟨h.meets, congrArg change h.groups_eq, congrArg change h.groups_eq'⟩

end Alongside

end TypedData
