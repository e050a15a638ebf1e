import TypedData.Proofs.Parsing.Grouping
import TypedData.Proofs.Scanning.LineBreaks

/-!
# Line breaks in parentheses

In a parenthesis around an expression a line break between two tokens changes nothing, unless the second one goes on
with the operand that ends with the first one, or names a field behind a dot (`Joined`).  A line break between two
such tokens is not passed over, and the expression is not read any more (`Expr.read_lineBreak`).

What the scanner makes of the text with the line break (`scan_lineFeed`) puts the cursors at the two beginnings
alongside each other (`Fed.exists_meets`).  If a line break between joined tokens were accepted, it would be ahead of
the cursors still, so the expression would end before it (`Expr.stop_le`).
-/

namespace TypedData

open TypedData.Parser

variable {M : Material} {b : LineBreak}

variable {left right tokens tokens' : List Token} {s t : Token} {found : List TokenKind} {e : Expr} {d : Cursor}

/-- What the scanner makes of a line break in a parenthesis around an expression. -/
theorem Fed.exists_meets (h : Fed left s t right (.ok found))
    (hgroup : (Surroundings.behind (kinds (left ++ [s]))).brackets.head? = some .group) :
    ∃ b : LineBreak, b.previous = s.kind ∧ b.next = t.kind ∧ b.behind = kinds right ∧
      b.Meets ⟨none, []⟩ (kinds (left ++ s :: t :: right)) found := by
  have hsplit : kinds (left ++ s :: t :: right) = kinds (left ++ [s]) ++ t.kind :: kinds right := by simp [kinds]
  have hfits (hnext : t.kind ≠ .newline) {b : LineBreak} (hp : b.previous = s.kind) (hn : b.next = t.kind) :
      b.Fits (Surroundings.across ⟨none, []⟩ (kinds (left ++ [s]))) := by
    refine ⟨?_, hgroup, hn ▸ hnext⟩
    rw [hp, kinds_append, Surroundings.across, List.foldl_append]
    rfl
  have hother : Joined s.kind t.kind → ∃ k ks, t.kind :: kinds right = k :: ks ∧ k ≠ .newline ∧ k ≠ .mark .rightParen :=
    fun hjoined => ⟨_, _, rfl, hjoined.next_ne⟩
  cases h with
  | quiet hquiet hfound =>
    refine ⟨⟨s.kind, t.kind, kinds right, t.kind :: kinds right, fun _ => rfl, hother⟩, rfl, rfl, rfl, ?_⟩
    refine .passed (fun hjoined => ?_) (Except.ok.inj hfound)
    exact hquiet.elim hjoined.previous_ne hjoined.next_ne.1
  | newline hs ht hfound =>
    refine ⟨⟨s.kind, t.kind, kinds right, t.kind :: kinds right, fun _ => rfl, hother⟩, rfl, rfl, rfl, ?_⟩
    exact .ahead _ hsplit (Except.ok.inj hfound) (hfits ht rfl rfl)
  | sign hvalue ht hfound =>
    obtain ⟨k, ks, hfound, hnumber⟩ := hfound found rfl
    have hjoined : Joined s.kind t.kind := .inl ⟨hvalue, .inr (by rw [ht]; rfl)⟩
    refine ⟨⟨s.kind, t.kind, kinds right, k :: ks, absurd hjoined, fun _ => ⟨k, ks, rfl, ?_⟩⟩, rfl, rfl, rfl, ?_⟩
    · rcases hnumber with ⟨n, rfl⟩ | ⟨x, rfl⟩ <;> simp
    · exact .ahead _ hsplit hfound (hfits hjoined.next_ne.1 rfl rfl)

/-- The text with the line break has tokens, too, unless the line break makes a sign of a minus. -/
theorem Fed.joined {error : TokenError} (h : Fed left s t right (.error error)) : Joined s.kind t.kind := by
  cases h with
  | quiet _ h | newline _ _ h => cases h
  | sign hvalue ht _ => exact .inl ⟨hvalue, .inr (by rw [ht]; rfl)⟩

/-- In a parenthesis at least one bracket is open. -/
theorem openBrackets_pos (hgroup : (Surroundings.behind (kinds tokens)).brackets.head? = some .group) :
    0 < openBrackets tokens := by
  obtain ⟨outer, houter⟩ := List.head?_eq_some_iff.1 hgroup
  rw [← Surroundings.length_brackets_behind, houter]
  exact Nat.succ_pos _

/-- The two texts are read in the same way, or the second one is not read. -/
theorem outcome_expr_lineBreak (hsound : (Cursor.ofTokens tokens).Sound M) (hsound' : (Cursor.ofTokens tokens').Sound M)
    (hmeets : b.Meets ⟨none, []⟩ (Cursor.ofTokens tokens).ahead (Cursor.ofTokens tokens').ahead)
    (hread : expr.outcome (.ofTokens tokens) = (.ok e, d)) :
    (Joined b.previous b.next ∧ ∃ error d', expr.outcome (.ofTokens tokens') = (.error error, d')) ∨
      ∃ e' d', expr.outcome (.ofTokens tokens') = (.ok e', d') ∧
        e'.relocate (fun _ => .zero) = e.relocate (fun _ => .zero) ∧ b.Meets ⟨d.lastKind, []⟩ d.ahead d'.ahead := by
  have hlast : (Cursor.ofTokens tokens).lastKind = none := by cases tokens <;> rfl
  have hgroups (tokens : List Token) : (Cursor.ofTokens tokens).groups = 0 := by cases tokens <;> rfl
  have halongside : Alongside b [] 0 (.ofTokens tokens) (.ofTokens tokens') :=
    ⟨hlast.symm ▸ hmeets, hgroups tokens, hgroups tokens'⟩
  have hfresh : (Cursor.ofTokens tokens).Fresh := by
    intro kind hkind
    rw [hlast] at hkind
    cases hkind
  have htracks := (tracks_exprWithin_and_chainWithin (M := M) (b := b) maxNesting).1 0 halongside hfresh
  rcases htracks hsound hsound' e d hread with hfails | ⟨e', d', hread', -, -, hsame⟩
  · exact .inl hfails
  · cases hsame with
    | same htree h _ => exact .inr ⟨e', d', hread', htree, h.meets⟩
    | stuck hstuck => cases hstuck.innermost

/-- While all the tokens behind a place are ahead, no more of the text has been read than what stands before the
place. -/
theorem Cursor.Onward.lastEnd_le {bound : Nat} (honward : (Cursor.ofTokens (left ++ right)).Onward d)
    (hne : right ≠ []) (hahead : right.length ≤ d.rest.length) (hleft : ∀ token ∈ left, token.span.stop ≤ bound) :
    d.lastEnd ≤ bound := by
  obtain ⟨passed, hpasses⟩ := honward
  have hrest : (Cursor.ofTokens (left ++ right)).rest = left ++ right ∧
      (Cursor.ofTokens (left ++ right)).previous = none := by
    cases hcons : left ++ right with
    | nil => exact absurd (List.append_eq_nil_iff.1 hcons).2 hne
    | cons token tokens => exact ⟨rfl, rfl⟩
  have hpassed : passed <+: left := by
    have htokens : left ++ right = passed ++ d.rest := hrest.1.symm.trans hpasses.rest
    refine List.prefix_of_prefix_length_le ⟨d.rest, htokens.symm⟩ ⟨right, rfl⟩ ?_
    have hlength := congrArg List.length htokens
    rw [List.length_append, List.length_append] at hlength
    omega
  unfold Cursor.lastEnd
  rw [hpasses.previous, hrest.2, Option.or_none]
  cases hlast : passed.getLast? with
  | none => exact Nat.zero_le _
  | some token => exact hleft token (hpassed.subset (List.mem_of_getLast? hlast))

/-- So an expression that is read then ends before the place. -/
theorem Expr.stop_le {bound : Nat} (hsound : (Cursor.ofTokens (left ++ right)).Sound M)
    (hread : expr.outcome (.ofTokens (left ++ right)) = (.ok e, d)) (hne : right ≠ [])
    (hahead : right.length ≤ d.rest.length) (hleft : ∀ token ∈ left, token.span.stop ≤ bound) :
    e.span.stop ≤ bound := by
  obtain ⟨honward, -, hbetween⟩ := (nests_exprWithin maxNesting 0 _).ok hsound hread
  have hstop := (List.forall_mem_singleton.1 hbetween.row.inside).2
  rw [Expr.span_spanTree] at hstop
  exact Nat.le_trans hstop (honward.lastEnd_le hne hahead hleft)

/-- A line break between joined tokens has not been passed, so the expression ends before it. -/
theorem Expr.stop_le_of_joined {surroundings : Surroundings} {ahead' : List TokenKind} {bound : Nat}
    (hsound : (Cursor.ofTokens (left ++ t :: right)).Sound M)
    (hread : expr.outcome (.ofTokens (left ++ t :: right)) = (.ok e, d)) (hjoined : Joined b.previous b.next)
    (hbehind : b.behind = kinds right) (hmeets : b.Meets surroundings d.ahead ahead')
    (hleft : ∀ token ∈ left, token.span.stop ≤ bound) : e.span.stop ≤ bound := by
  cases hmeets with
  | passed hfree _ => exact absurd hjoined hfree
  | ahead front hahead _ _ =>
    have hlength := congrArg List.length hahead
    rw [Cursor.ahead_eq, hbehind, kinds, List.length_map, List.length_append, List.length_cons,
      List.length_map] at hlength
    exact Expr.stop_le hsound hread (List.cons_ne_nil t right) (hlength ▸ Nat.le_add_left ..) hleft

/-- All the tokens of a stream are ahead of the cursor at its beginning. -/
theorem IsStream.ahead {source : List Char} (h : IsStream source tokens) :
    (Cursor.ofTokens tokens).ahead = kinds tokens := by
  obtain ⟨before, span, rfl, -⟩ := h.ends
  refine Cursor.at_ofTokens rfl ?_
  rw [kinds_append]
  exact List.append_ne_nil_of_right_ne_nil _ (List.cons_ne_nil _ _)

/-- **Where line breaks in parentheses count.**  In a parenthesis around an expression, a line break between two tokens
changes nothing if the second one does not go on with the operand that ends with the first one: the same expression is
read, at other places.  If it does, or if it names a field behind a dot, no expression is read any more. -/
theorem Expr.read_lineBreak {before after : String} (hread : Expr.read (before ++ after) = .ok e)
    (hscan : scan (before ++ after) = .ok (left ++ s :: t :: right)) (hplace : Parts before.toList after.toList s t)
    (hgroup : (Surroundings.behind (kinds (left ++ [s]))).brackets.head? = some .group) :
    (¬ Joined s.kind t.kind → ∃ e', Expr.read (before ++ "\n" ++ after) = .ok e' ∧
      e'.relocate (fun _ => .zero) = e.relocate fun _ => .zero) ∧
    (Joined s.kind t.kind → utf8Length before.toList < e.span.stop →
      ∃ failure, Expr.read (before ++ "\n" ++ after) = .error failure) := by
  have hfed := scan_lineFeed hscan hplace (openBrackets_pos hgroup)
  cases hscan' : scan (before ++ "\n" ++ after) with
  | error error =>
    rw [hscan'] at hfed
    exact ⟨absurd hfed.joined, fun _ _ => ⟨.token error, by rw [Expr.read, hscan']; rfl⟩⟩
  | ok tokens' =>
    rw [hscan'] at hfed
    obtain ⟨b, hprevious, hnext, hbehind, hmeets⟩ := hfed.exists_meets hgroup
    rw [← hprevious, ← hnext]
    have hleft := hplace.stop_le_of_mem (isStream_of_scan hscan).placed.ordered
    rw [List.append_cons] at hscan hmeets
    have hstream := isStream_of_scan hscan
    have hstream' := isStream_of_scan hscan'
    let M := Material.ofKinds (fun _ => True) trivial
    have hsound : (Cursor.ofTokens _).Sound M := Cursor.sound_ofTokens hstream fun _ _ => trivial
    have hsound' : (Cursor.ofTokens _).Sound M := Cursor.sound_ofTokens hstream' fun _ _ => trivial
    rw [← hstream.ahead, ← hstream'.ahead] at hmeets
    rw [Expr.read_eq hscan] at hread
    have hparse : (expr.outcome (.ofTokens (left ++ [s] ++ t :: right))).1 = .ok e := mapError_eq_ok_iff.1 hread
    rcases outcome_expr_lineBreak hsound hsound' hmeets (Prod.ext hparse rfl) with
      ⟨hjoined, error, d', hfails⟩ | ⟨e', d', hread', htree, hlater⟩
    · refine ⟨absurd hjoined, fun _ _ => ⟨.parse error, ?_⟩⟩
      rw [Expr.read_eq hscan', hfails]
      rfl
    · refine ⟨fun _ => ⟨e', by rw [Expr.read_eq hscan', hread']; rfl, htree⟩, fun hjoined hinside => ?_⟩
      have hstop := Expr.stop_le_of_joined hsound (Prod.ext hparse rfl) hjoined hbehind hlater hleft
      exact absurd hinside (Nat.not_lt.2 hstop)

/-- A line break behind an operator, and one before it. -/
theorem Expr.read_lineBreak_sum :
    (∃ e e', Expr.read ("(f(a) +" ++ " c)") = .ok e ∧ Expr.read ("(f(a) +" ++ "\n" ++ " c)") = .ok e' ∧
      e'.relocate (fun _ => .zero) = e.relocate fun _ => .zero) ∧
    ∃ failure, Expr.read ("(f(a)" ++ "\n" ++ " + c)") = .error failure := by
  let front : List Token := [⟨.mark .leftParen, ⟨0, 1⟩⟩, ⟨.name "f", ⟨1, 2⟩⟩, ⟨.mark .leftParen, ⟨2, 3⟩⟩,
    ⟨.name "a", ⟨3, 4⟩⟩]
  let close : Token := ⟨.mark .rightParen, ⟨4, 5⟩⟩
  let plus : Token := ⟨.mark .plus, ⟨6, 7⟩⟩
  let last : Token := ⟨.name "c", ⟨8, 9⟩⟩
  let back : List Token := [⟨.mark .rightParen, ⟨9, 10⟩⟩, ⟨.newline, ⟨10, 10⟩⟩, ⟨.eof, ⟨10, 10⟩⟩]
  constructor
  · have htest : (Expr.read ("(f(a) +" ++ " c)")).toOption.any (fun _ => true) = true := by decide +kernel
    obtain ⟨e, hread, -⟩ := exists_ok_of_any htest
    have hscan : scan ("(f(a) +" ++ " c)") = .ok (front ++ [close] ++ plus :: last :: back) := by decide +kernel
    have hplace : Parts "(f(a) +".toList " c)".toList plus last :=
      ⟨by decide, by decide +kernel, by decide +kernel, trivial⟩
    obtain ⟨e', hread', htree⟩ := (Expr.read_lineBreak hread hscan hplace (by decide +kernel)).1 (by decide)
    exact ⟨e, e', hread, hread', htree⟩
  · have htest : (Expr.read ("(f(a)" ++ " + c)")).toOption.any (fun e => 5 < e.span.stop) = true := by decide +kernel
    obtain ⟨e, hread, hstop⟩ := exists_ok_of_any htest
    have hscan : scan ("(f(a)" ++ " + c)") = .ok (front ++ close :: plus :: last :: back) := by decide +kernel
    have hplace : Parts "(f(a)".toList " + c)".toList close plus :=
      ⟨by decide, by decide +kernel, by decide +kernel, trivial⟩
    exact (Expr.read_lineBreak hread hscan hplace (by decide +kernel)).2 (by decide) (of_decide_eq_true hstop)

/-- Not all line breaks in parentheses can be put in: before an operator the parser does not pass them over. -/
theorem Expr.lineBreak_counts : ¬ ∀ (before after : String) (left right : List Token) (s t : Token) (e : Expr),
    Expr.read (before ++ after) = .ok e → scan (before ++ after) = .ok (left ++ s :: t :: right) →
    Parts before.toList after.toList s t →
    (Surroundings.behind (kinds (left ++ [s]))).brackets.head? = some .group →
    ∃ e', Expr.read (before ++ "\n" ++ after) = .ok e' ∧
      e'.relocate (fun _ => .zero) = e.relocate fun _ => .zero := by
  intro h
  have htest : (Expr.read ("(a" ++ "+ b)")).toOption.any (fun _ => true) = true := by decide +kernel
  obtain ⟨e, hread, -⟩ := exists_ok_of_any htest
  have hscan : scan ("(a" ++ "+ b)") =
      .ok ([⟨.mark .leftParen, ⟨0, 1⟩⟩] ++ ⟨.name "a", ⟨1, 2⟩⟩ :: ⟨.mark .plus, ⟨2, 3⟩⟩ ::
      [⟨.name "b", ⟨4, 5⟩⟩, ⟨.mark .rightParen, ⟨5, 6⟩⟩, ⟨.newline, ⟨6, 6⟩⟩, ⟨.eof, ⟨6, 6⟩⟩]) := by decide +kernel
  have hplace : Parts "(a".toList "+ b)".toList ⟨.name "a", ⟨1, 2⟩⟩ ⟨.mark .plus, ⟨2, 3⟩⟩ :=
    ⟨by decide, by decide +kernel, by decide +kernel, trivial⟩
  obtain ⟨e', hbroken, -⟩ := h _ _ _ _ _ _ e hread hscan hplace (by decide +kernel)
  have hfails : (Expr.read ("(a" ++ "\n" ++ "+ b)")).toOption = none := by decide +kernel
  rw [hbroken] at hfails
  cases hfails

end TypedData
