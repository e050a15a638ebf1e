import TypedData.Proofs.Scanning.LineEnds

/-!
# Line feeds between tokens

Between brackets a line feed can be put in between two tokens, and the tokens stay as they are but for a newline there
(`scan_lineFeed`).  There is none where a newline stands there already.  And a minus may become a sign, since no value
stands before it any more.

Up to that place the text is scanned in the same rounds, since nothing that is passed before it reaches over it
(`Scanned.comesTo`).  There the scanner stands between brackets, and the line feed is a round of its own.
-/

namespace TypedData

/-- The place between `before` and `after` lies between the tokens `s` and `t`, in no literal and in no comment.  The
token `s` is not empty, as none is between brackets but for those at the end of the text. -/
structure Parts (before after : List Char) (s t : Token) : Prop where
  covers : s.span.start < s.span.stop
  stop_le : s.span.stop ≤ utf8Length before
  le_start : utf8Length before ≤ t.span.start
  outside : (Region.behind before).Outside after

/-- All tokens up to the place end before it. -/
theorem Parts.stop_le_of_mem {before after : List Char} {left right : List Token} {s t : Token}
    (h : Parts before after s t) (hordered : (left ++ s :: right).Pairwise fun s t => s.span.stop ≤ t.span.start) :
    ∀ token ∈ left ++ [s], token.span.stop ≤ utf8Length before := by
  refine List.forall_mem_append.2 ⟨fun token ht => ?_, List.forall_mem_singleton.2 h.stop_le⟩
  calc token.span.stop ≤ s.span.start := (List.pairwise_append.1 hordered).2.2 token ht s (.head _)
    _ ≤ s.span.stop := Nat.le_of_lt h.covers
    _ ≤ utf8Length before := h.stop_le

/-- A text that is not empty takes some bytes. -/
theorem utf8Length_pos {cs : List Char} (h : cs ≠ []) : 0 < utf8Length cs := by
  obtain ⟨c, cs, rfl⟩ := List.exists_cons_of_ne_nil h
  have := c.utf8Size_pos
  rw [utf8Length_cons]
  omega

/-- Of two beginnings of a text, one that is not longer than the other is a part of it. -/
theorem exists_append_of_utf8Length_le {first second rest rest' : List Char} (h : first ++ rest = second ++ rest')
    (hle : utf8Length first ≤ utf8Length second) : ∃ between, second = first ++ between ∧ rest = between ++ rest' := by
  rcases List.append_eq_append_iff.1 h with hfound | ⟨between, hfirst, hrest⟩
  · exact hfound
  · by_cases hnil : between = []
    · subst hnil
      exact ⟨[], by rw [hfirst, List.append_nil, List.append_nil], hrest.symm⟩
    · have := utf8Length_pos hnil
      rw [hfirst, utf8Length_append] at hle
      omega

/-! ## Rounds before a place -/

namespace Lexeme

/-- A literal that ends before a text is read whatever stands there. -/
theorem Quotation.read?_of_suffix {input after : List Char} {q : Quotation} (h : read? (input ++ after) = some q)
    (hafter : after <:+ q.rest) : ∃ q' : Quotation, q = q'.extend after ∧
      ∀ more, read? (input ++ more) = some (q'.extend more) := by
  obtain ⟨between, hbetween⟩ := hafter
  have hinput : input = q.taken ++ between := by
    have hboth : input ++ after = q.taken ++ between ++ after := by
      rw [← append_of_read h, List.append_assoc, hbetween]
    exact List.append_cancel_right hboth
  have hread : ∀ more, read? (input ++ more) = (read? q.taken).map (extend (between ++ more)) := fun more => by
    rw [hinput, List.append_assoc]
    exact read?_append (across_taken h) (between ++ more)
  obtain ⟨q₀, hq₀, rfl⟩ := Option.map_eq_some_iff.1 ((hread after).symm.trans h)
  refine ⟨q₀.extend between, ?_, fun more => ?_⟩
  · rw [extend, extend, extend, List.append_assoc]
  · rw [hread, hq₀, Option.map_some, extend, extend, extend, List.append_assoc]

/-- A lexeme that ends before a place is read where a line feed stands at the place, too. -/
theorem read_lineFeed {start : Nat} {afterValue : Bool} {c : Char} {rest after : List Char} {lexeme : Lexeme}
    (h : read start afterValue c (rest ++ after) = .ok lexeme) (hafter : after <:+ lexeme.rest) :
    ∃ lexeme' : Lexeme, lexeme = lexeme'.extend after ∧
      read start afterValue c (rest ++ '\n' :: after) = .ok (lexeme'.extend ('\n' :: after)) := by
  by_cases hquote : c = '"'
  · subst hquote
    change quotation start (rest ++ after) = .ok lexeme at h
    change ∃ lexeme', _ ∧ quotation start (rest ++ '\n' :: after) = _
    unfold quotation at h ⊢
    split at h
    · rename_i q hq
      cases h
      obtain ⟨q', rfl, hmore⟩ := Quotation.read?_of_suffix hq hafter
      rw [hmore]
      exact ⟨⟨.string ⟨q'.pieces⟩, '"' :: q'.taken, q'.rest⟩, rfl, rfl⟩
    · cases h
  · have hneutral : IsNeutral ('\n' :: after) := by
      rintro c ⟨⟩
      decide
    rw [read_of_suffix hquote h hafter] at h
    obtain ⟨lexeme', hread, rfl⟩ := map_eq_ok_iff.1 h
    exact ⟨lexeme', rfl, by rw [read_of_isNeutral start afterValue hquote rest hneutral, hread]; rfl⟩

end Lexeme

variable {st st' : ScanState}

/-- A comment that begins before a place ends there at the latest, if a lexeme may begin at the place. -/
theorem comment_lineFeed {line after : List Char} (hplace : (Region.comment.across line).Outside after) :
    ∃ rest, (line ++ after).dropWhile (· != '\n') = rest ++ after ∧
      (line ++ '\n' :: after).dropWhile (· != '\n') = rest ++ '\n' :: after ∧
      (line ++ '\n' :: after).takeWhile (· != '\n') = (line ++ after).takeWhile (· != '\n') := by
  by_cases hline : '\n' ∈ line
  · refine ⟨line.dropWhile (· != '\n'), dropWhile_append_of_mem (by decide) hline _,
      dropWhile_append_of_mem (by decide) hline _, ?_⟩
    rw [takeWhile_append_of_mem (by decide) hline, takeWhile_append_of_mem (by decide) hline]
  · have hall : ∀ c ∈ line, (c != '\n') = true := fun c hc => bne_iff_ne.2 fun h => hline (h ▸ hc)
    rw [Region.across_comment hline] at hplace
    have hafter : after.takeWhile (· != '\n') = [] ∧ after.dropWhile (· != '\n') = after := by
      cases after with
      | nil => exact ⟨rfl, rfl⟩
      | cons c after =>
        obtain rfl := hplace c rfl
        exact ⟨rfl, rfl⟩
    refine ⟨[], ?_, ?_, ?_⟩
    · rw [List.dropWhile_append_of_pos hall, hafter.2, List.nil_append]
    · rw [List.dropWhile_append_of_pos hall]
      rfl
    · rw [List.takeWhile_append_of_pos hall, List.takeWhile_append_of_pos hall, hafter.1]
      rfl

/-- A lexeme that is not longer than what stands before a place ends before it. -/
theorem Lexeme.suffix_of_le {start : Nat} {afterValue : Bool} {c : Char} {rest after : List Char} {lexeme : Lexeme}
    (h : Lexeme.read start afterValue c (rest ++ after) = .ok lexeme)
    (hle : utf8Length lexeme.taken ≤ utf8Length (c :: rest)) : after <:+ lexeme.rest := by
  have hall : lexeme.taken ++ lexeme.rest = c :: rest ++ after := (Lexeme.read_splits h).append_eq
  obtain ⟨between, -, hrest⟩ := exists_append_of_utf8Length_le hall hle
  exact ⟨between, hrest.symm⟩

/-- A round that does not pass a place is the same where a line feed stands there. -/
theorem passNext_lineFeed {r : Region} {c : Char} {rest after later : List Char} {tokens : List Token}
    (hout : r.Outside (c :: (rest ++ after))) (hplace : (r.across (c :: rest)).Outside after)
    (h : st.passNext c (rest ++ after) = .ok (tokens, st', later))
    (htokens : ∀ token ∈ tokens, token.span.stop ≤ st.offset + utf8Length (c :: rest)) :
    ∃ rest', later = rest' ++ after ∧
      st.passNext c (rest ++ '\n' :: after) = .ok (tokens, st', rest' ++ '\n' :: after) := by
  unfold ScanState.passNext at h ⊢
  split at h
  · rename_i hblank
    rw [if_pos hblank]
    cases h
    exact ⟨rest, rfl, rfl⟩
  rename_i hblank
  rw [if_neg hblank]
  split at h
  · rename_i hbreak
    rw [if_pos hbreak]
    cases h
    exact ⟨rest, rfl, rfl⟩
  rename_i hbreak
  rw [if_neg hbreak]
  split at h
  · rename_i hcomment
    obtain ⟨hc, hhead⟩ := Bool.and_eq_true_iff.1 hcomment
    obtain rfl := of_decide_eq_true hc
    obtain rfl := hout.eq_plain
    -- the place is not between the two slashes, so the comment has begun before it
    cases rest with
    | nil => exact absurd (of_decide_eq_true hhead) hplace
    | cons d rest =>
      obtain rfl : d = '/' := Option.some.inj (of_decide_eq_true hhead)
      have hplace : (Region.comment.across ('/' :: rest)).Outside after := hplace
      obtain ⟨rest', hdrop, hdrop', htake⟩ := comment_lineFeed hplace
      rw [if_pos (by rfl), hdrop', htake]
      cases h
      exact ⟨rest', hdrop, rfl⟩
  · rename_i hcomment
    have hnone : ¬ (c = '/' && (rest ++ '\n' :: after).head? = some '/') = true := by
      cases rest with
      | nil => simp
      | cons d rest => exact hcomment
    rw [if_neg hnone]
    obtain ⟨lexeme, hread, h⟩ := map_eq_ok_iff.1 h
    cases h
    have hle := Nat.le_of_add_le_add_left (htokens _ (.head _))
    obtain ⟨lexeme', rfl, hread'⟩ := Lexeme.read_lineFeed hread (Lexeme.suffix_of_le hread hle)
    exact ⟨lexeme'.rest, rfl, by rw [hread']; rfl⟩

/-- There is no layout, or it is the indentation of a line outside brackets. -/
theorem readLayout_cases (st : ScanState) : (∀ text, readLayout st text = .ok ([], st, text)) ∨
    st.depth = 0 ∧ ∀ {text tokens st' rest}, readLayout st text = .ok (tokens, st', rest) →
      rest = text.dropWhile isIndentChar := by
  unfold readLayout
  split
  · rename_i hstart
    refine .inr ⟨of_decide_eq_true (Bool.and_eq_true_iff.1 hstart).2, fun h => ?_⟩
    unfold readIndentation at h
    dsimp only at h
    split at h
    · cases h
      rfl
    · obtain ⟨_, -, h⟩ := bind_eq_ok_iff.1 h
      cases h
      rfl
  · exact .inl fun _ => rfl

/-- Neither does the layout reach over a place, if something stands between them. -/
theorem readLayout_lineFeed {r : Region} {text rest after : List Char} {tokens : List Token} (hne : rest ≠ [])
    (hout : r.Outside (rest ++ after)) (hplace : (r.across rest).Outside after)
    (h : readLayout st (text ++ after) = .ok (tokens, st', rest ++ after)) :
    readLayout st (text ++ '\n' :: after) = .ok (tokens, st', rest ++ '\n' :: after) := by
  rcases readLayout_cases st with hnone | ⟨-, hlayout⟩
  · rw [hnone] at h ⊢
    obtain ⟨htokens, h⟩ := Prod.mk.inj (Except.ok.inj h)
    obtain ⟨hst, hrest⟩ := Prod.mk.inj h
    rw [htokens, hst, List.append_cancel_right hrest]
  · have hrest := hlayout h
    have hsuffix : after <:+ (text ++ after).dropWhile isIndentChar := hrest ▸ List.suffix_append ..
    rw [(run_of_suffix text hsuffix).2.2] at hrest
    obtain rfl := List.append_cancel_right hrest
    have hblank : isLineBlank (text.dropWhile isIndentChar ++ after) = isLineBlank (text.dropWhile isIndentChar) := by
      generalize text.dropWhile isIndentChar = rest at hne hout hplace
      match rest, hne with
      | [c], _ =>
        cases after with
        | nil => rfl
        | cons d after =>
          have hcomment : ¬ (c = '/' ∧ d = '/') := by
            rintro ⟨rfl, rfl⟩
            obtain rfl := hout.eq_plain
            exact hplace rfl
          rw [List.singleton_append, isLineBlank_cons_cons]
          unfold isLineBlank
          split <;> simp_all
      | c :: d :: rest, _ => rw [List.cons_append, List.cons_append, isLineBlank_cons_cons, isLineBlank_cons_cons]
    rw [readLayout_extend text hsuffix hblank] at h
    obtain ⟨⟨tokens', next, rest'⟩, hread, hfound⟩ := map_eq_ok_iff.1 h
    obtain ⟨htokens, hfound⟩ := Prod.mk.inj hfound
    obtain ⟨hnext, hrest⟩ := Prod.mk.inj hfound
    rw [readLayout_append_of_endsLine text ⟨after, .inl rfl⟩, hread, ← htokens, ← hnext,
      ← List.append_cancel_right hrest]
    rfl

/-! ## The way to the place -/

/-- The tokens of a text behind the layout that it begins with. -/
def scanRest (st : ScanState) : List Char → Except TokenError (List Token)
  | [] => .ok (finish st)
  | c :: rest => (st.passNext c rest).bind fun (more, next, rest) => (scanFrom next rest).map (more ++ ·)

/-- Scanning is the layout, and then what stands behind it. -/
theorem scanFrom_eq_scanRest (st : ScanState) (text : List Char) : scanFrom st text =
    (readLayout st text).bind fun (tokens, st', rest) => (scanRest st' rest).map (tokens ++ ·) := by
  rw [scanFrom_eq]
  refine congrArg _ (funext fun ⟨tokens, st', rest⟩ => ?_)
  cases rest with
  | nil => rfl
  | cons c rest =>
    unfold scanRest
    dsimp only
    cases st'.passNext c rest with
    | error e => rfl
    | ok found =>
      obtain ⟨more, next, rest'⟩ := found
      dsimp only [Except.bind]
      cases scanFrom next rest' with
      | error e => rfl
      | ok others => exact congrArg Except.ok (List.append_assoc ..)

section Places

variable {text rest : List Char} {tokens : List Token}

/-- The layout moves the offset forward, if at all. -/
theorem Aligns.offset_le (h : Aligns st text tokens st' rest) : st.offset ≤ st'.offset := by
  cases h with
  | none => exact Nat.le_refl _
  | blank | opens | closes => exact Nat.le_add_right ..

/-- The layout makes blocks and nothing else. -/
theorem Aligns.kind (h : Aligns st text tokens st' rest) :
    ∀ token ∈ tokens, token.kind = .indent ∨ token.kind = .dedent := by
  cases h with
  | none | blank => exact List.forall_mem_nil _
  | opens => exact List.forall_mem_singleton.2 (.inl rfl)
  | closes =>
    intro token ht
    obtain ⟨_, -, rfl⟩ := List.mem_map.1 ht
    exact .inr rfl

/-- The layout leaves the depth as it is. -/
theorem Aligns.depth (h : Aligns st text tokens st' rest) : st'.depth = st.depth := by
  cases h <;> rfl

/-- The tokens of the layout start where the state is, or later. -/
theorem Aligns.le_start (h : Aligns st text tokens st' rest) : ∀ token ∈ tokens, st.offset ≤ token.span.start := by
  cases h with
  | none | blank => exact List.forall_mem_nil _
  | opens => exact List.forall_mem_singleton.2 (Nat.le_refl _)
  | closes =>
    intro token ht
    obtain ⟨_, -, rfl⟩ := List.mem_map.1 ht
    exact Nat.le_add_right ..

/-- What is passed moves the offset forward. -/
theorem Move.offset_le (h : Move st text tokens st' rest) : st.offset ≤ st'.offset := by
  cases h with
  | lineFeed =>
    rw [ScanState.passLineFeed_offset]
    exact Nat.le_succ _
  | blank | comment | lexeme => exact Nat.le_add_right ..

/-- The tokens of what is passed start where the state is. -/
theorem Move.start (h : Move st text tokens st' rest) : ∀ token ∈ tokens, token.span.start = st.offset := by
  cases h with
  | blank | comment => exact List.forall_mem_nil _
  | lineFeed =>
    unfold ScanState.newlines
    split
    · exact List.forall_mem_singleton.2 rfl
    · exact List.forall_mem_nil _
  | lexeme => exact List.forall_mem_singleton.2 rfl

/-- The tokens of a text start where it does, or later. -/
theorem le_start_of_scanFrom (h : scanFrom st text = .ok tokens) : ∀ token ∈ tokens, st.offset ≤ token.span.start := by
  obtain ⟨more, last, ⟨hoffset, hmore⟩, rfl⟩ := exists_of_scanFrom
    (I := fun tokens next _ => st.offset ≤ next.offset ∧ ∀ token ∈ tokens, st.offset ≤ token.span.start)
    (fun h hmove => ⟨h.1.trans hmove.offset_le,
      List.forall_mem_append.2 ⟨h.2, fun token ht => h.1.trans (hmove.le_start token ht)⟩⟩)
    (fun h hmove => ⟨h.1.trans hmove.offset_le,
      List.forall_mem_append.2 ⟨h.2, fun token ht => h.1.trans (Nat.le_of_eq (hmove.start token ht).symm)⟩⟩)
    ⟨Nat.le_refl _, List.forall_mem_nil _⟩ h
  refine List.forall_mem_append.2 ⟨hmore, fun token ht => ?_⟩
  rw [(mem_finish ht).2]
  exact hoffset

/-- The tokens of a text behind its layout start where it does, or later. -/
theorem le_start_of_scanRest (h : scanRest st text = .ok tokens) : ∀ token ∈ tokens, st.offset ≤ token.span.start := by
  cases text with
  | nil =>
    cases h
    intro token ht
    rw [(mem_finish ht).2]
  | cons c text =>
    obtain ⟨⟨more, next, rest⟩, hpass, h⟩ := bind_eq_ok_iff.1 h
    have hmove := move_of_passNext hpass
    obtain ⟨others, hlater, rfl⟩ := map_eq_ok_iff.1 h
    refine List.forall_mem_append.2 ⟨fun token ht => Nat.le_of_eq (hmove.start token ht).symm, fun token ht => ?_⟩
    exact hmove.offset_le.trans (le_start_of_scanFrom hlater token ht)

end Places

/-- What a scan knows where it has passed some tokens. -/
structure Scanned (source : List Char) (tokens : List Token) (st : ScanState) (text : List Char) : Prop where
  placed : IsPlaced source tokens st text
  nested : Nested tokens st
  lined : Lined tokens st

namespace Scanned

variable {source text rest : List Char} {tokens more : List Token}

/-- At the beginning of a text, nothing has been passed. -/
theorem initial (source : List Char) : Scanned source [] .initial source :=
  ⟨⟨[], rfl, rfl, trivial, .nil _⟩, .initial, .initial⟩

/-- A scan knows the same behind the layout, with its tokens. -/
theorem aligns (h : Scanned source tokens st text) (hmove : Aligns st text more st' rest) :
    Scanned source (tokens ++ more) st' rest :=
  ⟨h.placed.aligns hmove, h.nested.aligns hmove, h.lined.aligns hmove⟩

/-- A scan knows the same behind what is passed, with its tokens. -/
theorem move (h : Scanned source tokens st text) (hmove : Move st text more st' rest) :
    Scanned source (tokens ++ more) st' rest :=
  ⟨h.placed.move hmove, h.nested.move hmove, h.lined.move hmove⟩

section Rounds

variable {before after here : List Char} {left right done front : List Token} {s t : Token}
  (hplace : Parts before after s t) (hopen : 0 < openBrackets (left ++ [s]))

include hplace

/-- Where the tokens up to `s` have been passed but for some that start behind the place, they have all been passed. -/
theorem eq_nil_of_le_start (hfront : done ++ front = left ++ [s])
    (hstart : ∀ token ∈ front, utf8Length before ≤ token.span.start) : front = [] := by
  refine (List.eq_nil_or_concat' front).resolve_right ?_
  rintro ⟨front, last, rfl⟩
  obtain ⟨-, hlast⟩ := List.append_inj' ((List.append_assoc ..).trans hfront) rfl
  obtain rfl := List.singleton_inj.1 hlast
  have := hstart last (List.mem_append_right _ (.head _))
  have := hplace.covers
  have := hplace.stop_le
  omega

include hopen

/-- The layout before a place between brackets belongs to the tokens before the place, and something stands between
them. -/
theorem exists_layout (h : Scanned (before ++ after) done st (here ++ after)) (hhere : here ≠ [])
    (hfront : done ++ front = left ++ [s]) (hscan : scanFrom st (here ++ after) = .ok (front ++ t :: right)) :
    ∃ layout front' st' passed c b, front = layout ++ front' ∧ before = passed ++ c :: b ∧
      st'.offset = utf8Length passed ∧
      (Region.behind passed).Outside (c :: (b ++ after)) ∧ Aligns st (here ++ after) layout st' (c :: (b ++ after)) ∧
      readLayout st (here ++ after) = .ok (layout, st', c :: (b ++ after)) ∧
      scanRest st' (c :: (b ++ after)) = .ok (front' ++ t :: right) := by
  obtain ⟨passed, hsource, hoffset, -, -⟩ := h.placed
  have hbefore : before = passed ++ here := by
    rw [← List.append_assoc] at hsource
    exact List.append_cancel_right hsource
  rw [scanFrom_eq_scanRest] at hscan
  obtain ⟨⟨layout, st', rest⟩, hlayout, hscan⟩ := bind_eq_ok_iff.1 hscan
  obtain ⟨later, hlater, hsplit⟩ := map_eq_ok_iff.1 hscan
  have halign := aligns_of_readLayout hlayout
  have h' := h.aligns halign
  obtain ⟨front', rfl, rfl⟩ : ∃ front', front = layout ++ front' ∧ later = front' ++ t :: right := by
    rcases append_eq_append_cons_cases hsplit with ⟨between, rfl, -⟩ | hfound
    · -- between brackets, `t` is no token of the layout
      have hkind := halign.kind t (List.mem_append_right _ (.head _))
      have hquiet := h'.nested.quiet (done ++ front) t between (List.append_assoc ..).symm (hfront ▸ hopen)
      exact absurd hkind (not_or.2 hquiet)
    · exact hfound
  rw [← List.append_assoc] at hfront
  obtain ⟨passed', hsource', hoffset', hout, -⟩ := h'.placed
  have hoffset_lt : st'.offset < utf8Length before := by
    refine Nat.lt_of_not_le fun hle => ?_
    rcases readLayout_cases st with hnone | ⟨hdepth, -⟩
    · rw [hnone] at hlayout
      cases hlayout
      have := utf8Length_pos hhere
      rw [hbefore, utf8Length_append] at hle
      omega
    · -- all tokens up to `s` would be passed without a bracket open
      obtain rfl : front' = [] := eq_nil_of_le_start hplace hfront fun token ht =>
        hle.trans (le_start_of_scanRest hlater token (List.mem_append_left _ ht))
      rw [List.append_nil] at hfront
      have hzero := h'.nested.depth
      rw [halign.depth, hdepth, hfront] at hzero
      omega
  rw [hoffset'] at hoffset_lt
  obtain ⟨between, hbefore', rfl⟩ := exists_append_of_utf8Length_le hsource'.symm (Nat.le_of_lt hoffset_lt)
  cases between with
  | nil =>
    rw [hbefore', List.append_nil] at hoffset_lt
    exact absurd hoffset_lt (Nat.lt_irrefl _)
  | cons c b => exact ⟨layout, front', st', passed', c, b, rfl, hbefore', hoffset', hout, halign, hlayout, hlater⟩

variable (hleft : ∀ token ∈ left ++ [s], token.span.stop ≤ utf8Length before)

include hleft

/-- A round that begins before a place between brackets ends before it, and is the same where a line feed stands
there. -/
theorem exists_round (h : Scanned (before ++ after) done st (here ++ after)) (hhere : here ≠ [])
    (hfront : done ++ front = left ++ [s]) (hscan : scanFrom st (here ++ after) = .ok (front ++ t :: right)) :
    ∃ more front' next here', front = more ++ front' ∧ here'.length < here.length ∧
      Scanned (before ++ after) (done ++ more) next (here' ++ after) ∧
      scanFrom next (here' ++ after) = .ok (front' ++ t :: right) ∧
      scanFrom st (here ++ '\n' :: after) = (scanFrom next (here' ++ '\n' :: after)).map (more ++ ·) := by
  obtain ⟨layout, front, st', passed, c, b, rfl, hbefore, hoffset, hout, halign, hlayout, hlater⟩ :=
    exists_layout hplace hopen h hhere hfront hscan
  obtain ⟨⟨more, next, rest⟩, hpass, hlater⟩ := bind_eq_ok_iff.1 hlater
  obtain ⟨others, hothers, hsplit⟩ := map_eq_ok_iff.1 hlater
  have hmove := move_of_passNext hpass
  obtain ⟨front, rfl, rfl⟩ : ∃ front', front = more ++ front' ∧ others = front' ++ t :: right := by
    rcases append_eq_append_cons_cases hsplit with ⟨between, rfl, -⟩ | hfound
    · -- the token `t` starts behind the place, and the round begins before it
      have hstart := hmove.start t (List.mem_append_right _ (.head _))
      have := hplace.le_start
      rw [hbefore, utf8Length_append, utf8Length_cons] at this
      have := c.utf8Size_pos
      omega
    · exact hfound
  have hregion := hplace.outside
  rw [hbefore, Region.behind_append] at hregion
  have hmore : ∀ token ∈ more, token.span.stop ≤ st'.offset + utf8Length (c :: b) := by
    intro token ht
    rw [hoffset, ← utf8Length_append, ← hbefore]
    exact hleft token (hfront ▸ List.mem_append_right _ (List.mem_append_right _ (List.mem_append_left _ ht)))
  obtain ⟨here', rfl, hpass'⟩ := passNext_lineFeed hout hregion hpass hmore
  have hlayout' := readLayout_lineFeed (List.cons_ne_nil c b) hout hregion hlayout
  have hlt := Nat.lt_of_lt_of_le hmove.length_lt halign.length_le
  rw [List.length_append, List.length_append] at hlt
  have hnext := (h.aligns halign).move hmove
  rw [List.append_assoc] at hnext
  refine ⟨layout ++ more, front, next, here', (List.append_assoc ..).symm, Nat.lt_of_add_lt_add_right hlt, hnext,
    hothers, ?_⟩
  rw [scanFrom_eq_scanRest, hlayout']
  change (scanRest st' (c :: (b ++ '\n' :: after))).map _ = _
  rw [scanRest, hpass']
  change ((scanFrom next (here' ++ '\n' :: after)).map _).map _ = _
  rw [map_append_map]

/-- **The scanner comes to a place between two tokens,** and as far as that it does the same where a line feed stands at
the place. -/
theorem comesTo (h : Scanned (before ++ after) done st (here ++ after)) (hfront : done ++ front = left ++ [s])
    (hscan : scanFrom st (here ++ after) = .ok (front ++ t :: right)) :
    ∃ next, Scanned (before ++ after) (left ++ [s]) next after ∧ scanFrom next after = .ok (t :: right) ∧
      scanFrom st (here ++ '\n' :: after) = (scanFrom next ('\n' :: after)).map (front ++ ·) := by
  induction hlength : here.length using Nat.strongRecOn generalizing done st here front with
  | ind n ih =>
    by_cases hhere : here = []
    · subst hhere
      obtain ⟨passed, hsource, hoffset, -, -⟩ := h.placed
      obtain rfl : before = passed := List.append_cancel_right hsource
      obtain rfl : front = [] := eq_nil_of_le_start hplace hfront fun token ht =>
        hoffset ▸ le_start_of_scanFrom hscan token (List.mem_append_left _ ht)
      rw [List.append_nil] at hfront
      exact ⟨st, hfront ▸ h, hscan, (map_nil_append _).symm⟩
    · obtain ⟨more, front, next, here', rfl, hlt, hnext, hothers, hsame⟩ :=
        exists_round hplace hopen hleft h hhere hfront hscan
      rw [← List.append_assoc] at hfront
      obtain ⟨last, hlast, hafter, hsame'⟩ := ih here'.length (hlength ▸ hlt) hnext hfront hothers rfl
      exact ⟨last, hlast, hafter, by rw [hsame, hsame', map_append_map]⟩

end Rounds

end Scanned

/-! ## The line feed -/

/-- Behind a newline, a value does not end before the text any more. -/
def ScanState.broken (st : ScanState) : ScanState := { st with previous := some .newline }

/-- What stands behind a newline that is put in before the token `t` and the tokens `right`, where a value may end. -/
inductive Behind (afterValue : Bool) (t : Token) (right : List Token)
    (found : Except TokenError (List TokenKind)) : Prop
  /-- The newline that stood there is gone. -/
  | newline : t.kind = .newline → found = .ok (kinds right) → Behind afterValue t right found
  | same : t.kind ≠ .newline → found = .ok (kinds (t :: right)) → Behind afterValue t right found
  /-- The minus is the sign of a number. -/
  | sign : afterValue = true → t.kind = .mark .minus →
      (∀ ks, found = .ok ks → ∃ k ks', ks = k :: ks' ∧ ((∃ n, k = .int n) ∨ ∃ x, k = .float x)) →
      Behind afterValue t right found

namespace Lexeme

/-- A number is an integer or a float. -/
theorem kind_of_number {start : Nat} {sign rest : List Char} {lexeme : Lexeme}
    (h : number start sign rest = .ok lexeme) :
    (∃ n, lexeme.kind = .int n) ∨ ∃ x, lexeme.kind = .float x := by
  have hkind := (of_number h).2.1
  unfold Numeral.kind? at hkind
  split at hkind
  · cases hkind
  · split at hkind
    · obtain ⟨x, -, hx⟩ := Option.map_eq_some_iff.1 hkind
      exact .inr ⟨x, hx.symm⟩
    · obtain ⟨n, -, hn⟩ := Option.map_eq_some_iff.1 hkind
      exact .inl ⟨n, hn.symm⟩

/-- Whether a value stands before a lexeme matters only for a minus. -/
theorem read_afterValue {start : Nat} {afterValue : Bool} {c : Char} {rest : List Char} {lexeme : Lexeme}
    (h : read start afterValue c rest = .ok lexeme) : read start false c rest = .ok lexeme ∨
      afterValue = true ∧ lexeme.kind = .mark .minus ∧ read start false c rest = number start ['-'] rest := by
  cases afterValue with
  | false => exact .inl h
  | true =>
    unfold read at h ⊢
    split at h
    · rename_i hquote
      rw [if_pos hquote]
      exact .inl h
    rename_i hquote
    rw [if_neg hquote]
    split at h
    · rename_i hdigit
      rw [if_pos hdigit]
      exact .inl h
    rename_i hdigit
    rw [if_neg hdigit]
    split at h
    · rename_i hword
      rw [if_pos hword]
      exact .inl h
    rename_i hword
    rw [if_neg hword]
    have hnosign : ¬ (c = '-' && !true && (rest.head?.map Char.isDigit).getD false) = true := by
      simp
    rw [if_neg hnosign] at h
    by_cases hsign : (c = '-' && !false && (rest.head?.map Char.isDigit).getD false) = true
    · obtain rfl : c = '-' := by
        simp only [Bool.and_eq_true, decide_eq_true_eq] at hsign
        exact hsign.1.1
      have hminus : mark? ('-' :: rest) = some ⟨.mark .minus, ['-'], rest⟩ := by
        cases rest <;> rfl
      rw [hminus] at h
      cases h
      rw [if_pos hsign]
      exact .inr ⟨rfl, rfl, rfl⟩
    · rw [if_neg hsign]
      exact .inl h

end Lexeme

/-- Between brackets, a line feed makes a newline if none has been made there. -/
theorem passLineFeed_of_depth (h : 0 < st.depth) :
    st.passLineFeed = (st.previous != some .newline, { st.broken with offset := st.offset + 1 }) := by
  rw [ScanState.passLineFeed, if_pos h, if_pos h, ScanState.broken]
  by_cases hprevious : st.previous = some .newline <;> simp [hprevious]

/-- Between brackets there is no layout. -/
theorem scanFrom_of_depth (h : 0 < st.depth) (text : List Char) : scanFrom st text = scanRest st text := by
  have hlayout : readLayout st text = .ok ([], st, text) := by
    rcases readLayout_cases st with hnone | ⟨hzero, -⟩
    · exact hnone text
    · omega
  rw [scanFrom_eq_scanRest, hlayout]
  exact map_nil_append _

/-- Between brackets, no newline stands at the end of a text. -/
theorem ne_newline_of_mem_finish (hdepth : 0 < st.depth) {t : Token} (h : t ∈ finish st) : t.kind ≠ .newline := by
  rcases finish_cases st with hclosing | ⟨hzero, -, -⟩
  · rcases (mem_closing (hclosing ▸ h)).1 with hkind | hkind <;> simp [hkind]
  · omega

/-- What is passed depends on the state only in the tokens that it makes. -/
theorem passNext_cases (c : Char) (rest : List Char) :
    (∃ passed rest', rest'.length ≤ rest.length ∧
      ∀ st : ScanState, st.passNext c rest = .ok ([], st.skip passed, rest')) ∨
    (∀ st : ScanState, st.passNext c rest = .ok (st.newlines, st.passLineFeed.2, rest)) ∨
    ∀ st : ScanState, st.passNext c rest = (Lexeme.read st.offset st.afterValue c rest).map fun lexeme =>
      ([⟨lexeme.kind, ⟨st.offset, (st.pass lexeme).offset⟩⟩], st.pass lexeme, lexeme.rest) := by
  unfold ScanState.passNext
  split
  · exact .inl ⟨[c], rest, Nat.le_refl _, fun _ => rfl⟩
  split
  · exact .inr (.inl fun _ => rfl)
  split
  · exact .inl ⟨_, _, (List.dropWhile_suffix _).length_le, fun _ => rfl⟩
  · exact .inr (.inr fun _ => rfl)

/-- Between brackets, a newline put in before a text changes what follows only there. -/
theorem behind_broken {text : List Char} {t : Token} {right : List Token} (hdepth : 0 < st.depth)
    (hprevious : st.previous ≠ some .newline) (h : scanFrom st text = .ok (t :: right)) :
    Behind st.afterValue t right (withoutPlaces (scanFrom st.broken text)) := by
  induction hlength : text.length using Nat.strongRecOn generalizing st text with
  | ind n ih =>
    subst hlength
    have hbroken : 0 < st.broken.depth := hdepth
    rw [scanFrom_of_depth hdepth] at h
    rw [scanFrom_of_depth hbroken]
    cases text with
    | nil =>
      have hfinish : finish st = t :: right := Except.ok.inj h
      exact .same (ne_newline_of_mem_finish hdepth (hfinish ▸ .head _))
        (congrArg (fun tokens => Except.ok (kinds tokens)) hfinish)
    | cons c rest =>
      rw [scanRest] at h ⊢
      rcases passNext_cases c rest with ⟨passed, rest', hle, hpass⟩ | hpass | hpass
      · -- a blank or a comment is passed, and the newline is still the token before the text
        rw [hpass] at h ⊢
        change (scanFrom (st.skip passed) rest').map ([] ++ ·) = _ at h
        change Behind _ _ _ (withoutPlaces ((scanFrom (st.skip passed).broken rest').map ([] ++ ·)))
        rw [map_nil_append] at h ⊢
        have hskipped : 0 < (st.skip passed).depth := hdepth
        exact ih rest'.length (Nat.lt_succ_of_le hle) hskipped hprevious h rfl
      · -- the newline that was put in takes the place of the one that the text would make
        rw [hpass, ScanState.newlines, passLineFeed_of_depth hdepth, bne_iff_ne.2 hprevious] at h
        rw [hpass, ScanState.newlines, passLineFeed_of_depth hbroken]
        obtain ⟨tokens, hscan, htokens⟩ := map_eq_ok_iff.1 h
        obtain ⟨rfl, rfl⟩ := List.cons.inj htokens
        refine .newline rfl ?_
        change withoutPlaces ((scanFrom _ rest).map ([] ++ ·)) = _
        rw [map_nil_append]
        exact congrArg withoutPlaces hscan
      · -- a lexeme is read as it was, but for a minus that is now the sign of a number
        rw [hpass] at h ⊢
        change Behind _ _ _ (withoutPlaces (Except.bind ((Lexeme.read st.offset false c rest).map _) _))
        cases hread : Lexeme.read st.offset st.afterValue c rest with
        | error e =>
          rw [hread] at h
          cases h
        | ok lexeme =>
          rw [hread] at h
          obtain ⟨tokens, hscan, htokens⟩ := map_eq_ok_iff.1 h
          obtain ⟨rfl, rfl⟩ := List.cons.inj htokens
          rcases Lexeme.read_afterValue hread with hread' | ⟨hvalue, hkind, hread'⟩
          · rw [hread']
            refine .same (Lexeme.kind_ne_of_read trivial hread) ?_
            change withoutPlaces ((scanFrom (st.pass lexeme) lexeme.rest).map ([_] ++ ·)) = _
            rw [hscan]
            rfl
          · rw [hread']
            refine .sign hvalue hkind fun ks hks => ?_
            cases hnumber : Lexeme.number st.offset ['-'] rest with
            | error e =>
              rw [hnumber] at hks
              cases hks
            | ok lexeme' =>
              rw [hnumber] at hks
              change withoutPlaces ((scanFrom (st.pass lexeme') lexeme'.rest).map ([_] ++ ·)) = _ at hks
              rw [withoutPlaces_map] at hks
              obtain ⟨ks', -, rfl⟩ := map_eq_ok_iff.1 hks
              exact ⟨lexeme'.kind, ks', rfl, Lexeme.kind_of_number hnumber⟩

/-- The kinds of the tokens of a text with a line feed put in between the tokens `s` and `t`. -/
inductive Fed (left : List Token) (s t : Token) (right : List Token) (found : Except TokenError (List TokenKind)) : Prop
  /-- There is a newline already. -/
  | quiet : s.kind = .newline ∨ t.kind = .newline → found = .ok (kinds (left ++ s :: t :: right)) →
      Fed left s t right found
  | newline : s.kind ≠ .newline → t.kind ≠ .newline →
      found = .ok (kinds (left ++ [s]) ++ .newline :: kinds (t :: right)) → Fed left s t right found
  /-- The minus is the sign of a number. -/
  | sign : s.kind.endsValue = true → t.kind = .mark .minus →
      (∀ ks, found = .ok ks → ∃ k ks', ks = kinds (left ++ [s]) ++ .newline :: k :: ks' ∧
        ((∃ n, k = .int n) ∨ ∃ x, k = .float x)) →
      Fed left s t right found

/-- **Between brackets, a line feed between two tokens makes a newline there,** unless there is one, and it changes no
other token but a minus behind a value. -/
theorem scan_lineFeed {before after : String} {left right : List Token} {s t : Token}
    (hscan : scan (before ++ after) = .ok (left ++ s :: t :: right)) (hplace : Parts before.toList after.toList s t)
    (hopen : 0 < openBrackets (left ++ [s])) : Fed left s t right (withoutPlaces (scan (before ++ "\n" ++ after))) := by
  have hleft := hplace.stop_le_of_mem (isStream_of_scan hscan).placed.ordered
  have hsource : left ++ s :: t :: right = left ++ [s] ++ t :: right := by simp
  unfold scan at hscan ⊢
  rw [String.toList_append, hsource] at hscan
  rw [String.toList_append, String.toList_append, List.append_assoc]
  obtain ⟨next, hnext, hafter, hsame⟩ := Scanned.comesTo hplace hopen hleft (.initial _) (List.nil_append _) hscan
  change Fed left s t right (withoutPlaces (scanFrom .initial (before.toList ++ '\n' :: after.toList)))
  rw [hsame, withoutPlaces_map]
  have hdepth : 0 < next.depth := hnext.nested.depth ▸ hopen
  have hprevious : next.previous = some s.kind := by
    rw [hnext.lined.previous, List.getLast?_concat]
    rfl
  by_cases hs : s.kind = .newline
  · -- behind a newline, the line feed makes none
    have hbreak : next.AtBreak := by
      unfold ScanState.AtBreak
      rw [if_neg (Nat.ne_of_gt hdepth), hprevious, hs]
    rw [withoutPlaces_lineFeed hbreak, hafter]
    refine .quiet (.inl hs) ?_
    rw [hsource, kinds_append _ (t :: right)]
    rfl
  · -- the line feed makes a newline, and the text behind it is scanned as one with a newline put in before it
    have hne : next.previous ≠ some .newline := fun h => hs (Option.some.inj (hprevious.symm.trans h))
    have hpass : next.passLineFeed = (true, { next.broken with offset := next.offset + 1 }) := by
      rw [passLineFeed_of_depth hdepth, bne_iff_ne.2 hne]
    have halike : next.passLineFeed.2.Alike next.broken := by
      rw [hpass]
      rfl
    have hfeed : withoutPlaces (scanFrom next ('\n' :: after.toList)) =
        (withoutPlaces (scanFrom next.broken after.toList)).map (.newline :: ·) := by
      rw [scanFrom_of_depth hdepth, scanRest]
      change withoutPlaces ((scanFrom next.passLineFeed.2 after.toList).map (next.newlines ++ ·)) = _
      rw [withoutPlaces_map, withoutPlaces_scanFrom halike, kinds_newlines, hpass]
      rfl
    rw [hfeed]
    cases behind_broken hdepth hne hafter with
    | newline ht hfound =>
      rw [hfound]
      refine .quiet (.inr ht) ?_
      have hkinds : kinds (t :: right) = .newline :: kinds right := congrArg (· :: kinds right) ht
      rw [hsource, kinds_append _ (t :: right), hkinds]
      rfl
    | same ht hfound =>
      rw [hfound]
      exact .newline hs ht rfl
    | sign hvalue ht hfound =>
      have hvalue : s.kind.endsValue = true := by
        rw [ScanState.afterValue, hprevious] at hvalue
        exact hvalue
      refine .sign hvalue ht fun ks hks => ?_
      obtain ⟨ks', hks', rfl⟩ := map_eq_ok_iff.1 hks
      obtain ⟨ks'', hks'', rfl⟩ := map_eq_ok_iff.1 hks'
      obtain ⟨k, more, rfl, hnumber⟩ := hfound ks'' hks''
      exact ⟨k, more, rfl, hnumber⟩

end TypedData
