import TypedData.Proofs.Loaded.Locality
import TypedData.Proofs.Reading.Making
import TypedData.Proofs.Relocation.Run
import TypedData.Proofs.Relocation.Settled

/-!
# Failures point into the text

A failure of any stage marks places of the text that was loaded: each starts and ends between two characters, or
at an end of the text (`Loaded.load_points_into`).

For scanning and parsing this is said where tokens and trees are made.  The later stages see no text.  But they
treat a document that stands at other places in the same way (`Loaded.ofDocument_relocate`), and a document that
was read stands still when the places outside its text are moved.  So its failure stands still as well, which a
place outside the text could not.
-/

namespace TypedData

/-! ## Places of a text -/

/-- The span starts and ends between two characters of the text, or at its ends. -/
structure Span.Within (source : String) (span : Span) : Prop where
  start : String.Pos.Raw.IsValid source ⟨span.start⟩
  stop : String.Pos.Raw.IsValid source ⟨span.start + span.length⟩
  le : span.start + span.length ≤ source.utf8ByteSize

/-- Tokens of any kind, at the places of a text. -/
def Material.inText (source : String) : Material where
  kind _ := True
  place n := ∃ taken, taken <+: source.toList ∧ utf8Length taken = n
  eof := trivial
  origin := ⟨[], List.nil_prefix, rfl⟩

/-- The places of a text are the offsets that are valid in it. -/
theorem isValid_of_place {source : String} {n : Nat} (h : (Material.inText source).place n) :
    String.Pos.Raw.IsValid source ⟨n⟩ :=
  isValid_iff_exists_prefix.2 h

/-- A span that covers a part of the text lies within it. -/
theorem Span.within_of_covers {source : String} {span : Span} (h : (Material.inText source).Covers span) :
    span.Within source := by
  have hstop : String.Pos.Raw.IsValid source ⟨span.start + span.length⟩ := by
    rcases Nat.le_total span.start span.stop with hle | hle
    · rw [length, Nat.add_sub_cancel' hle]
      exact isValid_of_place h.stop
    · rw [length, Nat.sub_eq_zero_of_le hle]
      exact isValid_of_place h.start
  exact ⟨isValid_of_place h.start, hstop, hstop.le_utf8ByteSize⟩

/-- The tokens of a text cover parts of it. -/
theorem lexical_inText (source : String) : Lexical (.inText source) :=
  ⟨trivial, trivial, trivial, fun _ _ _ _ => .trivial _⟩

/-- Reading a text starts at its beginning. -/
theorem reaches_inText (source : String) : (Material.inText source).Reaches 0 source.toList :=
  fun taken htaken => ⟨taken, htaken, (Nat.zero_add _).symm⟩

/-! ## Moving what is outside -/

/-- Moves to the beginning what the material does not cover. -/
noncomputable def Material.settle (M : Material) (span : Span) : Span :=
  open Classical in if M.Covers span then span else .zero

/-- A span that is moved to where it is covered is covered. -/
theorem Material.covers_settle (M : Material) (span : Span) : M.Covers (M.settle span) := by
  unfold settle
  split
  · assumption
  · exact .zero

/-- A span that is covered stays where it is. -/
theorem Material.fixed_settle (M : Material) : M.Fixed M.settle := fun _ h => if_pos h

/-! ## Marked places -/

/-- All places that a failure marks when it is shown. -/
def Failure.spans (e : Failure) : List Span := e.diagnostic.span :: e.diagnostic.labels.map Prod.snd

/-- The spans of a failure at other places are its spans, moved. -/
theorem Failure.spans_relocate (f : Span → Span) (e : Failure) : (e.relocate f).spans = e.spans.map f := by
  cases e with
  | token e => cases e <;> rfl
  | parse e => cases e <;> rfl
  | reference e => cases e <;> rfl
  | type | constraint | evaluation | endless => rfl

/-- What fails in the same way when places are moved marks the places that it is moved to. -/
theorem Failure.covers_of_relocate_eq {M : Material} {e : Failure} (h : e.relocate M.settle = e) {span : Span}
    (hspan : span ∈ e.spans) : M.Covers span := by
  rw [← h, spans_relocate] at hspan
  obtain ⟨span', -, rfl⟩ := List.mem_map.1 hspan
  exact M.covers_settle span'

/-- A failure of scanning or parsing marks one place. -/
theorem Failure.spans_eq {e : Failure} {span : Span} (h : (∃ e', e = .token e' ∧ e'.span = span) ∨
    ∃ e', e = .parse e' ∧ e'.span = span) : ∀ s ∈ e.spans, s = span := by
  rcases h with ⟨e', rfl, rfl⟩ | ⟨e', rfl, rfl⟩
  · cases e' <;> simp [spans, diagnostic, TokenError.diagnostic, TokenError.span, Diagnostic.single]
  · cases e' <;> simp [spans, diagnostic, ParseError.diagnostic, ParseError.span, Diagnostic.single]

namespace Loaded

/-- A document made of a material fails at places of the material. -/
theorem covers_of_ofDocument {M : Material} {d : Document} (hd : d.Made M) {e : Failure}
    (h : ofDocument d = .error e) {span : Span} (hspan : span ∈ e.spans) : M.Covers span := by
  have hmoved := ofDocument_relocate M.settle d
  rw [hd.relocate_eq M.fixed_settle, h] at hmoved
  exact Failure.covers_of_relocate_eq (Except.error.inj hmoved).symm hspan

/-- **Failures point into the text.**  The place that a failure of any stage is reported at, and every place that
it marks, lie in the text and start and end between characters; so does the condition that a record violates. -/
theorem load_points_into {source : String} {e : Failure} (h : load source = .error e) :
    e.diagnostic.span.Within source ∧ (∀ label ∈ e.diagnostic.labels, label.2.Within source) ∧
      ∀ v, e = .constraint v → v.span.Within source ∧ v.conditionSpan.Within source := by
  have hcovers : ∀ span ∈ e.spans, (Material.inText source).Covers span := by
    have hread := Document.ends_read (lexical_inText source) (reaches_inText source)
    unfold load at h
    cases hd : Document.read source with
    | error e' =>
      rw [hd] at h hread
      obtain rfl := Except.error.inj h
      intro span hspan
      rcases hread with ⟨e', he, hcovers⟩ | ⟨e', he, hcovers⟩
      · exact Failure.spans_eq (.inl ⟨e', he, rfl⟩) span hspan ▸ hcovers
      · exact Failure.spans_eq (.inr ⟨e', he, rfl⟩) span hspan ▸ hcovers
    | ok d =>
      have h := (load_of_read hd).symm.trans h
      rw [hd] at hread
      cases hof : ofDocument d with
      | ok loaded => rw [hof] at h; cases h
      | error e' =>
        rw [hof] at h
        obtain rfl := Except.error.inj h
        exact fun span => covers_of_ofDocument hread hof
  have hwithin : ∀ span ∈ e.spans, span.Within source := fun span hspan =>
    Span.within_of_covers (hcovers span hspan)
  refine ⟨hwithin _ (.head _), fun label hlabel => ?_, ?_⟩
  · exact hwithin _ (.tail _ (List.mem_map.2 ⟨label, hlabel, rfl⟩))
  · rintro v rfl
    exact ⟨hwithin _ (.head _), hwithin _ (.tail _ (.tail _ (.head _)))⟩

/-- A record that violates a condition, after a text with a character of two bytes. -/
def violating : String := "type t = t \x7bx: str, y: int\x7d where y > 0\na := t(\"é\", 0)\n"

/-- Whether loading has failed because a record violates a condition, at these places. -/
def isViolationAt (span conditionSpan : Span) : Except Failure Loaded → Bool
  | .error (.constraint v) => v.span = span && v.conditionSpan = conditionSpan
  | _ => false

/-- A record with a condition that it does not meet: both spans lie where they should. -/
theorem load_points_into_violating : ∃ v, load violating = .error (.constraint v) ∧
    v.span = ⟨45, 55⟩ ∧ v.span.Within violating ∧ v.conditionSpan = ⟨34, 39⟩ ∧ v.conditionSpan.Within violating := by
  have htest : isViolationAt ⟨45, 55⟩ ⟨34, 39⟩ (load violating) = true := by decide +kernel
  generalize h : load violating = result at htest
  unfold isViolationAt at htest
  split at htest
  · rename_i v
    obtain ⟨hspan, hcondition⟩ := Bool.and_eq_true_iff.1 htest
    obtain ⟨hwithin, hconditionWithin⟩ := (load_points_into h).2.2 v rfl
    exact ⟨v, rfl, of_decide_eq_true hspan, hwithin, of_decide_eq_true hcondition, hconditionWithin⟩
  · cases htest

end Loaded

end TypedData
