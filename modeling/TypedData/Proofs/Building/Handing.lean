import TypedData.Building.Text
import TypedData.Proofs.Building.Record

/-!
# Texts that are handed on

Where a declared type is expected, a value that is a text is taken apart.  `Ty.Hands` says which texts are taken
apart when a value is fitted to a type, and `Expr.Hands` which are when the target of a rule is built over captures.
There are only finitely many of them, whatever type is expected of the target (`Expr.exists_texts`).
-/

namespace TypedData

namespace Value

mutual

/-- The texts in a value.  Those in records have been built already. -/
def texts : Value → List String
  | str text => [text]
  | list items => textsOfItems items
  | _ => []

/-- The texts in the items of a list. -/
def textsOfItems : List Value → List String
  | [] => []
  | v :: vs => v.texts ++ textsOfItems vs

end

/-- A text in an item is a text in the list. -/
theorem mem_textsOfItems {text : String} {v : Value} : {vs : List Value} → v ∈ vs → text ∈ v.texts →
    text ∈ textsOfItems vs
  | _ :: _, .head _, h => List.mem_append_left _ h
  | _ :: _, .tail _ hv, h => List.mem_append_right _ (mem_textsOfItems hv h)

end Value

namespace Ty

/-- The arguments of a declared type. -/
def arguments : Ty → List Ty
  | named _ args => args
  | _ => []

/-- Fitting the value to the type takes the text apart, for the declared type that is expected of it. -/
inductive Hands : Ty → Value → String → Ty → Prop
  | text (name : String) (args : List Ty) (text : String) :
      Hands (named name args) (.str text) text (named name args)
  | optional {inner : Ty} {v : Value} {text : String} {t : Ty} :
      Hands inner v text t → Hands (optional inner) v text t
  | item {inner : Ty} {items : List Value} {v : Value} {text : String} {t : Ty} :
      v ∈ items → Hands inner v text t → Hands (list inner) (.list items) text t

/-- What is taken apart is a text in the value. -/
theorem Hands.mem_texts {t t' : Ty} {v : Value} {text : String} (h : t.Hands v text t') : text ∈ v.texts := by
  induction h with
  | text name args text => exact .head _
  | optional _ ih => exact ih
  | item hv _ ih => exact Value.mem_textsOfItems hv ih

end Ty

namespace Expr

/-- Whether the target of a rule is built by a constructor, and not evaluated. -/
def isBuilt (registry : Registry) (captures : Captures) : Expr → Bool
  | call _ callee _ => (registry.constructor? callee).isSome
  | name _ slot => (captures.lookup slot).isNone && (registry.constructor? slot).isSome
  | _ => false

/-- Building the target where a type is expected takes the text apart, for the declared type that is expected
of it. -/
inductive Hands (registry : Registry) (captures : Captures) : Expr → Ty → String → Ty → Prop
  | value {e : Expr} {t : Ty} {v : Operand} {text : String} {t' : Ty} :
      e.isBuilt registry captures = false → e.eval (Rule.environment captures) = .ok v →
      t.Hands v.toValue text t' → Hands registry captures e t text t'
  | argument {span : Span} {callee : String} {args : List (Argument Expr)} {t : Ty} {ctor : Constructor}
      {placed : List (Option Expr)} {e : Expr} {type : Ty} {text : String} {t' : Ty} :
      registry.constructor? callee = some ctor → ctor.place args = .ok placed →
      (type, some e) ∈ (registry.fieldTypes ctor t.peeled.arguments).zip placed →
      Hands registry captures e type text t' → Hands registry captures (.call span callee args) t text t'

variable {registry : Registry} {captures : Captures}

/-- What fills a field is one of the arguments. -/
theorem mem_of_place {ctor : Constructor} {args : List (Argument Expr)} {placed : List (Option Expr)}
    (hplaced : ctor.place args = .ok placed) {e : Expr} (he : some e ∈ placed) :
    ∃ arg ∈ args, arg.value = e :=
  (Constructor.place_ok (P := fun e => ∃ arg ∈ args, arg.value = e) (fun arg harg => ⟨arg, harg, rfl⟩)
    hplaced).1 e he

/-- An expression over captures hands on only finitely many texts, whatever the types are. -/
theorem exists_texts_of_value (captures : Captures) (e : Expr) :
    ∃ texts : List String, ∀ t v text t', e.eval (Rule.environment captures) = .ok v →
      Ty.Hands t v.toValue text t' → text ∈ texts := by
  cases heval : e.eval (Rule.environment captures) with
  | error fault => exact ⟨[], by rintro _ _ _ _ ⟨⟩⟩
  | ok v =>
    refine ⟨v.toValue.texts, fun t w text t' hw h => ?_⟩
    obtain rfl := Except.ok.inj hw
    exact h.mem_texts

mutual

/-- There are finitely many texts that are taken apart when a target is built, whatever type is expected. -/
theorem exists_texts (registry : Registry) (captures : Captures) : (e : Expr) →
    ∃ texts : List String, ∀ t text t', e.Hands registry captures t text t' → text ∈ texts
  | call span callee args => by
    obtain ⟨texts, hvalue⟩ := exists_texts_of_value captures (call span callee args)
    obtain ⟨more, hmore⟩ := exists_texts_of_arguments registry captures args
    refine ⟨texts ++ more, fun t text t' h => ?_⟩
    cases h with
    | value _ heval h => exact List.mem_append_left _ (hvalue t _ text t' heval h)
    | argument hctor hplaced hmem h =>
      obtain ⟨arg, harg, rfl⟩ := mem_of_place hplaced (List.of_mem_zip hmem).2
      exact List.mem_append_right _ (hmore arg harg _ text t' h)
  | int _ _ | float _ _ | str _ _ | bool _ _ | null _ | list _ _ | name _ _ | field _ _ _ | unary _ _ _
  | binary _ _ _ _ => by
    obtain ⟨texts, hvalue⟩ := exists_texts_of_value captures _
    refine ⟨texts, fun t text t' h => ?_⟩
    cases h with
    | value _ heval h => exact hvalue t _ text t' heval h

/-- The arguments of a target hand on only finitely many texts, whatever the types are. -/
theorem exists_texts_of_arguments (registry : Registry) (captures : Captures) :
    (args : List (Argument Expr)) → ∃ texts : List String, ∀ arg ∈ args, ∀ t text t',
      arg.value.Hands registry captures t text t' → text ∈ texts
  | [] => ⟨[], List.forall_mem_nil _⟩
  | ⟨_, e⟩ :: args => by
    obtain ⟨texts, htexts⟩ := exists_texts registry captures e
    obtain ⟨more, hmore⟩ := exists_texts_of_arguments registry captures args
    refine ⟨texts ++ more, List.forall_mem_cons.2 ⟨fun t text t' h => ?_, fun arg harg t text t' h => ?_⟩⟩
    · exact List.mem_append_left _ (htexts t text t' h)
    · exact List.mem_append_right _ (hmore arg harg t text t' h)

end

end Expr

end TypedData
