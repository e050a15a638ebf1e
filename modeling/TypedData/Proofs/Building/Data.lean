import TypedData.Building.Data
import TypedData.Proofs.Building.Text

/-!
# Building from data is sound

References are the only data that give references.  One to a finished binding leads to a value of the
type that is expected; one to a binding in progress is whole, is not itself the value of a binding, and
leaves the type of that binding to be checked.
-/

namespace TypedData

namespace Scene

variable {scene : Scene} {p q : Progress} {force : Nat → Build Unit} {t : Ty}

/-- The step may finish further bindings. -/
def Forces (scene : Scene) (force : Nat → Build Unit) : Prop :=
  ∀ b p, scene.Ensures p (force b) fun _ _ => True

/-! ## References -/

/-- A finished binding that may be used leads to a value of the type that is expected. -/
theorem ensures_useFinished {value : Value} {name : String} {path : List String} {span : Span} :
    scene.Ensures p (scene.useFinished value name path span t) fun _ q =>
      ∃ target, value.follow q.value? scene.hops path = .ok target ∧ t.conforms target = true := by
  refine .get_bind ?_
  split
  · rename_i target htarget
    split
    · rename_i hconforms
      exact .pure ⟨target, htarget, hconforms⟩
    · exact .throw
  · exact .throw
  · exact .throw

/-- A binding that may be used before it is finished is used as a whole, and its type is checked at the end. -/
theorem ensures_useUnfinished {binding : Nat} {name : String} {path : List String} {span : Span}
    {whole : Bool} :
    scene.Ensures p (useUnfinished binding name path span t whole) fun _ q =>
      whole = false ∧ path = [] ∧
        (t.isOpen = true ∨ ∃ span, ⟨binding, t, span⟩ ∈ q.checks) := by
  unfold useUnfinished
  dsimp only
  split
  · exact .throw
  · rename_i h
    rw [Bool.or_eq_true, Bool.or_eq_true, not_or, not_or] at h
    obtain ⟨⟨hwhole, -⟩, hpath⟩ := h
    have hpath : path = [] := by
      cases path with
      | nil => rfl
      | cons name path => exact absurd rfl hpath
    have hwhole := Bool.eq_false_iff.2 hwhole
    split
    · rename_i hopen
      exact .pure ⟨hwhole, hpath, .inl hopen⟩
    · exact (Ensures.deferCheck _).imp fun _ _ _ hmem => ⟨hwhole, hpath, .inr ⟨span, hmem⟩⟩

/-- What a reference has found at a finished binding it leads to. -/
theorem leads_of_follow {r : Reference} {base target : Value}
    (hbase : p.value? r.binding = some base)
    (htarget : base.follow p.value? scene.hops r.path = .ok target) : Value.Leads p.value? r :=
  ⟨target, .hop hbase (.of_follow htarget) (.done (Value.isReference_of_follow htarget))⟩

/-- A reference with a path leads somewhere already. -/
theorem Reaches.leads {r : Reference} (h : scene.Reaches p t r) (hpath : r.path ≠ []) :
    Value.Leads p.value? r := by
  rcases h with ⟨base, target, hbase, htarget, -⟩ | ⟨hnil, -⟩
  · exact leads_of_follow hbase htarget
  · exact absurd hnil hpath

/-- **Building a reference is sound.**  As the whole value of a binding it leads somewhere already. -/
theorem ensures_buildReference (hforce : scene.Forces force) {name : String} {path : List String}
    {span : Span} {whole : Bool} :
    scene.Ensures p (scene.buildReference force name path span t whole) fun v q =>
      scene.Built q t.peeled v ∧ ∀ r, v = .ref r → whole = true → Value.Leads q.value? r := by
  unfold buildReference
  split
  · exact .throw
  · rename_i binding hbinding
    refine (hforce binding p).bind fun _ p₁ _ _ => .get_bind ?_
    dsimp only
    split
    · refine ensures_useUnfinished.bind fun _ q _ huse => .pure ?_
      obtain ⟨hwhole, hpath, hcheck⟩ := huse
      refine ⟨.handle hbinding (.inr ⟨hpath, hcheck⟩), fun r _ h => ?_⟩
      cases hwhole.symm.trans h
    · rename_i base hbase
      refine ensures_useFinished.bind fun _ q hq huse => .pure ?_
      obtain ⟨target, htarget, hconforms⟩ := huse
      have hbase : q.value? binding = some base :=
        hq.grows.keeps _ _ (Progress.value?_eq_some_iff.2 hbase)
      refine ⟨.handle hbinding (.inl ⟨base, target, hbase, htarget, hconforms⟩), fun r hr _ => ?_⟩
      obtain rfl := Value.ref.inj hr
      exact leads_of_follow hbase htarget
    · exact .throw_bind

/-! ## Lists and records -/

/-- A list of built items is built. -/
theorem builds_buildList {items : Ty → Build (List Value)} {span : Span}
    (hitems : ∀ t p, scene.Ensures p (items t) fun vs q => ∀ v ∈ vs, scene.Built q t v) :
    scene.Builds t (buildList items t span) := by
  intro p
  unfold buildList
  split
  · rename_i item hitem
    exact (hitems item p).bind fun vs q _ hvs => .pure ⟨.list hitem hvs, rfl⟩
  · exact .throw

/-- A record whose constructor is not determined is a failure, so nothing is built. -/
theorem builds_ambiguousRecord {typeName : String} {span : Span} :
    scene.Builds t (scene.ambiguousRecord typeName span) := .failure

/-- Every field has a name of its own, which is none of those seen before. -/
def Unseen (seen : List String) (fields : List (Field Value)) : Prop :=
  ∃ keys : List String, keys.Nodup ∧ (∀ key ∈ keys, key ∉ seen) ∧ fields.map Field.name = keys.map some

namespace Unseen

variable {seen : List String} {fields : List (Field Value)}

/-- No key is seen in no fields. -/
theorem nil (seen : List String) : Unseen seen [] := ⟨[], List.nodup_nil, List.forall_mem_nil _, rfl⟩

/-- A field with a new key in front keeps the keys apart. -/
theorem cons {key : String} (hkey : key ∉ seen) (v : Value) (h : Unseen (key :: seen) fields) :
    Unseen seen (⟨some key, v⟩ :: fields) := by
  obtain ⟨keys, hnodup, hseen, hnames⟩ := h
  refine ⟨key :: keys, List.nodup_cons.2 ⟨fun hmem => ?_, hnodup⟩, List.forall_mem_cons.2 ⟨hkey, ?_⟩, ?_⟩
  · exact hseen key hmem List.mem_cons_self
  · exact fun other hother hmem => hseen other hother (List.mem_cons_of_mem _ hmem)
  · rw [List.map_cons, List.map_cons, hnames]

/-- The first of keyed fields has a new key, and so have those after it. -/
theorem of_cons {f : Field Value} (h : Unseen seen (f :: fields)) :
    ∃ key, f.name = some key ∧ key ∉ seen ∧ Unseen (key :: seen) fields := by
  obtain ⟨keys, hnodup, hseen, hnames⟩ := h
  cases keys with
  | nil => cases hnames
  | cons key keys =>
    obtain ⟨hkey, hnodup⟩ := List.nodup_cons.1 hnodup
    obtain ⟨hfirst, hseen⟩ := List.forall_mem_cons.1 hseen
    obtain ⟨hname, hnames⟩ := List.cons.inj hnames
    refine ⟨key, hname, hfirst, keys, hnodup, fun other hother => ?_, hnames⟩
    exact List.not_mem_cons_of_ne_of_not_mem (fun h => hkey (h ▸ hother)) (hseen other hother)

/-- Fields with keys that are not seen before are keyed. -/
theorem keyed (h : Unseen seen fields) : Field.Keyed fields := by
  obtain ⟨keys, hnodup, -, hnames⟩ := h
  exact ⟨keys, hnodup, hnames⟩

/-- Keyed fields are keyed from the beginning, where nothing is seen. -/
theorem of_keyed (h : Field.Keyed fields) : Unseen [] fields := by
  obtain ⟨keys, hnodup, hnames⟩ := h
  exact ⟨keys, hnodup, fun _ _ => List.not_mem_nil, hnames⟩

end Unseen

/-- A record is built, if the arguments of the constructor that it may be built by, and its own fields, are. -/
theorem builds_buildRecord {args : List BuildArgument}
    {tagged : Option (String × List BuildArgument)} {fields : Build (List (Field Value))}
    {span : Span} (hargs : ∀ arg ∈ args, scene.Fits arg.value)
    (htagged : ∀ key inner, tagged = some (key, inner) → ∀ arg ∈ inner, scene.Fits arg.value)
    (hfields : ∀ p, scene.Ensures p fields fun fields q =>
      Field.Keyed fields ∧ ∀ f ∈ fields, scene.Built q .any f.value) :
    scene.Builds t (scene.buildRecord args tagged fields t span) := by
  have huntyped : t.isOpen = true →
      scene.Builds t (do return .record none none (← fields)) :=
    fun ht p => (hfields p).bind fun _ _ _ h => .pure ⟨.fields ht h.1 h.2, rfl⟩
  unfold buildRecord
  split
  · split
    · exact builds_construct hargs
    · split
      · split
        · exact builds_construct (htagged _ _ rfl)
        · exact builds_ambiguousRecord
      · exact builds_ambiguousRecord
  · exact huntyped rfl
  · exact huntyped rfl
  · exact .failure

/-! ## Data -/

/-- What is ensured about the values of all data: only a reference may give a reference. -/
def BuildsData (scene : Scene) (t : Ty) (d : Data) (m : Build Value) : Prop :=
  ∀ p, scene.Ensures p m fun v q => scene.Built q t v ∧
    (v.isReference = true → ∃ span name path, d = .reference span name path)

/-- A value that is built is built from the data. -/
theorem Builds.data {d : Data} {m : Build Value} (h : scene.Builds t m) :
    scene.BuildsData t d m := by
  intro p
  refine (h p).imp ?_
  rintro v q - ⟨hv, hnone⟩
  refine ⟨hv, fun href => ?_⟩
  cases hnone.symm.trans href

/-- What builds from data whatever the type is, builds an argument. -/
theorem BuildsData.fits {d : Data} {build : Ty → Build Value}
    (h : ∀ t, scene.BuildsData t d (build t)) : scene.Fits build :=
  fun t p => (h t p).imp fun _ _ _ hv => hv.1

mutual

/-- **Building data is sound.** -/
theorem buildsData (hforce : scene.Forces force) :
    (d : Data) → (t : Ty) → scene.BuildsData t d (buildData scene force d t)
  | .null span, t => by
    rw [buildData]
    split
    · rename_i h
      exact (Builds.done (fun _ => .null (Bool.or_eq_true _ _ ▸ h)) rfl).data
    · exact Builds.failure.data
  | .bool span b, t =>
    (builds_coerce builds_fitText span t.required (.bool b)).of_required.data
  | .int span n, t =>
    (builds_coerce builds_fitText span t.required (.int n)).of_required.data
  | .float span x, t =>
    (builds_coerce builds_fitText span t.required (.float x)).of_required.data
  | .str span text, t => (builds_fitText text t span).data
  | .list span items, t | .dashList span items, t =>
    (builds_buildList fun item p => ensures_buildItems hforce items item p).of_required.data
  | .call span ctor args, t => (builds_construct (fits_dataArguments hforce args)).of_required.data
  | .ctorBlock span ctor entries, t =>
    (builds_construct (fits_entryArguments hforce entries)).of_required.data
  | .listBlock span ctor items, t => by
    rw [buildData]
    refine (builds_construct ?_).of_required.data
    refine List.forall_mem_singleton.2 fun item p => ?_
    exact ((builds_buildList fun item p => ensures_buildItems hforce items item p).of_required p).imp
      fun _ _ _ hv => hv.1
  | .record span entries, t | .fieldBlock span entries, t | .dashRecord span entries, t =>
    (builds_buildRecord (fits_entryArguments hforce entries) (fits_taggedArguments hforce entries)
      fun p => (ensures_untypedFields hforce [] entries p).imp fun _ _ _ h => ⟨h.1.keyed, h.2⟩).of_required.data
  | .reference span name path, t => by
    intro p
    rw [buildData]
    refine (ensures_buildReference hforce).imp ?_
    rintro v q - ⟨hv, -⟩
    exact ⟨hv.of_peeled.of_required, fun _ => ⟨span, name, path, rfl⟩⟩

/-- All items of a list are built. -/
theorem ensures_buildItems (hforce : scene.Forces force) : (items : List Data) → (t : Ty) →
    (p : Progress) → scene.Ensures p (buildItems scene force items t) fun vs q =>
      ∀ v ∈ vs, scene.Built q t v
  | [], t, p => .pure (List.forall_mem_nil _)
  | d :: ds, t, p => by
    rw [buildItems]
    refine (buildsData hforce d t p).bind fun v q _ hv => ?_
    refine (ensures_buildItems hforce ds t q).bind fun vs r hqr hvs => .pure ?_
    exact List.forall_mem_cons.2 ⟨hv.1.mono hqr.grows, hvs⟩

/-- The arguments of a constructor are built. -/
theorem fits_dataArguments (hforce : scene.Forces force) : (args : List (Argument Data)) →
    ∀ arg ∈ dataArguments scene force args, scene.Fits arg.value
  | [] => List.forall_mem_nil _
  | ⟨name, d⟩ :: args => by
    rw [dataArguments]
    exact List.forall_mem_cons.2
      ⟨BuildsData.fits (buildsData hforce d), fits_dataArguments hforce args⟩

/-- The entries of a record, read as arguments, are built. -/
theorem fits_entryArguments (hforce : scene.Forces force) : (entries : List (Entry Data)) →
    ∀ arg ∈ entryArguments scene force entries, scene.Fits arg.value
  | [] => List.forall_mem_nil _
  | ⟨key, _, d⟩ :: entries => by
    rw [entryArguments]
    exact List.forall_mem_cons.2
      ⟨BuildsData.fits (buildsData hforce d), fits_entryArguments hforce entries⟩

/-- The entries of a tagged record, read as arguments, are built. -/
theorem fits_taggedArguments (hforce : scene.Forces force) : (entries : List (Entry Data)) →
    ∀ key inner, taggedArguments scene force entries = some (key, inner) →
      ∀ arg ∈ inner, scene.Fits arg.value
  | [⟨_, _, d⟩], key, inner, h => by
    rw [taggedArguments] at h
    obtain ⟨args, hargs, hinner⟩ := Option.map_eq_some_iff.1 h
    obtain ⟨-, rfl⟩ := Prod.mk.inj hinner
    exact fits_recordArguments hforce d args hargs
  | [], _, _, h | _ :: _ :: _, _, _, h => by
    rw [taggedArguments] at h
    · cases h
    · nofun

/-- The entries of a record inside another one, read as arguments, are built. -/
theorem fits_recordArguments (hforce : scene.Forces force) : (d : Data) →
    ∀ args, recordArguments scene force d = some args → ∀ arg ∈ args, scene.Fits arg.value
  | .record _ entries, _, h | .fieldBlock _ entries, _, h | .dashRecord _ entries, _, h => by
    obtain rfl := Option.some.inj h
    exact fits_entryArguments hforce entries
  | .str .., _, h | .int .., _, h | .float .., _, h | .bool .., _, h | .null .., _, h
  | .list .., _, h | .call .., _, h | .reference .., _, h | .ctorBlock .., _, h
  | .listBlock .., _, h | .dashList .., _, h => by
    simp only [recordArguments] at h
    cases h

/-- The fields of a record without a type are built, and have distinct keys. -/
theorem ensures_untypedFields (hforce : scene.Forces force) (seen : List String) :
    (entries : List (Entry Data)) → (p : Progress) →
      scene.Ensures p (untypedFields scene force seen entries) fun fields q =>
        Unseen seen fields ∧ ∀ f ∈ fields, scene.Built q .any f.value
  | [], p => .pure ⟨.nil seen, List.forall_mem_nil _⟩
  | ⟨key, span, d⟩ :: entries, p => by
    rw [untypedFields]
    dsimp only
    split
    · exact .throw_bind
    · rename_i hkey
      refine (buildsData hforce d .any p).bind fun v q _ hv => ?_
      refine (ensures_untypedFields hforce (key :: seen) entries q).bind fun fields r hqr hfields => .pure ?_
      have hkey : key ∉ seen := fun hmem => hkey (List.contains_iff_mem.2 hmem)
      exact ⟨hfields.1.cons hkey v, List.forall_mem_cons.2 ⟨hv.1.mono hqr.grows, hfields.2⟩⟩

end

end Scene

end TypedData
