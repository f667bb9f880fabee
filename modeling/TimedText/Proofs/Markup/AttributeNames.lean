import Mathlib.Data.List.Nodup
import TimedText.Proofs.Markup.Grammar
import TimedText.Proofs.Markup.QualifiedName
/-!
The names of the attributes of an element. A start tag is rejected where a key comes twice,
but not where two prefixes stand for one namespace; its element then has two attributes of
one name, of which only the first is seen.
-/

namespace TimedText

/-! ## Attributes of one name -/

namespace Element

section

variable {pairs : List (String × String)} {name value other : String}

private theorem setPair_of_absent (absent : name ∉ pairs.map Prod.fst) :
    setPair name value pairs = pairs ++ [(name, value)] := by
  induction pairs with
  | nil => rfl
  | cons pair rest induction =>
      rcases List.ne_and_not_mem_of_not_mem_cons absent with ⟨differs, absent⟩
      rw [setPair, if_neg (by simpa using differs.symm), induction absent]
      rfl

private theorem mem_setPair_iff (apart : (pairs.map Prod.fst).Nodup) :
    (name, other) ∈ setPair name value pairs ↔ other = value := by
  induction pairs with
  | nil => simp [setPair]
  | cons pair rest induction =>
      rcases pair with ⟨own, held⟩
      rcases List.nodup_cons.mp apart with ⟨fresh, apart⟩
      rw [setPair]
      by_cases same : own = name
      · subst same
        have absent : (own, other) ∉ rest := fun member =>
          fresh (List.mem_map.mpr ⟨_, member, rfl⟩)
        simp [absent]
      · simp [same, Ne.symm same, induction apart]

private theorem nodup_of_setPair
    (changes : ∀ name value other, (name, other) ∈ setPair name value pairs ↔ other = value) :
    (pairs.map Prod.fst).Nodup := by
  induction pairs with
  | nil => exact List.nodup_nil
  | cons pair rest induction =>
      rcases pair with ⟨own, held⟩
      have fresh : own ∉ rest.map Prod.fst := by
        intro member
        rcases List.mem_map.mp member with ⟨⟨own, second⟩, listed, rfl⟩
        have kept : (own, second) ∈ setPair own (second ++ "x") ((own, held) :: rest) := by
          rw [setPair, if_pos (by simp)]
          exact List.mem_cons_of_mem _ listed
        have length := congrArg String.length ((changes _ _ _).mp kept)
        simp [String.length_append] at length
      refine List.nodup_cons.mpr ⟨fresh, induction fun name value other => ?_⟩
      by_cases same : own = name
      · subst same
        have absent : (own, other) ∉ rest := fun member =>
          fresh (List.mem_map.mpr ⟨_, member, rfl⟩)
        simp [setPair_of_absent fresh, absent]
      · have whole := changes name value other
        rw [setPair, if_neg (by simpa using same)] at whole
        simpa [Ne.symm same] using whole

private theorem find?_eq_some_iff_of_nodup (apart : (pairs.map Prod.fst).Nodup) :
    (pairs.find? fun pair => pair.1 == name).map Prod.snd = some value
      ↔ (name, value) ∈ pairs := by
  induction pairs with
  | nil => simp
  | cons pair rest induction =>
      rcases pair with ⟨own, held⟩
      rcases List.nodup_cons.mp apart with ⟨fresh, apart⟩
      by_cases same : own = name
      · subst same
        have absent : (own, value) ∉ rest := fun member =>
          fresh (List.mem_map.mpr ⟨_, member, rfl⟩)
        simp [absent, eq_comm]
      · rw [List.find?_cons_of_neg (by simpa using same), induction apart]
        simp [Ne.symm same]

end

/-- What is found and what is changed under a name is the one attribute of that name. -/
structure HasApartAttributes (element : Element) : Prop where
  found : ∀ name value,
    element.attribute? name = some value ↔ (name, value) ∈ element.attributes
  changed : ∀ name value other,
    (name, other) ∈ (element.setAttribute name value).attributes ↔ other = value

private theorem nodup_attributeNames_iff (element : Element) :
    element.attributeNames.Nodup ↔ element.HasApartAttributes :=
  ⟨fun apart =>
      ⟨fun _ _ => find?_eq_some_iff_of_nodup apart, fun _ _ _ => mem_setPair_iff apart⟩,
    fun apart => nodup_of_setPair apart.changed⟩

end Element

namespace Markup

/-! ## Start tags -/

def OpenedAttribute.before? (opened : OpenedAttribute) : Option String :=
  (prefixAndPart? opened.key).map Prod.fst

namespace Opening

/-- Two attributes of one name. Their keys differ, as those of all attributes do. -/
def Repeats (opening : Opening) : Prop :=
  ∃ first ∈ opening.attributes, ∃ second ∈ opening.attributes,
    first.key ≠ second.key ∧ first.name.qualified = second.name.qualified

private theorem opened_eq_ok {scope : Scope} {pair : List Char × String} {opened : OpenedAttribute}
    (opens : scope.opened pair = .ok opened) :
    opened.key = pair.1 ∧ scope.expandAttribute opened.key = .ok opened.name := by
  rcases exists_of_bind opens with ⟨name, expands, same⟩
  cases same
  exact ⟨rfl, expands⟩

variable {outer : Scope} {tag : List Char} {opening : Opening}

private structure IsKeyed (opening : Opening) : Prop where
  keys : (opening.attributes.map OpenedAttribute.key).Nodup
  names : ∀ opened ∈ opening.attributes,
    opening.scope.expandAttribute opened.key = .ok opened.name

private theorem isKeyed_of_read (opens : read outer tag = .ok opening) : opening.IsKeyed := by
  rcases exists_of_bind opens with ⟨start, reads, opens⟩
  rcases exists_of_bind opens with ⟨name, named, opens⟩
  rcases exists_of_bind opens with ⟨attributes, each, same⟩
  cases same
  have each := (mapM_eq_ok_iff.mp each).imp fun pair opened => opened_eq_ok
  have keys : start.plainAttributes.map Prod.fst = attributes.map OpenedAttribute.key :=
    map_eq_of_forall₂ (each.imp fun _ _ own => own.1.symm)
  refine ⟨?_, ?_⟩
  · have sound := (StartTag.read_eq_ok_iff.mp reads).1
    have distinct := (spells_tag sound).2
    rw [← StartTag.keys_of_read reads] at distinct
    rw [← keys]
    exact (List.filter_sublist.map Prod.fst).nodup distinct
  · have paired := each.flip.imp fun opened _ own => And.intro own.2 trivial
    exact ((List.forall₂_and_left _ _).mp paired).1

private theorem nodup_pairs_iff (keyed : opening.IsKeyed) :
    (opening.pairs.map Prod.fst).Nodup ↔ ¬ opening.Repeats := by
  have names : opening.pairs.map Prod.fst
      = opening.attributes.map fun opened => opened.name.qualified := by
    rw [pairs, List.map_map]
    rfl
  have apart : opening.attributes.Nodup := keyed.keys.of_map
  have keyed := (List.nodup_map_iff_inj_on apart).mp keyed.keys
  rw [names, List.nodup_map_iff_inj_on apart]
  constructor
  · rintro injective ⟨first, firstMember, second, secondMember, differ, same⟩
    exact differ (congrArg _ (injective first firstMember second secondMember same))
  · intro single first firstMember second secondMember same
    by_contra differ
    refine single ⟨first, firstMember, second, secondMember, fun alike => ?_, same⟩
    exact differ (keyed first firstMember second secondMember alike)

private theorem key_of_expands {scope : Scope} {opened : OpenedAttribute}
    (expands : scope.expandAttribute opened.key = .ok opened.name) :
    opened.key = opened.before?.elim opened.name.part.toList
      fun before => before.toList ++ ':' :: opened.name.part.toList := by
  rw [Scope.expandAttribute] at expands
  rw [OpenedAttribute.before?]
  cases parts : prefixAndPart? opened.key with
  | none =>
      rw [parts] at expands
      rw [← Except.ok.inj expands]
      exact String.toList_ofList.symm
  | some pair =>
      rw [parts] at expands
      have part : opened.name.part = pair.2 := by
        dsimp only [Scope.expand] at expands
        split at expands
        · rw [← Except.ok.inj expands]
        · split at expands
          · rw [← Except.ok.inj expands]
          · cases expands
      rw [part]
      exact (prefixAndPart?_eq_some_iff.mp parts).2

/-- Clear names are only alike where two prefixes stand for one namespace. -/
private theorem repeats_iff (keyed : opening.IsKeyed)
    (clear : ∀ opened ∈ opening.attributes, opened.name.IsClear) :
    opening.Repeats ↔ ∃ first ∈ opening.attributes, ∃ second ∈ opening.attributes,
      first.before? ≠ second.before? ∧ first.name = second.name := by
  constructor
  · rintro ⟨first, firstMember, second, secondMember, differ, same⟩
    have alike := ExpandedName.eq_of_qualified_eq (clear first firstMember)
      (clear second secondMember) same
    refine ⟨first, firstMember, second, secondMember, fun prefixes => differ ?_, alike⟩
    rw [key_of_expands (keyed.names first firstMember),
      key_of_expands (keyed.names second secondMember), prefixes, alike]
  · rintro ⟨first, firstMember, second, secondMember, differ, alike⟩
    refine ⟨first, firstMember, second, secondMember, fun same => differ ?_, by rw [alike]⟩
    rw [OpenedAttribute.before?, same, OpenedAttribute.before?]

end Opening

/-! ## Attributes of documents -/

private theorem exists_read_of_mem {scopes : List Scope} {events : List Event} {opening : Opening}
    (member : opening ∈ openingsFrom scopes events) :
    ∃ outer tag, Opening.read outer tag = .ok opening := by
  fun_induction openingsFrom scopes events with
  | case1 => cases member
  | case2 scopes tag rest own opens induction =>
      rcases List.mem_cons.mp member with rfl | member
      · exact ⟨_, tag, opens⟩
      · exact induction member
  | case3 => cases member
  | case4 scopes tag rest own opens induction =>
      rcases List.mem_cons.mp member with rfl | member
      · exact ⟨_, tag, opens⟩
      · exact induction member
  | case5 => cases member
  | case6 scopes rest induction => exact induction member
  | case7 scopes event rest notStart notEmpty notFinish induction => exact induction member

theorem read_attributes_apart {text : String} {document : Document}
    (reads : Document.read text = .ok document) :
    List.Forall₂
      (fun opening element =>
        opening.Describes element ∧
        (element.HasApartAttributes ↔ ¬ opening.Repeats) ∧
        ((∀ opened ∈ opening.attributes, opened.name.IsClear) →
          (opening.Repeats ↔ ∃ first ∈ opening.attributes, ∃ second ∈ opening.attributes,
            first.before? ≠ second.before? ∧ first.name = second.name)))
      (openingsOf text) document.root.walk := by
  have paired := (List.forall₂_and_left _ _).mpr
    ⟨fun opening (member : opening ∈ openingsOf text) => exists_read_of_mem member,
      read_opens reads⟩
  refine paired.imp ?_
  rintro opening element ⟨⟨outer, tag, opens⟩, describes⟩
  have keyed := Opening.isKeyed_of_read opens
  refine ⟨describes, ?_, Opening.repeats_iff keyed⟩
  rw [← element.nodup_attributeNames_iff, ← Opening.nodup_pairs_iff keyed,
    ← describes.attributes]
  rfl

/-! ## Rejection -/

private theorem exists_mapM_iff {α β ε : Type} {step : α → Except ε β} {items : List α} :
    (∃ results, items.mapM step = .ok results) ↔
      ∀ item ∈ items, ∃ result, step item = .ok result := by
  simp only [mapM_eq_ok_iff]
  induction items with
  | nil => simp
  | cons item rest induction =>
      rw [List.forall_mem_cons, ← induction]
      constructor
      · rintro ⟨_, each⟩
        rcases List.forall₂_cons_left_iff.mp each with ⟨result, results, one, more, -⟩
        exact ⟨⟨result, one⟩, results, more⟩
      · rintro ⟨⟨result, one⟩, results, more⟩
        exact ⟨result :: results, .cons one more⟩

/-- The prefix of a written name, if it has one, is declared. The empty one always is. -/
def Scope.Knows (scope : Scope) (written : List Char) : Prop :=
  ∀ before part, prefixAndPart? written = some (before, part) →
    before = "" ∨ (scope.uri? before).isSome = true

section

variable {scope : Scope} {written : List Char}

private theorem exists_resolve_iff {before part : String} :
    (∃ name, scope.resolve before part = .ok name) ↔
      before = "" ∨ (scope.uri? before).isSome = true := by
  rw [Scope.resolve]
  by_cases unprefixed : before = ""
  · rw [if_pos unprefixed]
    exact iff_of_true ⟨_, rfl⟩ (.inl unprefixed)
  · rw [if_neg unprefixed]
    cases scope.uri? before with
    | none => simp [unprefixed]
    | some uri => simp

private theorem exists_elementName_iff :
    (∃ name, scope.elementName written = .ok name) ↔ scope.Knows written := by
  rw [Scope.elementName, Scope.Knows]
  cases parts : prefixAndPart? written with
  | none =>
      refine iff_of_true (exists_resolve_iff.mpr (.inl rfl)) ?_
      intro _ _ same
      cases same
  | some pair =>
      refine exists_resolve_iff.trans ⟨fun known => ?_, fun known => known _ _ rfl⟩
      rintro _ _ ⟨⟩
      exact known

private theorem exists_attributeName_iff :
    (∃ name, scope.attributeName written = .ok name) ↔ scope.Knows written := by
  rw [Scope.attributeName, Scope.Knows]
  cases parts : prefixAndPart? written with
  | none =>
      refine iff_of_true ⟨_, rfl⟩ ?_
      intro _ _ same
      cases same
  | some pair =>
      refine exists_resolve_iff.trans ⟨fun known => ?_, fun known => known _ _ rfl⟩
      rintro _ _ ⟨⟩
      exact known

private theorem exists_named_iff {attributes : List (List Char × String)} :
    (∃ names, scope.named attributes = .ok names) ↔
      ∀ pair ∈ attributes, scope.Knows pair.1 := by
  rw [Scope.named, exists_mapM_iff]
  refine forall₂_congr fun pair _ => ?_
  rw [← exists_attributeName_iff]
  constructor
  · rintro ⟨_, named⟩
    rcases exists_of_bind named with ⟨name, resolves, -⟩
    exact ⟨name, resolves⟩
  · rintro ⟨name, resolves⟩
    exact ⟨(name, pair.2), bind_of_ok resolves rfl⟩

end

theorem begin_succeeds_iff {construction : Construction}
    (takes : (construction.frames.isEmpty && construction.root.isSome) = false)
    (tag : List Char) :
    (∃ frame, construction.begin tag = .ok frame) ↔
      ∃ start, StartTag.read tag = .ok start ∧
        ∀ written ∈ start.name :: start.plainAttributes.map Prod.fst,
          (construction.bindings.scope.within start.attributes).Knows written := by
  have headed : (∃ frame, construction.begin tag = .ok frame) ↔
      ∃ heading, Heading.read id construction.bindings.scope tag = .ok heading := by
    rcases begin_eq takes tag with
      ⟨flaw, fails, read⟩ | ⟨heading, bindings, begins, read, -⟩
    · exact iff_of_false (by simp [fails]) (by simp [read])
    · exact iff_of_true ⟨_, begins⟩ ⟨_, read⟩
  rw [headed]
  constructor
  · rintro ⟨heading, reads⟩
    rcases Heading.read_eq_ok_iff.mp reads with ⟨start, own, inside, resolves, names⟩
    rw [inside] at resolves names
    refine ⟨start, own, List.forall_mem_cons.mpr ⟨exists_elementName_iff.mp ⟨_, resolves⟩, ?_⟩⟩
    exact List.forall_mem_map.mpr (exists_named_iff.mp ⟨_, names⟩)
  · rintro ⟨start, own, known⟩
    rcases List.forall_mem_cons.mp known with ⟨nameKnown, keysKnown⟩
    rcases exists_elementName_iff.mpr nameKnown with ⟨name, resolves⟩
    rcases exists_named_iff.mpr (List.forall_mem_map.mp keysKnown) with ⟨names, named⟩
    exact ⟨⟨name, names, _⟩, Heading.read_eq_ok_iff.mpr ⟨start, own, rfl, resolves, named⟩⟩

/-- Only keys are kept from coming twice. The attributes of the elements of a document are
apart, but for start tags that repeat a name; the names being clear, these are the tags with
two prefixes for one namespace before one local part. -/
theorem attributes_apart_iff (text : String) :
    (∀ construction : Construction,
      (construction.frames.isEmpty && construction.root.isSome) = false →
      ∀ tag, (∃ frame, construction.begin tag = .ok frame) ↔
        ∃ start, StartTag.read tag = .ok start ∧
          ∀ written ∈ start.name :: start.plainAttributes.map Prod.fst,
            (construction.bindings.scope.within start.attributes).Knows written) ∧
    ∀ document, Document.read text = .ok document →
      List.Forall₂
        (fun opening element =>
          opening.Describes element ∧
          (element.HasApartAttributes ↔ ¬ opening.Repeats) ∧
          ((∀ opened ∈ opening.attributes, opened.name.IsClear) →
            (opening.Repeats ↔ ∃ first ∈ opening.attributes, ∃ second ∈ opening.attributes,
              first.before? ≠ second.before? ∧ first.name = second.name)))
        (openingsOf text) document.root.walk :=
  ⟨fun _ takes tag => begin_succeeds_iff takes tag, fun _ reads => read_attributes_apart reads⟩

def sharedText : String :=
  "<tt xmlns:a=\"u\" xmlns:b=\"u\" a:x=\"1\" b:x=\"2\"/>"

theorem attributes_apart_iff_shared :
    ∃ document, Document.read sharedText = .ok document ∧
      document.root.attributes = [("\x7bu\x7dx", "1"), ("\x7bu\x7dx", "2")] ∧
      ¬ document.root.HasApartAttributes ∧
      ∃ opening ∈ openingsOf sharedText, opening.Describes document.root ∧ opening.Repeats := by
  have attributes : (Document.read sharedText).toOption.map (·.root.attributes)
      = some [("\x7bu\x7dx", "1"), ("\x7bu\x7dx", "2")] := by decide +kernel
  cases reads : Document.read sharedText with
  | error error =>
      rw [reads] at attributes
      cases attributes
  | ok document =>
      rw [reads] at attributes
      have attributes : document.root.attributes = _ := Option.some.inj attributes
      have repeated : ¬ document.root.HasApartAttributes := by
        rw [← Element.nodup_attributeNames_iff, Element.attributeNames, attributes]
        decide
      have each := (attributes_apart_iff sharedText).2 document reads
      rw [Element.walk, walkAll_cons] at each
      rcases List.forall₂_cons_right_iff.mp each with
        ⟨opening, others, ⟨describes, apart, -⟩, -, same⟩
      refine ⟨document, rfl, attributes, repeated, opening, ?_, describes, ?_⟩
      · rw [same]
        exact List.mem_cons_self
      · exact not_not.mp (apart.not.mp repeated)

end Markup

end TimedText
