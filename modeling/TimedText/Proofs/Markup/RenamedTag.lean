import Mathlib.Data.List.Nodup
import TimedText.Proofs.Markup.RenamedName
/-!
Tags with their prefixes renamed. A renamed tag is read as the tag is, with the names of
its element and its attributes renamed.
-/

namespace TimedText.Markup

/-! ## Changed keys -/

private theorem afterValue_append {value assignment : List Char}
    (assigns : Assigns value assignment) (rest : List Char) :
    afterValue (assignment ++ rest) = rest := by
  rcases exists_assigns_iff.mp ⟨assignment, assigns, rfl⟩ with ⟨assigned, equals, valued⟩
  rw [afterValue, equals]
  dsimp only
  rw [valued]

section

variable {change : List Char → List Char} {attributes : List Attribute}
  {characters : List Char}

private theorem changeKeys_more {key value blanks assignment : List Char} (blank : AllSpace blanks)
    (isKey : IsKey key) (assigns : Assigns value assignment) (others : List Attribute)
    (rest : List Char) :
    changeKeys change (⟨key, value⟩ :: others) (blanks ++ (key ++ (assignment ++ rest)))
      = blanks ++ (change key ++ (assignment ++ changeKeys change others rest)) := by
  have leading : (blanks ++ (key ++ (assignment ++ rest))).takeWhile isSpace = blanks := by
    apply Text.takeWhile_append_stop blank
    rcases isKey with ⟨starts, -⟩
    rintro _ ⟨⟩
    exact starts
  rw [changeKeys, leading, List.drop_left, List.drop_left, afterValue_append assigns,
    List.length_append, Nat.add_sub_cancel, List.take_left]

/-- What the names of keys are changed to takes their place. -/
private def Replaced (change : List Char → List Char) (attributes : List Attribute) : Prop :=
  ∀ pair ∈ attributes, Replaces pair.key (change pair.key)

private theorem Spells.changed (spells : Spells attributes characters)
    (replaced : Replaced change attributes) :
    Spells (attributes.map (.changed change)) (changeKeys change attributes characters) := by
  induction spells with
  | done blank => exact .done blank
  | more blank isKey assigns following induction =>
      rw [changeKeys_more blank isKey assigns]
      have own := replaced _ List.mem_cons_self
      exact .more blank (own.isKey isKey) assigns
        (induction fun pair member => replaced pair (List.mem_cons_of_mem _ member))

private theorem Spells.leads (spells : Spells attributes characters)
    (replaced : Replaced change attributes) {state last : Option Char}
    (onQuote : OnQuote state) (leads : characters.foldlM tagStep state = some last) :
    (changeKeys change attributes characters).foldlM tagStep state = some last := by
  induction spells generalizing state with
  | done blank => exact leads
  | @more key value blanks assignment rest others blank isKey assigns following induction =>
      rw [changeKeys_more blank isKey assigns]
      rcases Text.foldlM_append_eq_some_iff.mp leads with ⟨atKey, passes, leads⟩
      rcases Text.foldlM_append_eq_some_iff.mp leads with ⟨afterKey, named, leads⟩
      rcases Text.foldlM_append_eq_some_iff.mp leads with ⟨atRest, assigned, leads⟩
      have keyQuote := foldlM_onQuote onQuote passes
      have restQuote := foldlM_onQuote (foldlM_onQuote keyQuote named) assigned
      refine Text.foldlM_append_eq_some_iff.mpr ⟨atKey, passes, ?_⟩
      refine Text.foldlM_append_eq_some_iff.mpr ⟨afterKey, ?_, ?_⟩
      · exact (replaced _ List.mem_cons_self).leads keyQuote named
      · refine Text.foldlM_append_eq_some_iff.mpr ⟨atRest, assigned, ?_⟩
        exact induction (fun pair member => replaced pair (List.mem_cons_of_mem _ member))
          restQuote leads

private theorem Spells.head?_changeKeys (spells : Spells attributes characters)
    (blank : ∀ character ∈ characters.head?, isSpace character = true) :
    (changeKeys change attributes characters).head? = characters.head? := by
  cases spells with
  | done => rfl
  | @more key value blanks assignment rest others allBlank isKey assigns following =>
      rw [changeKeys_more allBlank isKey assigns]
      cases blanks with
      | nil =>
          rcases isKey with ⟨starts, -⟩
          have spaced := blank _ rfl
          rw [starts] at spaced
          cases spaced
      | cons first blanks => rfl

private theorem Assigns.getLast? {value assignment : List Char}
    (assigns : Assigns value assignment) :
    ∃ quote, assignment.getLast? = some quote := by
  rcases assigns with @⟨before, after, quote, -, -, -, -⟩
  have parts : before ++ '=' :: (after ++ quote :: (value ++ [quote]))
      = (before ++ '=' :: (after ++ quote :: value)) ++ [quote] := by simp
  exact ⟨quote, by rw [parts, List.getLast?_concat]⟩

private theorem Spells.getLast?_changeKeys (spells : Spells attributes characters) :
    (changeKeys change attributes characters).getLast? = characters.getLast? := by
  induction spells with
  | done => rfl
  | more blank isKey assigns following induction =>
      rcases assigns.getLast? with ⟨quote, ends⟩
      rw [changeKeys_more blank isKey assigns]
      simp [List.getLast?_append, induction, ends]

end

/-! ## Renamed tags -/

private theorem tag_parts (tag : List Char) : tag = tagName tag ++ afterName tag :=
  List.takeWhile_append_dropWhile.symm

theorem tagName_spaceless (tag : List Char) :
    ∀ character ∈ tagName tag, (!isSpace character) = true :=
  fun _ => List.mem_takeWhile_imp

private theorem afterName_blank (tag : List Char) :
    ∀ character ∈ (afterName tag).head?, isSpace character = true := by
  intro character first
  simpa using Text.head?_dropWhile character first

structure TagKnown (prefixes : List String) (tag : List Char) : Prop where
  name : NameKnown prefixes (tagName tag)
  keys : ∀ pair ∈ (attributesOf true tag).read, KeyKnown prefixes pair.key

theorem tagKnown_of_subset {prefixes : List String} {tag : List Char}
    (subset : tagPrefixes tag ⊆ prefixes) : TagKnown prefixes tag where
  name before part parts := by
    refine .inl (subset (List.mem_append_left _ ?_))
    simp [parts]
  keys pair member before found := by
    refine .inl (subset (List.mem_append_right _ ?_))
    exact List.mem_filterMap.mpr ⟨pair, member, found⟩

section

variable {rename : String → String} {prefixes : List String}
  (renames : IsRenaming rename prefixes) (writes : IsWritten rename prefixes)
  {tag : List Char} (known : TagKnown prefixes tag)
  (sound : (attributesOf true tag).flaw = none)

include sound renames known

theorem attributesOf_of_renamed {other : List Char} (tags : TagRenamed rename tag other) :
    attributesOf true other
      = ⟨(attributesOf true tag).read.map (.changed (renamedKey rename)), none⟩ := by
  refine attributesOf_eq_iff.mpr ⟨tags.attributes, ?_⟩
  have keys : ((attributesOf true tag).read.map (.changed (renamedKey rename))).map
        Attribute.key
      = ((attributesOf true tag).read.map Attribute.key).map (renamedKey rename) := by
    rw [List.map_map, List.map_map]
    rfl
  rw [keys]
  refine (spells_tag sound).2.map_on ?_
  intro first firstMember second secondMember same
  rcases List.mem_map.mp firstMember with ⟨firstPair, firstRead, rfl⟩
  rcases List.mem_map.mp secondMember with ⟨secondPair, secondRead, rfl⟩
  exact eq_of_renamedKey_eq renames (known.keys _ firstRead) (known.keys _ secondRead) same

include writes

omit sound in
private theorem tag_replaced :
    Replaces (tagName tag) (renamedName rename (tagName tag)) ∧
      Replaced (renamedKey rename) (attributesOf true tag).read :=
  ⟨renamedName_replaces renames writes known.name,
    fun pair member => renamedKey_replaces renames writes (known.keys pair member)⟩

theorem renamedTag_halves :
    tagName (renamedTag rename tag) = renamedName rename (tagName tag) ∧
      afterName (renamedTag rename tag)
        = changeKeys (renamedKey rename) (attributesOf true tag).read (afterName tag) := by
  have name := (tag_replaced renames writes known).1.forall_mem (tagName_spaceless tag)
    fun character plain => by rw [(not_markup plain).1]; rfl
  have stops : ∀ character ∈ (changeKeys (renamedKey rename) (attributesOf true tag).read
      (afterName tag)).head?, (!isSpace character) = false := by
    intro character first
    rw [(spells_tag sound).1.head?_changeKeys (afterName_blank tag)] at first
    rw [afterName_blank tag character first]
    rfl
  exact ⟨Text.takeWhile_append_stop name stops, Text.dropWhile_append_stop name stops⟩

theorem tag_renamed : TagRenamed rename tag (renamedTag rename tag) := by
  rcases renamedTag_halves renames writes known sound with ⟨name, following⟩
  refine ⟨name, ?_⟩
  rw [following]
  exact (spells_tag sound).1.changed (tag_replaced renames writes known).2

theorem renamedTag_leads {last : Option Char} (leads : tag.foldlM tagStep none = some last) :
    (renamedTag rename tag).foldlM tagStep none = some last := by
  rcases tag_replaced renames writes known with ⟨name, keys⟩
  rw [tag_parts tag] at leads
  rcases Text.foldlM_append_eq_some_iff.mp leads with ⟨named, passes, leads⟩
  refine Text.foldlM_append_eq_some_iff.mpr ⟨named, name.leads onQuote_none passes, ?_⟩
  exact (spells_tag sound).1.leads keys (foldlM_onQuote onQuote_none passes) leads

theorem renamedTag_ends (other : tag.getLast? ≠ some '/') :
    (renamedTag rename tag).getLast? ≠ some '/' := by
  have name := (tag_replaced renames writes known).1
  rw [tag_parts tag, List.getLast?_append] at other
  rw [renamedTag, List.getLast?_append, (spells_tag sound).1.getLast?_changeKeys]
  cases ends : (afterName tag).getLast? with
  | none =>
      rw [ends] at other
      exact name.getLast?_ne_slash other
  | some character =>
      rw [ends] at other
      exact other

theorem renamedTag_begins {holds : Char → Prop} {more : List Char}
    (first : ∀ character ∈ (tag ++ more).head?, holds character)
    (plain : ∀ character, isMarkup character = false → holds character) :
    ∀ character ∈ (renamedTag rename tag ++ more).head?, holds character := by
  have name := (tag_replaced renames writes known).1
  have kept : (changeKeys (renamedKey rename) (attributesOf true tag).read
      (afterName tag)).head? = (afterName tag).head? :=
    (spells_tag sound).1.head?_changeKeys (afterName_blank tag)
  rw [tag_parts tag, List.append_assoc, List.head?_append] at first
  intro character begins
  rw [renamedTag, List.append_assoc, List.head?_append] at begins
  rcases Option.or_eq_some_iff.mp begins with inName | ⟨unnamed, inRest⟩
  · refine name.forall_head? (fun character member => first character ?_) plain character inName
    exact Option.or_eq_some_iff.mpr (.inl member)
  · have none : tagName tag = [] := name.eq_nil_iff.mp (List.head?_eq_none_iff.mp unnamed)
    rw [List.head?_append, kept, ← List.head?_append] at inRest
    refine first character (Option.or_eq_some_iff.mpr (.inr ⟨?_, inRest⟩))
    rw [none]
    rfl

end

end TimedText.Markup
