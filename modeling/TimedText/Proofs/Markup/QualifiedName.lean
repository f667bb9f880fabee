import TimedText.Proofs.Markup.Opening
import TimedText.Proofs.Text.Cut
/-!
Qualified names and what is found in them. A closing brace in a namespace ends it where it
should not, and a name without namespace may begin with what looks like one. All other names
are found as they are meant.
-/

namespace TimedText.Markup

/-! ## The parts of a written name -/

private theorem parts?_eq_some_iff {written uri part : String} :
    Name.parts? written = some (uri, part) ↔
      '\x7d' ∉ uri.toList ∧
        written.toList = '\x7b' :: (uri.toList ++ '\x7d' :: part.toList) := by
  rw [Name.parts?]
  constructor
  · intro parts
    split at parts
    next rest braced =>
      split at parts
      next front closing after spans =>
        cases parts
        rcases Text.span_bne_eq_iff.mp spans with ⟨-, none, rfl⟩
        rw [String.toList_ofList, String.toList_ofList]
        exact ⟨none, braced⟩
      next => cases parts
    next => cases parts
  · rintro ⟨none, braced⟩
    rw [braced]
    split
    next rest same =>
      cases same
      rw [Text.span_bne_eq_iff.mpr ⟨rfl, none, rfl⟩]
      dsimp only
      rw [String.ofList_toList, String.ofList_toList]
    next other => exact absurd rfl (other _)

private theorem parts?_eq_none_iff {written : String} :
    Name.parts? written = none ↔
      ∀ rest, written.toList = '\x7b' :: rest → '\x7d' ∉ rest := by
  constructor
  · intro whole rest braced member
    rw [Name.parts?, braced] at whole
    split at whole
    next same =>
      cases same
      split at whole
      next => cases whole
      next spans => exact Text.not_mem_of_span_bne spans member
    next other => exact other rest rfl
  · intro none
    cases parts : Name.parts? written with
    | none => rfl
    | some pair =>
        have braced := (parts?_eq_some_iff.mp parts).2
        exact absurd (by simp) (none _ braced)

namespace ExpandedName

def namespace? (name : ExpandedName) : Option String :=
  if name.uri = "" then none else some name.uri

/-- What is found in a written name is the namespace and the local part of a name. -/
structure IsFoundIn (name : ExpandedName) (written : String) : Prop where
  uri : Name.uri? written = name.namespace?
  part : Name.localPart written = name.part

/-- Nothing in a name is taken for the end of its namespace, and nothing in a name without
one for a namespace. -/
structure IsClear (name : ExpandedName) : Prop where
  uri : '\x7d' ∉ name.uri.toList
  part : name.uri = "" → ∀ rest, name.part.toList = '\x7b' :: rest → '\x7d' ∉ rest

variable {name : ExpandedName}

private theorem toList_qualified (within : name.uri ≠ "") :
    name.qualified.toList = '\x7b' :: (name.uri.toList ++ '\x7d' :: name.part.toList) := by
  rw [qualified, Name.qualified, if_neg (by simpa using within)]
  simp

private theorem qualified_of_outside (outside : name.uri = "") : name.qualified = name.part := by
  rw [qualified, Name.qualified, outside, if_pos (by rfl)]

theorem isFoundIn_qualified_iff : name.IsFoundIn name.qualified ↔ name.IsClear := by
  by_cases outside : name.uri = ""
  · have whole : name.IsFoundIn name.part ↔ Name.parts? name.part = none := by
      constructor
      · intro found
        have none := found.uri
        rwa [namespace?, if_pos outside, Name.uri?, Option.map_eq_none_iff] at none
      · intro none
        refine ⟨?_, ?_⟩
        · rw [Name.uri?, none, namespace?, if_pos outside]
          rfl
        · rw [Name.localPart, none]
    rw [qualified_of_outside outside, whole, parts?_eq_none_iff]
    refine ⟨fun clear => ⟨?_, fun _ => clear⟩, fun clear => clear.part outside⟩
    rw [outside]
    exact List.not_mem_nil
  · have parts : Name.parts? name.qualified = some (name.uri, name.part)
        ↔ '\x7d' ∉ name.uri.toList := by
      rw [parts?_eq_some_iff, toList_qualified outside]
      exact and_iff_left rfl
    constructor
    · intro found
      have uri := found.uri
      rw [Name.uri?, namespace?, if_neg outside] at uri
      rcases Option.map_eq_some_iff.mp uri with ⟨⟨before, part⟩, split, same⟩
      refine ⟨?_, fun none => absurd none outside⟩
      rw [← same]
      exact (parts?_eq_some_iff.mp split).1
    · intro clear
      have split := parts.mpr clear.uri
      refine ⟨?_, ?_⟩
      · rw [Name.uri?, split, namespace?, if_neg outside]
        rfl
      · rw [Name.localPart, split]

theorem eq_of_qualified_eq {other : ExpandedName} (clear : name.IsClear)
    (otherClear : other.IsClear) (same : name.qualified = other.qualified) : name = other := by
  have found := isFoundIn_qualified_iff.mpr clear
  have otherFound := isFoundIn_qualified_iff.mpr otherClear
  rw [← same] at otherFound
  have part : name.part = other.part := found.part.symm.trans otherFound.part
  have within : name.namespace? = other.namespace? := found.uri.symm.trans otherFound.uri
  rcases name with ⟨uri, _⟩
  rcases other with ⟨otherUri, _⟩
  cases part
  rw [namespace?, namespace?] at within
  split at within <;> split at within <;> simp_all

end ExpandedName

/-! ## Documents -/

/-- The names in a document are found as they are meant if, and only if, they are clear. -/
theorem read_names_found_iff {text : String} {document : Document}
    (reads : Document.read text = .ok document) :
    List.Forall₂
      (fun opening element =>
        opening.Describes element ∧
        (opening.tag.IsFoundIn element.tag ↔ opening.tag.IsClear) ∧
        List.Forall₂
          (fun opened pair => opened.name.IsFoundIn pair.1 ↔ opened.name.IsClear)
          opening.attributes element.attributes)
      (openingsOf text) document.root.walk := by
  refine (read_opens reads).imp fun opening element describes => ⟨describes, ?_, ?_⟩
  · rw [describes.tag]
    exact ExpandedName.isFoundIn_qualified_iff
  · rw [describes.attributes, Opening.pairs, List.forall₂_map_right_iff]
    exact List.forall₂_same.mpr fun opened _ => ExpandedName.isFoundIn_qualified_iff

def bracedText : String := "<p:tt xmlns:p=\"u\x7dv\"/>"

theorem read_names_found_iff_braced :
    ∃ document, Document.read bracedText = .ok document ∧
      document.root.uri? = some "u" ∧ document.root.localPart = "v\x7dtt" ∧
      ∃ opening ∈ openingsOf bracedText, opening.tag = ⟨"u\x7dv", "tt"⟩ ∧
        opening.Describes document.root ∧ ¬ opening.tag.IsFoundIn document.root.tag := by
  have names : (Document.read bracedText).toOption.map
        (fun document => (document.root.uri?, document.root.localPart))
      = some (some "u", "v\x7dtt") := by decide +kernel
  have tags : (openingsOf bracedText).map Opening.tag = [⟨"u\x7dv", "tt"⟩] := by decide +kernel
  cases reads : Document.read bracedText with
  | error error =>
      rw [reads] at names
      cases names
  | ok document =>
      rw [reads] at names
      have names := Prod.mk.inj (Option.some.inj names)
      have each := read_names_found_iff reads
      rw [Element.walk, walkAll_cons] at each
      rcases List.forall₂_cons_right_iff.mp each with
        ⟨opening, others, ⟨describes, found, -⟩, -, same⟩
      rw [same] at tags
      have tag : opening.tag = ⟨"u\x7dv", "tt"⟩ := (List.cons.inj tags).1
      refine ⟨document, rfl, names.1, names.2, opening, ?_, tag, describes, ?_⟩
      · rw [same]
        exact List.mem_cons_self
      · rw [found]
        intro clear
        have none := clear.uri
        rw [tag] at none
        exact none (by decide)

end TimedText.Markup
