import TimedText.Proofs.Codes.Scripts
/-!
What pruning leaves of a document. A document holds elements and characters, each of them
inside of some elements below the root. Pruning leaves those of them that are in recognised
elements only, in the order in which they were, and takes the attributes that are not
recognised from the elements that are left. So there is nothing to prune in what is left.
-/

namespace TimedText.Check

/-! ## What a document holds -/

structure Label where
  tag : String
  attributes : List (String × String)

def labelOf (element : Element) : Label := ⟨element.tag, element.attributes⟩

/-- A piece of what a document holds, with the labels of the elements below the root that
it is in, the outermost first: an element, of which the last label is its own, or a
character. -/
inductive Piece where
  | element (line : List Label)
  | character (around : List Label) (letter : Char)

def Piece.line : Piece → List Label
  | .element line => line
  | .character around _ => around

def Piece.character? : Piece → Option Char
  | .element _ => none
  | .character _ letter => some letter

def characters (around : List Label) (text : Option String) : List Piece :=
  (text.getD "").toList.map (Piece.character around)

mutual

def piecesIn (around : List Label) : Element → List Piece
  | ⟨_, _, children, text, _⟩ => characters around text ++ piecesAmong around children

/-- The pieces that some elements are, those in them, and the text after each of them. -/
def piecesAmong (around : List Label) : List Element → List Piece
  | [] => []
  | first :: rest =>
    .element (around ++ [labelOf first]) :: piecesIn (around ++ [labelOf first]) first
      ++ characters around first.tail ++ piecesAmong around rest

end

def pieces (root : Element) : List Piece := piecesIn [] root

def textOf (pieces : List Piece) : String :=
  String.ofList (pieces.filterMap Piece.character?)

private theorem textOf_append (left right : List Piece) :
    textOf (left ++ right) = textOf left ++ textOf right := by
  rw [textOf, List.filterMap_append, String.ofList_append]
  rfl

private theorem textOf_characters (around : List Label) (text : Option String) :
    textOf (characters around text) = text.getD "" := by
  have each : Piece.character? ∘ Piece.character around = some := rfl
  rw [textOf, characters, List.filterMap_map, each, List.filterMap_some, String.ofList_toList]

mutual

private theorem textOf_piecesIn (around : List Label) : ∀ element : Element,
    textOf (piecesIn around element) = element.textContent
  | ⟨tag, attributes, children, text, tail⟩ => by
      rw [piecesIn, Element.textContent, textOf_append, textOf_characters,
        textOf_piecesAmong around children]

private theorem textOf_piecesAmong (around : List Label) : ∀ elements : List Element,
    textOf (piecesAmong around elements) = Element.textContentAll elements
  | [] => by
      rw [piecesAmong, Element.textContentAll]
      rfl
  | first :: rest => by
      rw [piecesAmong, Element.textContentAll, textOf_append, textOf_append,
        textOf_characters, textOf_piecesAmong around rest, ← textOf_piecesIn _ first]
      rfl

end

/-! ## What is left of pieces -/

def Piece.isKept (piece : Piece) : Bool :=
  piece.line.all fun label => isRecognisedElement label.tag

def Label.own (label : Label) : Label :=
  { label with
    attributes := label.attributes.filter fun pair => isRecognisedAttribute pair.1 }

def Piece.own : Piece → Piece
  | .element line => .element (line.map Label.own)
  | .character around letter => .character (around.map Label.own) letter

/-- What is left of pieces: those that are kept, with the attributes that are recognised. -/
def leftOf (pieces : List Piece) : List Piece :=
  (pieces.filter Piece.isKept).map Piece.own

private theorem leftOf_append (left right : List Piece) :
    leftOf (left ++ right) = leftOf left ++ leftOf right := by
  rw [leftOf, List.filter_append, List.map_append]
  rfl

private theorem textOf_leftOf (pieces : List Piece) :
    textOf (leftOf pieces) = textOf (pieces.filter Piece.isKept) := by
  have same : Piece.character? ∘ Piece.own = Piece.character? := by
    funext piece
    cases piece <;> rfl
  rw [textOf, leftOf, List.filterMap_map, same]
  rfl

private abbrev AllRecognised (around : List Label) : Prop :=
  ∀ label ∈ around, isRecognisedElement label.tag = true

variable {around : List Label}

private theorem leftOf_characters (recognised : AllRecognised around) (text : Option String) :
    leftOf (characters around text) = characters (around.map Label.own) text := by
  have kept : (characters around text).filter Piece.isKept = characters around text := by
    apply List.filter_eq_self.mpr
    intro piece member
    rcases List.mem_map.mp member with ⟨letter, -, rfl⟩
    exact List.all_eq_true.mpr recognised
  rw [leftOf, kept, characters, List.map_map]
  rfl

private theorem leftOf_element {line : List Label} (recognised : AllRecognised line)
    (pieces : List Piece) :
    leftOf (.element line :: pieces) = .element (line.map Label.own) :: leftOf pieces := by
  have kept : (Piece.element line).isKept = true := List.all_eq_true.mpr recognised
  rw [leftOf, List.filter_cons_of_pos kept, List.map_cons]
  rfl

private theorem characters_joinTexts (around : List Label) (first second : Option String) :
    characters around (joinTexts first second)
      = characters around first ++ characters around second := by
  cases first <;> cases second <;> simp [characters, joinTexts]

private theorem not_isKept_of_foreign {piece : Piece} (label : Label) (inside : label ∈ piece.line)
    (foreign : isRecognisedElement label.tag = false) : piece.isKept = false := by
  rw [Piece.isKept, List.all_eq_false]
  exact ⟨label, inside, by rw [foreign]; exact Bool.false_ne_true⟩

mutual

private theorem label_mem_line {around : List Label} {label : Label} (inside : label ∈ around) :
    ∀ element : Element, ∀ piece ∈ piecesIn around element, label ∈ piece.line
  | ⟨tag, attributes, children, text, tail⟩ => by
      intro piece member
      rw [piecesIn] at member
      rcases List.mem_append.mp member with own | member
      · rcases List.mem_map.mp own with ⟨letter, -, rfl⟩
        exact inside
      · exact label_mem_line_of_among inside children piece member

private theorem label_mem_line_of_among {around : List Label} {label : Label}
    (inside : label ∈ around) : ∀ elements : List Element,
      ∀ piece ∈ piecesAmong around elements, label ∈ piece.line
  | [] => by
      rw [piecesAmong]
      exact nofun
  | first :: rest => by
      intro piece member
      have within : label ∈ around ++ [labelOf first] := List.mem_append_left _ inside
      rw [piecesAmong] at member
      rcases List.mem_append.mp member with member | later
      · rcases List.mem_append.mp member with member | after
        · rcases List.mem_cons.mp member with rfl | member
          · exact within
          · exact label_mem_line within first piece member
        · rcases List.mem_map.mp after with ⟨letter, -, rfl⟩
          exact inside
      · exact label_mem_line_of_among inside rest piece later

end

private theorem leftOf_foreign {first : Element} (foreign : isRecognisedElement first.tag = false) :
    leftOf (.element (around ++ [labelOf first]) :: piecesIn (around ++ [labelOf first]) first)
      = [] := by
  have inside : labelOf first ∈ around ++ [labelOf first] :=
    List.mem_append_right _ (List.mem_singleton_self _)
  rw [leftOf, List.map_eq_nil_iff, List.filter_eq_nil_iff]
  intro piece member
  rw [Bool.not_eq_true]
  refine not_isKept_of_foreign (labelOf first) ?_ foreign
  rcases List.mem_cons.mp member with rfl | member
  · exact inside
  · exact label_mem_line inside first piece member

/-! ## What is left of documents -/

private theorem labelOf_prune (element : Element) :
    labelOf (prune element).1 = (labelOf element).own := by
  cases element
  rw [prune]
  rfl

private theorem tail_prune (element : Element) : (prune element).1.tail = element.tail := by
  cases element
  rw [prune]

private theorem piecesIn_tail (around : List Label) (element : Element) (tail : Option String) :
    piecesIn around { element with tail := tail } = piecesIn around element := by
  cases element
  rw [piecesIn, piecesIn]

mutual

private theorem piecesIn_prune {around : List Label} (recognised : AllRecognised around) :
    ∀ element : Element,
      piecesIn (around.map Label.own) (prune element).1 = leftOf (piecesIn around element)
  | ⟨tag, attributes, children, text, tail⟩ => by
      rw [prune, piecesIn, piecesIn, characters_joinTexts, leftOf_append,
        leftOf_characters recognised, List.append_assoc, piecesAmong_pruneAll recognised children]

private theorem piecesAmong_pruneAll {around : List Label} (recognised : AllRecognised around) :
    ∀ elements : List Element,
      characters (around.map Label.own) (pruneAll elements).leading
          ++ piecesAmong (around.map Label.own) (pruneAll elements).kept
        = leftOf (piecesAmong around elements)
  | [] => by
      rw [pruneAll, piecesAmong, piecesAmong]
      rfl
  | first :: rest => by
      have others := piecesAmong_pruneAll recognised rest
      rw [pruneAll, piecesAmong, leftOf_append, leftOf_append, leftOf_characters recognised,
        ← others]
      dsimp only
      split
      next known =>
        have within : AllRecognised (around ++ [labelOf first]) := by
          refine List.forall_mem_append.mpr ⟨recognised, ?_⟩
          exact List.forall_mem_singleton.mpr known
        have inner := piecesIn_prune within first
        rw [leftOf_element within, ← inner, List.map_append, List.map_singleton,
          ← labelOf_prune]
        dsimp only
        rw [piecesAmong, piecesIn_tail, characters_joinTexts, tail_prune]
        simp [characters, labelOf]
      next foreign =>
        -- The text after what is taken out comes first in what leads the rest.
        rw [leftOf_foreign (Bool.eq_false_of_not_eq_true foreign), characters_joinTexts]
        rw [List.nil_append, List.append_assoc]

end

/-! ## What there is to prune -/

structure IsInVocabulary (root : Element) : Prop where
  own : IsPruned root
  inside : ∀ inner ∈ root.descendants,
    IsPruned inner ∧ isRecognisedElement inner.tag = true

private theorem isPruned_iff (element : Element) :
    IsPruned element ↔
      (element.attributes.filter fun pair => !isRecognisedAttribute pair.1) = [] := by
  rw [List.filter_eq_nil_iff]
  simp [IsPruned]

mutual

private theorem prune_removes_nothing_iff : ∀ element : Element,
    (prune element).2 = [] ↔ IsInVocabulary element
  | ⟨tag, attributes, children, text, tail⟩ => by
      have own := isPruned_iff ⟨tag, attributes, children, text, tail⟩
      rw [prune, List.append_eq_nil_iff, List.map_eq_nil_iff, ← own,
        pruneAll_removes_nothing_iff children]
      exact ⟨fun both => ⟨both.1, both.2⟩, fun clean => ⟨clean.own, clean.inside⟩⟩

private theorem pruneAll_removes_nothing_iff : ∀ elements : List Element,
    (pruneAll elements).removals = [] ↔ ∀ inner ∈ Element.walkAll elements,
      IsPruned inner ∧ isRecognisedElement inner.tag = true
  | [] => by
      rw [pruneAll, Element.walkAll]
      exact ⟨fun _ => nofun, fun _ => rfl⟩
  | first :: rest => by
      rw [pruneAll, Markup.walkAll_cons, List.forall_mem_cons, List.forall_mem_append,
        ← pruneAll_removes_nothing_iff rest]
      dsimp only
      split
      next known =>
        rw [List.append_eq_nil_iff, prune_removes_nothing_iff first]
        constructor
        · rintro ⟨⟨own, inside⟩, others⟩
          exact ⟨⟨own, known⟩, inside, others⟩
        · rintro ⟨⟨own, -⟩, inside, others⟩
          exact ⟨⟨own, inside⟩, others⟩
      next foreign => exact ⟨nofun, fun all => absurd all.1.2 foreign⟩

end

private theorem tag_prune (element : Element) : (prune element).1.tag = element.tag :=
  congrArg Label.tag (labelOf_prune element)

mutual

private theorem prune_recognised : ∀ element : Element,
    ∀ inner ∈ (prune element).1.descendants, isRecognisedElement inner.tag = true
  | ⟨tag, attributes, children, text, tail⟩ => by
      rw [prune]
      exact pruneAll_recognised children

private theorem pruneAll_recognised : ∀ elements : List Element,
    ∀ inner ∈ Element.walkAll (pruneAll elements).kept, isRecognisedElement inner.tag = true
  | [] => by
      rw [pruneAll, Element.walkAll]
      exact nofun
  | first :: rest => by
      rw [pruneAll]
      dsimp only
      split
      next known =>
        rw [Markup.walkAll_cons]
        refine List.forall_mem_cons.mpr ⟨(tag_prune first).symm ▸ known, ?_⟩
        exact List.forall_mem_append.mpr ⟨prune_recognised first, pruneAll_recognised rest⟩
      · exact pruneAll_recognised rest

end

private theorem prune_isInVocabulary (root : Element) : IsInVocabulary (prune root).1 where
  own := (prune_isPruned root).1
  inside inner member := ⟨(prune_isPruned root).2 inner member, prune_recognised root inner member⟩

theorem prune_prune_removes_nothing (root : Element) : (prune (prune root).1).2 = [] :=
  (prune_removes_nothing_iff _).mpr (prune_isInVocabulary root)

/-! ## The check -/

theorem checkVocabulary_of_nothing {root : Element} (nothing : (prune root).2 = [])
    (context : Context) : checkVocabulary root context = ⟨.ok true, context, []⟩ := by
  rw [checkVocabulary]
  dsimp only
  rw [nothing]
  rfl

structure IsPruningOf (pruned root : Element) : Prop where
  vocabulary : IsInVocabulary pruned
  label : labelOf pruned = (labelOf root).own
  tail : pruned.tail = root.tail
  pieces : pieces pruned = leftOf (pieces root)
  text : pruned.textContent = textOf ((Check.pieces root).filter Piece.isKept)

theorem prune_isPruningOf (root : Element) : IsPruningOf (prune root).1 root where
  vocabulary := prune_isInVocabulary root
  label := labelOf_prune root
  tail := tail_prune root
  pieces := piecesIn_prune (List.forall_mem_nil _) root
  text := by
    rw [← textOf_leftOf, Check.pieces, ← piecesIn_prune (List.forall_mem_nil _) root,
      textOf_piecesIn]

/-- The check of the vocabulary hands on what pruning should leave of a document, in which
it finds nothing to prune. A document with nothing to prune is handed on as it is. -/
theorem checkVocabulary_prunes (root : Element) (context : Context) :
    ∃ pruned,
      (checkVocabulary root { context with replacement := none }).context.replacement.getD root
          = pruned ∧
        IsPruningOf pruned root ∧
        (∀ later, checkVocabulary pruned later = ⟨.ok true, later, []⟩) ∧
        ((prune root).2 = [] → pruned = root) :=
  ⟨(prune root).1, checkVocabulary_replaces root rfl, prune_isPruningOf root,
    checkVocabulary_of_nothing (prune_prune_removes_nothing root), prune_of_nothing root⟩

end TimedText.Check
