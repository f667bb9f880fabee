import Mathlib.Data.List.Basic
import TimedText.Profile.Captions
import TimedText.Proofs.Codes.Document
import TimedText.Proofs.Finds
/-!
Timing inside of timing in captions. The check of the body reaches spans through divisions and
paragraphs, and reports those that are timed and lie in a paragraph or a span that is timed,
however deep. What is timed around the paragraph goes unnoticed.
-/

namespace TimedText.Check

open Timing Profile

/-! ## Spans and what they lie in -/

def isTimed (element : Element) : Bool :=
  element.hasAttribute "begin" || element.hasAttribute "dur" || element.hasAttribute "end"

/-- A span with what it lies in, outermost first: the body and the divisions in it, and then
the paragraph and the spans in that. -/
structure SpanPlace where
  blocks : List Element
  lines : List Element
  span : Element

mutual

def spansIn (tag : String) (blocks lines : List Element) : Element → List SpanPlace
  | ⟨own, attributes, children, text, tail⟩ =>
    spansAmong tag blocks (lines ++ [⟨own, attributes, children, text, tail⟩]) children

def spansAmong (tag : String) (blocks lines : List Element) :
    List Element → List SpanPlace
  | [] => []
  | first :: rest =>
    if first.tag == tag then
      ⟨blocks, lines, first⟩ :: spansIn tag blocks lines first
        ++ spansAmong tag blocks lines rest
    else spansAmong tag blocks lines rest

end

def spansOfParagraphs (uri : String) (blocks : List Element) (division : Element) :
    List SpanPlace :=
  (division.childrenNamed (Name.qualified uri "p")).flatMap fun paragraph =>
    spansIn (Name.qualified uri "span") blocks [] paragraph

mutual

/-- The spans in the divisions of an element, inner divisions coming first. -/
def spansOfDivisions (uri : String) (blocks : List Element) : Element → List SpanPlace
  | ⟨own, attributes, children, text, tail⟩ =>
    spansOfEachDivision uri (blocks ++ [⟨own, attributes, children, text, tail⟩]) children

def spansOfEachDivision (uri : String) (blocks : List Element) :
    List Element → List SpanPlace
  | [] => []
  | first :: rest =>
    if first.tag == Name.qualified uri "div" then
      spansOfDivisions uri blocks first
        ++ spansOfParagraphs uri (blocks ++ [first]) first
        ++ spansOfEachDivision uri blocks rest
    else spansOfEachDivision uri blocks rest

end

def spansReached (uri : String) (root : Element) : List SpanPlace :=
  match root.childrenNamed (Name.qualified uri "body") with
  | [body] => spansOfDivisions uri [] body
  | _ => []

namespace SpanPlace

def isNested (place : SpanPlace) : Bool :=
  isTimed place.span && (place.blocks ++ place.lines).any isTimed

def isNestedInLine (place : SpanPlace) : Bool :=
  isTimed place.span && place.lines.any isTimed

def nestingFinding (place : SpanPlace) : Finding :=
  .fail .ebuttdNestedTimingConstraint s!"{place.span.tag} element"
    "Nested elements with timing attributes prohibited"

def nestingFindings (holds : SpanPlace → Bool) (places : List SpanPlace) : Log :=
  (places.filter holds).map nestingFinding

end SpanPlace

open SpanPlace

/-! ## Presence -/

private theorem isNone_of (element : Element) :
    (Presence.of element).isNone = !isTimed element := by
  simp only [Presence.isNone, Presence.of, isTimed, Bool.not_or]

private theorem isNone_union (left right : Presence) :
    (left.union right).isNone = (left.isNone && right.isNone) := by
  simp only [Presence.isNone, Presence.union, Bool.not_or]
  ac_rfl

/-! ## Spans -/

abbrev nestedCode : Code := .ebuttdNestedTimingConstraint

private theorem nestingFindings_append (holds : SpanPlace → Bool) (front last : List SpanPlace) :
    nestingFindings holds (front ++ last)
      = nestingFindings holds front ++ nestingFindings holds last := by
  rw [nestingFindings, List.filter_append, List.map_append]
  rfl

private theorem nestingFindings_flatMap {α : Type} (holds : SpanPlace → Bool) (members : List α)
    (places : α → List SpanPlace) :
    nestingFindings holds (members.flatMap places)
      = members.flatMap fun member => nestingFindings holds (places member) := by
  rw [nestingFindings, List.filter_flatMap, List.map_flatMap]
  rfl

private theorem nestingFindings_singleton (holds : SpanPlace → Bool) (place : SpanPlace) :
    nestingFindings holds [place] = if holds place then [place.nestingFinding] else [] := by
  rw [nestingFindings, List.filter_cons]
  split <;> rfl

private theorem runAll_notNested_finds {context : Context} (blocks : List Element)
    {lines : List Element} (above : context.enclosing.isNone = !lines.any isTimed)
    (span : Element) :
    (runAll [.notNested] span).Finds nestedCode context
      (nestingFindings isNestedInLine [⟨blocks, lines, span⟩]) := by
  have judged : (checkNotNested context.enclosing span).findings.withCode nestedCode
      = nestingFindings isNestedInLine [⟨blocks, lines, span⟩] := by
    rw [checkNotNested, isNone_of, above, Bool.not_not, Bool.not_not,
      nestingFindings_singleton, isNestedInLine]
    dsimp only
    cases isTimed span && lines.any isTimed <;> rfl
  apply runAll_singleton_finds
  rw [ElementCheck.run, ← judged]
  exact Run.context_bind_finds (Run.judge_finds _)

section

variable (textRequired nestingPermitted : Bool) {tag : String} (blocks : List Element)

mutual

private theorem checkSpans_finds (context : Context)
    (named : Name.qualified context.uri "span" = tag) (lines : List Element) :
    ∀ element,
      (context.enclosing.union (Presence.of element)).isNone
          = !(lines ++ [element]).any isTimed →
        (checkSpans textRequired nestingPermitted (runAll [.notNested]) element).Finds
          nestedCode context
          (nestingFindings isNestedInLine (spansIn tag blocks lines element))
  | ⟨own, attributes, children, text, tail⟩ => by
      intro inside
      rw [checkSpans, spansIn]
      apply Run.context_bind_finds
      dsimp only
      rw [named]
      apply (Run.judge_finds_nothing (countSpans_usesOnly _ _ _ _) (by decide)).before
      intro counted
      apply (Run.Finds.inside ?_).followed
      exact checkEachSpan_finds { context with entered := _ :: context.entered } named _ inside
        children

private theorem checkEachSpan_finds (context : Context)
    (named : Name.qualified context.uri "span" = tag) (lines : List Element)
    (above : context.enclosing.isNone = !lines.any isTimed) :
    ∀ elements,
      (checkEachSpan textRequired nestingPermitted (runAll [.notNested]) tag elements).Finds
        nestedCode context
        (nestingFindings isNestedInLine (spansAmong tag blocks lines elements))
  | [] => by
      rw [checkEachSpan, spansAmong]
      exact Run.pure_finds true
  | first :: rest => by
      have others := checkEachSpan_finds context named lines above rest
      rw [checkEachSpan, spansAmong]
      split
      · have inside : (context.enclosing.union (Presence.of first)).isNone
            = !(lines ++ [first]).any isTimed := by
          rw [isNone_union, above, isNone_of, List.any_append, List.any_cons, List.any_nil,
            Bool.or_false, Bool.not_or]
        rw [List.cons_append, ← List.singleton_append, nestingFindings_append,
          nestingFindings_append]
        apply (runAll_notNested_finds blocks above first).bind
        intro own
        apply (checkSpans_finds context named lines first inside).bind
        intro within
        exact others.followed _
      · exact others

end

end

/-! ## Paragraphs and divisions -/

private theorem paragraphChecks_finds (context : Context) (blocks : List Element)
    {paragraph : Element} (entered : context.enclosing = Presence.of paragraph) :
    (runAll paragraphChecks paragraph).Finds nestedCode context
      (nestingFindings isNestedInLine
        (spansIn (Name.qualified context.uri "span") blocks [] paragraph)) := by
  have inside : (context.enclosing.union (Presence.of paragraph)).isNone
      = !([] ++ [paragraph]).any isTimed := by
    rw [entered, isNone_union, Bool.and_self, isNone_of, List.nil_append, List.any_cons,
      List.any_nil, Bool.or_false]
  rw [paragraphChecks]
  apply runAll_finds_after
  · rw [ElementCheck.run]
    exact Run.judge_finds_nothing (checkHasId_usesOnly paragraph) (by decide)
  apply runAll_finds_after
  · rw [ElementCheck.run]
    exact Run.judge_finds_nothing (checkNoLooseText_usesOnly paragraph) (by decide)
  apply runAll_finds_after
  · rw [ElementCheck.run]
    exact judgeBy_finds_nothing (checkLineBreaks_usesOnly · paragraph) (by decide)
  apply runAll_singleton_finds
  rw [ElementCheck.run]
  exact checkSpans_finds true false blocks context rfl [] paragraph inside

private theorem divisionChecks_finds (context : Context) (blocks : List Element)
    (division : Element) :
    (runAll [.untimed, .paragraphs paragraphChecks] division).Finds nestedCode context
      (nestingFindings isNestedInLine (spansOfParagraphs context.uri blocks division)) := by
  apply runAll_finds_after
  · rw [ElementCheck.run]
    exact Run.judge_finds_nothing (checkUntimed_usesOnly division) (by decide)
  apply runAll_singleton_finds
  rw [ElementCheck.run, checkParagraphs, spansOfParagraphs, nestingFindings_flatMap]
  apply Run.context_bind_finds
  have counted : ∀ location message, Verdict.UsesOnly [.ebuttdEmptyDivConstraint]
      (.against (.fail .ebuttdEmptyDivConstraint location message)) :=
    fun _ _ => Verdict.against_usesOnly (by decide)
  apply (Run.judge_finds_nothing ((counted _ _).when _) (by decide)).before
  intro valid
  apply (checkInside_finds ?_).followed
  intro paragraph _
  exact paragraphChecks_finds _ blocks rfl

mutual

private theorem checkDivisions_finds (context : Context) (blocks : List Element) : ∀ element,
    (checkDivisions true (runAll [.untimed, .paragraphs paragraphChecks]) element).Finds
      nestedCode context
      (nestingFindings isNestedInLine (spansOfDivisions context.uri blocks element))
  | ⟨own, attributes, children, text, tail⟩ => by
      rw [checkDivisions, spansOfDivisions]
      apply Run.context_bind_finds
      apply (Run.judge_finds_nothing (countDivisions_usesOnly _ _) (by decide)).before
      intro counted
      exact (checkEachDivision_finds context _ children).followed _

private theorem checkEachDivision_finds (context : Context) (blocks : List Element) : ∀ elements,
    (checkEachDivision true (runAll [.untimed, .paragraphs paragraphChecks])
        (Name.qualified context.uri "div") elements).Finds nestedCode context
      (nestingFindings isNestedInLine (spansOfEachDivision context.uri blocks elements))
  | [] => by
      rw [checkEachDivision, spansOfEachDivision]
      exact Run.pure_finds true
  | first :: rest => by
      have others := checkEachDivision_finds context blocks rest
      rw [checkEachDivision, spansOfEachDivision]
      split
      · rw [nestingFindings_append, nestingFindings_append]
        let inside := { context with entered := Presence.of first :: context.entered }
        have within := checkDivisions_finds inside blocks first
        have own := divisionChecks_finds inside (blocks ++ [first]) first
        apply (Run.Finds.inside (within.bind fun valid => own.followed _)).bind
        intro valid
        exact others.followed _
      · exact others

end

/-! ## The body -/

private theorem bodyChecks_finds (context : Context) (body : Element) :
    (runAll [.untimed, .divisions [.untimed, .paragraphs paragraphChecks] true] body).Finds
      nestedCode context
      (nestingFindings isNestedInLine (spansOfDivisions context.uri [] body)) := by
  apply runAll_finds_after
  · rw [ElementCheck.run]
    exact Run.judge_finds_nothing (checkUntimed_usesOnly body) (by decide)
  apply runAll_singleton_finds
  rw [ElementCheck.run]
  exact checkDivisions_finds context [] body

theorem captionBody_finds (context : Context) (root : Element) :
    (captionBody.run root).Finds nestedCode context
      (nestingFindings isNestedInLine (spansReached context.uri root)) := by
  have counted (location message : String) : Verdict.UsesOnly [.ttmlElementBody]
      (.against (.fail .ttmlElementBody location message)) :=
    Verdict.against_usesOnly (by decide)
  rw [captionBody, ElementCheck.run, checkBody, spansReached]
  apply Run.context_bind_finds
  dsimp only
  cases root.childrenNamed (Name.qualified context.uri "body") with
  | nil => exact Run.judge_finds_nothing (counted _ _) (by decide)
  | cons body others =>
      cases others with
      | nil =>
          dsimp only
          let inside := { context with entered := Presence.of body :: context.entered }
          rw [← List.append_nil (nestingFindings _ _)]
          apply (Run.Finds.inside (bodyChecks_finds inside body)).bind
          intro valid
          have other : Code.ttmlElementBody ≠ nestedCode := by decide
          exact Run.affirmed_finds valid other
      | cons other others => exact Run.judge_finds_nothing (counted _ _) (by decide)

/-! ## What is reached -/

/-- An element inside another one, with only elements of one name on the way, and what it lies
in from the outer one on. -/
inductive Descends (tag : String) : Element → List Element → Element → Prop
  | child {outer inner : Element} (member : inner ∈ outer.childrenNamed tag) :
      Descends tag outer [outer] inner
  | deeper {outer child inner : Element} {around : List Element}
      (member : child ∈ outer.childrenNamed tag) (further : Descends tag child around inner) :
      Descends tag outer (outer :: around) inner

/-- A span that lies, through spans alone, in a paragraph of a division that lies, through
divisions alone, in the only body of a document. -/
def SpanPlace.IsReached (uri : String) (root : Element) (place : SpanPlace) : Prop :=
  ∃ body division paragraph around,
    root.childrenNamed (Name.qualified uri "body") = [body] ∧
    Descends (Name.qualified uri "div") body around division ∧
    place.blocks = around ++ [division] ∧
    paragraph ∈ division.childrenNamed (Name.qualified uri "p") ∧
    Descends (Name.qualified uri "span") paragraph place.lines place.span

section

variable {tag uri : String} {blocks lines : List Element} {place : SpanPlace}

mutual

private theorem mem_spansIn_iff (lines : List Element) : ∀ element,
    place ∈ spansIn tag blocks lines element ↔
      place.blocks = blocks ∧ ∃ around, place.lines = lines ++ around ∧
        Descends tag element around place.span
  | ⟨own, attributes, children, text, tail⟩ => by
      rw [spansIn, mem_spansAmong_iff _ children]
      apply and_congr_right
      intro _
      constructor
      · rintro ⟨child, member, ⟨last, rfl⟩ | ⟨further, around, descends⟩⟩
        · exact ⟨_, last, .child member⟩
        · exact ⟨_, around.trans (List.append_assoc ..), .deeper member descends⟩
      · rintro ⟨around, isAround, descends⟩
        rw [isAround]
        cases descends with
        | child member => exact ⟨_, member, .inl ⟨rfl, rfl⟩⟩
        | deeper member further =>
            exact ⟨_, member, .inr ⟨_, List.append_cons .., further⟩⟩

private theorem mem_spansAmong_iff (lines : List Element) : ∀ elements,
    place ∈ spansAmong tag blocks lines elements ↔
      place.blocks = blocks ∧ ∃ child ∈ elements.filter (·.tag == tag),
        (place.lines = lines ∧ place.span = child) ∨
          ∃ around, place.lines = lines ++ around ∧ Descends tag child around place.span
  | [] => by simp only [spansAmong, List.filter_nil, List.not_mem_nil, false_and, exists_false,
      and_false]
  | first :: rest => by
      rw [spansAmong, List.filter_cons]
      split
      · have here : place = ⟨blocks, lines, first⟩ ↔
            place.blocks = blocks ∧ place.lines = lines ∧ place.span = first := by
          cases place
          rw [SpanPlace.mk.injEq]
        rw [List.mem_append, List.mem_cons, mem_spansIn_iff lines first,
          mem_spansAmong_iff lines rest, List.exists_mem_cons_iff, here, ← and_or_left,
          ← and_or_left]
      · exact mem_spansAmong_iff lines rest

end

private theorem mem_spansOfParagraphs_iff {division : Element} :
    place ∈ spansOfParagraphs uri blocks division ↔
      place.blocks = blocks ∧
        ∃ paragraph ∈ division.childrenNamed (Name.qualified uri "p"),
          Descends (Name.qualified uri "span") paragraph place.lines place.span := by
  rw [spansOfParagraphs, List.mem_flatMap]
  constructor
  · rintro ⟨paragraph, member, within⟩
    rcases (mem_spansIn_iff [] paragraph).mp within with ⟨same, around, isAround, descends⟩
    exact ⟨same, paragraph, member, isAround ▸ descends⟩
  · rintro ⟨same, paragraph, member, descends⟩
    exact ⟨paragraph, member, (mem_spansIn_iff [] paragraph).mpr ⟨same, _, rfl, descends⟩⟩

mutual

private theorem mem_spansOfDivisions_iff (blocks : List Element) : ∀ element,
    place ∈ spansOfDivisions uri blocks element ↔
      ∃ around division, Descends (Name.qualified uri "div") element around division ∧
        place ∈ spansOfParagraphs uri (blocks ++ around ++ [division]) division
  | ⟨own, attributes, children, text, tail⟩ => by
      rw [spansOfDivisions, mem_spansOfEachDivision_iff _ children]
      constructor
      · rintro ⟨child, member, last | ⟨around, division, descends, found⟩⟩
        · exact ⟨_, _, .child member, last⟩
        · refine ⟨_, _, .deeper member descends, ?_⟩
          rw [← List.singleton_append, ← List.append_assoc]
          exact found
      · rintro ⟨around, division, descends, found⟩
        cases descends with
        | child member => exact ⟨_, member, .inl found⟩
        | deeper member further =>
            rw [← List.singleton_append, ← List.append_assoc] at found
            exact ⟨_, member, .inr ⟨_, _, further, found⟩⟩

private theorem mem_spansOfEachDivision_iff (blocks : List Element) : ∀ elements,
    place ∈ spansOfEachDivision uri blocks elements ↔
      ∃ child ∈ elements.filter (·.tag == Name.qualified uri "div"),
        place ∈ spansOfParagraphs uri (blocks ++ [child]) child ∨
          ∃ around division, Descends (Name.qualified uri "div") child around division ∧
            place ∈ spansOfParagraphs uri (blocks ++ around ++ [division]) division
  | [] => by simp only [spansOfEachDivision, List.filter_nil, List.not_mem_nil, false_and,
      exists_false]
  | first :: rest => by
      rw [spansOfEachDivision, List.filter_cons]
      split
      · rw [List.mem_append, List.mem_append, mem_spansOfDivisions_iff blocks first,
          mem_spansOfEachDivision_iff blocks rest, List.exists_mem_cons_iff,
          or_comm (a := ∃ _, _)]
      · exact mem_spansOfEachDivision_iff blocks rest

end

end

theorem mem_spansReached_iff {uri : String} {root : Element} {place : SpanPlace} :
    place ∈ spansReached uri root ↔ place.IsReached uri root := by
  have reached (body : Element) : place ∈ spansOfDivisions uri [] body ↔
      ∃ division around, Descends (Name.qualified uri "div") body around division ∧
        place.blocks = around ++ [division] ∧
        ∃ paragraph ∈ division.childrenNamed (Name.qualified uri "p"),
          Descends (Name.qualified uri "span") paragraph place.lines place.span := by
    simp only [mem_spansOfDivisions_iff, mem_spansOfParagraphs_iff, List.nil_append]
    exact exists_comm
  rw [spansReached, SpanPlace.IsReached]
  cases bodies : root.childrenNamed (Name.qualified uri "body") with
  | nil => simp
  | cons body others =>
      cases others with
      | nil =>
          dsimp only
          rw [reached]
          constructor
          · rintro ⟨division, around, descends, blocks, paragraph, member, line⟩
            exact ⟨body, division, paragraph, around, rfl, descends, blocks, member, line⟩
          · rintro ⟨found, division, paragraph, around, alone, descends, blocks, member, line⟩
            cases alone
            exact ⟨division, around, descends, blocks, paragraph, member, line⟩
      | cons other others => simp

/-! ## What goes unnoticed -/

/-- As much is found as should be, if in each place where something around a timed span is
timed, the paragraph or a span is. -/
theorem nestingFindings_inLine_iff (places : List SpanPlace) :
    nestingFindings isNestedInLine places = nestingFindings isNested places ↔
      ∀ place ∈ places, place.isNested = true → place.lines.any isTimed = true := by
  have narrower (place : SpanPlace) :
      place.isNestedInLine = (place.lines.any isTimed && place.isNested) := by
    rw [isNestedInLine, isNested, List.any_append]
    cases isTimed place.span <;> cases place.lines.any isTimed <;> simp
  rw [nestingFindings, nestingFindings, show isNestedInLine = _ from funext narrower,
    ← List.filter_filter]
  constructor
  · intro same place member nested
    -- The findings of two places may be alike, so the places are counted.
    have whole := congrArg List.length same
    rw [List.length_map, List.length_map, List.length_filter_eq_length_iff] at whole
    exact whole place (List.mem_filter.mpr ⟨member, nested⟩)
  · intro all
    congr 1
    rw [List.filter_eq_self]
    intro place member
    rcases List.mem_filter.mp member with ⟨reached, nested⟩
    exact all place reached nested

/-- The check of the body comes to an end, and reports the timed spans it reaches that lie in a
timed paragraph or span. These are all the timed spans in something timed, unless there is one
with nothing timed around it but the body and divisions. -/
theorem captionBody_notices_nesting_iff (context : Context) (root : Element) :
    let outcome := captionBody.run root context
    let reached := spansReached context.uri root
    (∃ valid, outcome.result = .ok valid) ∧
      (∀ place : SpanPlace, place ∈ reached ↔ place.IsReached context.uri root) ∧
      outcome.findings.withCode .ebuttdNestedTimingConstraint
        = nestingFindings isNestedInLine reached ∧
      (outcome.findings.withCode .ebuttdNestedTimingConstraint
          = nestingFindings isNested reached ↔
        ∀ place : SpanPlace, place.IsReached context.uri root →
          place.isNested = true → place.lines.any isTimed = true) := by
  have checked := captionBody_finds context root
  refine ⟨checked.completes, fun place => mem_spansReached_iff, checked.finds, ?_⟩
  rw [checked.finds, nestingFindings_inLine_iff]
  exact forall_congr' fun _ => imp_congr_left mem_spansReached_iff

def timedBody : Element :=
  let named := Name.qualified Vocabulary.core
  let timed := [("begin", "1s")]
  ⟨named "tt", [], [
    ⟨named "body", timed, [
      ⟨named "div", [], [
        ⟨named "p", [], [
          ⟨named "span", timed, [], none, none⟩], none, none⟩], none, none⟩], none, none⟩],
    none, none⟩

theorem captionBody_notices_nesting_iff_timed_body :
    (captionBody.run timedBody (.initial false)).findings.withCode .ebuttdNestedTimingConstraint
      ≠ nestingFindings isNested (spansReached Vocabulary.core timedBody) := by
  intro same
  have all := (captionBody_notices_nesting_iff (.initial false) timedBody).2.2.2.mp same
  have reached : ∃ place ∈ spansReached Vocabulary.core timedBody,
      place.isNested = true ∧ place.lines.any isTimed = false := by
    decide +kernel
  rcases reached with ⟨place, member, nested, untimed⟩
  have timed := all place (mem_spansReached_iff.mp member) nested
  rw [untimed] at timed
  exact Bool.false_ne_true timed

end TimedText.Check
