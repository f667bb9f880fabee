import Mathlib.Data.List.Forall2
import TimedText.Proofs.Markup.Fragment
import TimedText.Proofs.Markup.RenamedTag
import TimedText.Proofs.Markup.Telling
/-!
Texts with their prefixes renamed. Each event is told by its renamed text where it was told
by its text, so that the renamed text is read as the renamed events.
-/

namespace TimedText.Markup

/-! ## End tags -/

private theorem renamedName_append (rename : String → String) (name : List Char) {more : List Char}
    (colonless : ':' ∉ more) :
    renamedName rename (name ++ more) = renamedName rename name ++ more := by
  rw [renamedName, renamedName]
  cases parts : prefixAndPart? name with
  | none =>
      have whole : prefixAndPart? (name ++ more) = none := by
        have inName := prefixAndPart?_eq_none_iff.mp parts
        exact prefixAndPart?_eq_none_iff.mpr fun member =>
          (List.mem_append.mp member).elim inName colonless
      rw [whole]
  | some pair =>
      rcases pair with ⟨before, part⟩
      rcases prefixAndPart?_eq_some_iff.mp parts with ⟨none, rfl⟩
      have longer : prefixAndPart? (before.toList ++ ':' :: part.toList ++ more)
          = some (before, part ++ String.ofList more) :=
        prefixAndPart?_eq_some_iff.mpr ⟨none, by simp⟩
      rw [longer]
      simp

private theorem endName_eq_iff {content name : List Char}
    (spaceless : ∀ character ∈ name, isSpace character = false) :
    endName content = name ↔
      ∃ blanks, AllSpace blanks ∧ content = name ++ blanks ∧ (name = [] → blanks = []) := by
  rw [endName]
  constructor
  · intro found
    split at found
    next left =>
      subst found
      have blank := List.dropWhile_eq_nil_iff.mp left
      refine ⟨[], nofun, (List.append_nil _).symm, fun _ => rfl⟩
    next left =>
      subst found
      have parts := List.takeWhile_append_dropWhile (p := isSpace) (l := content.reverse)
      refine ⟨(content.reverse.takeWhile isSpace).reverse, ?_, ?_, ?_⟩
      · intro character member
        exact List.mem_takeWhile_imp (List.mem_reverse.mp member)
      · rw [← List.reverse_append, parts, List.reverse_reverse]
      · intro none
        exact absurd (List.reverse_eq_nil_iff.mp none) left
  · rintro ⟨blanks, blank, rfl, whole⟩
    have stops : ∀ character ∈ name.reverse.head?, isSpace character = false := by
      intro character last
      exact spaceless character (List.mem_reverse.mp (List.mem_of_head? last))
    have left : (name ++ blanks).reverse.dropWhile isSpace = name.reverse := by
      rw [List.reverse_append]
      exact Text.dropWhile_append_stop
        (fun character member => blank character (List.mem_reverse.mp member)) stops
    rw [left]
    split
    next none =>
      have none := List.reverse_eq_nil_iff.mp none
      rw [none, whole none]
      rfl
    next => exact List.reverse_reverse name

/-! ## Events -/

namespace Event

def renamed (rename : String → String) : Event → Event
  | .start tag => .start (renamedTag rename tag)
  | .empty tag => .empty (renamedTag rename tag)
  | event => event

def Sound : Event → Prop
  | .start tag | .empty tag => (attributesOf true tag).flaw = none
  | _ => True

end Event

private theorem Leaf.renamed_event (leaf : Leaf) (rename : String → String) :
    leaf.event.renamed rename = leaf.event := by
  cases leaf <;> rfl

private theorem Leaf.renamedMarkup_event (leaf : Leaf) (rename : String → String)
    (written : List Char) : renamedMarkup rename written leaf.event = written := by
  cases leaf <;> rfl

private theorem Construct.event_of_not_tag {construct : Construct} {opened : List (List Char)}
    {content : List Char} {event : Event} (notStart : construct ≠ .start)
    (notFinish : construct ≠ .finish) (means : construct.event opened content = .ok event) :
    (∀ others, construct.event others content = .ok event) ∧
      ∃ leaf : Leaf, event = leaf.event := by
  cases construct with
  | literal =>
      refine ⟨fun _ => means, ?_⟩
      rw [Construct.event] at means
      split at means
      · cases means
        exact ⟨.literal _, rfl⟩
      · cases means
  | comment =>
      refine ⟨fun _ => means, ?_⟩
      rw [Construct.event] at means
      split at means
      · cases means
        exact ⟨.comment, rfl⟩
      · cases means
  | docType =>
      refine ⟨fun _ => means, ?_⟩
      rw [Construct.event, docTypeEvent] at means
      split at means
      · split at means
        · cases means
        · cases means
          exact ⟨.docType _, rfl⟩
      · cases means
  | instruction =>
      refine ⟨fun _ => means, ?_⟩
      rw [Construct.event, instructionEvent] at means
      split at means
      · cases means
      · cases means
        split
        · exact ⟨.declaration _, rfl⟩
        · exact ⟨.instruction, rfl⟩
  | finish => exact absurd rfl notFinish
  | start => exact absurd rfl notStart

private def NamesKnown (prefixes : List String) (opened : List (List Char)) : Prop :=
  ∀ name ∈ opened,
    NameKnown prefixes name ∧ ∀ character ∈ name, isSpace character = false

section

variable {rename : String → String} {prefixes : List String}
  (renames : IsRenaming rename prefixes) (writes : IsWritten rename prefixes)
  {opened : List (List Char)} {next : Option Char} {event : Event} {written : List Char}

private theorem Tells.head? (tells : Tells opened next event written) (rest others : List Char) :
    (renamedMarkup rename written event ++ rest).head? = (written ++ others).head? := by
  cases tells with
  | markup => cases event <;> rfl
  | reference => rfl
  | text => rfl

private theorem openedAfter_known (known : event.prefixes ⊆ prefixes)
    (names : NamesKnown prefixes opened) : NamesKnown prefixes (openedAfter opened event) := by
  cases event with
  | start tag =>
      refine List.forall_mem_cons.mpr ⟨⟨(tagKnown_of_subset known).name, ?_⟩, names⟩
      intro character member
      simpa using tagName_spaceless tag character member
  | finish => exact fun name member => names name (List.mem_of_mem_tail member)
  | _ => exact names

include renames writes

private theorem openedAfter_renamed (known : event.prefixes ⊆ prefixes) (sound : event.Sound) :
    openedAfter (opened.map (renamedName rename)) (event.renamed rename)
      = (openedAfter opened event).map (renamedName rename) := by
  cases event with
  | start tag =>
      have halves := renamedTag_halves renames writes (tagKnown_of_subset known) sound
      exact congrArg (· :: _) halves.1
  | finish => exact List.map_tail.symm
  | _ => rfl

/-! ## Renamed texts of events -/

private theorem renamedTag_kind {tag more : List Char} (known : TagKnown prefixes tag)
    (sound : (attributesOf true tag).flaw = none)
    (kind : Construct.of? (tag ++ more) = some .start) :
    Construct.of? (renamedTag rename tag ++ more) = some .start := by
  rw [Construct.of?_eq_start_iff] at kind ⊢
  refine renamedTag_begins renames writes known sound kind fun character plain => ?_
  rcases not_markup plain with ⟨-, -, -, -, slash, bang, mark, -⟩
  exact ⟨bang, mark, slash⟩

private theorem tells_renamed_start {tag : List Char} (known : TagKnown prefixes tag)
    (sound : (attributesOf true tag).flaw = none)
    (kind : Construct.of? (tag ++ ['>']) = some .start)
    (holds : Construct.start.Holds tag) (other : tag.getLast? ≠ some '/') :
    Tells opened next (.start (renamedTag rename tag))
      ('<' :: (renamedTag rename tag ++ ['>'])) := by
  refine @Tells.markup _ _ .start _ _ ?_ ?_ ?_
  · exact renamedTag_kind renames writes known sound kind
  · exact Construct.cut_tagStep_iff.mpr
      (renamedTag_leads renames writes known sound (Construct.cut_tagStep_iff.mp holds))
  · rw [Construct.event, startEvent, if_neg (renamedTag_ends renames writes known sound other)]

private theorem tells_renamed_empty {tag : List Char} (known : TagKnown prefixes tag)
    (sound : (attributesOf true tag).flaw = none)
    (kind : Construct.of? (tag ++ ['/', '>']) = some .start)
    (holds : Construct.start.Holds (tag ++ ['/'])) :
    Tells opened next (.empty (renamedTag rename tag))
      ('<' :: (renamedTag rename tag ++ ['/', '>'])) := by
  have parts : renamedTag rename tag ++ ['/', '>']
      = (renamedTag rename tag ++ ['/']) ++ ['>'] := by simp
  rw [parts]
  refine @Tells.markup _ _ .start _ _ ?_ ?_ ?_
  · rw [List.append_assoc]
    exact renamedTag_kind renames writes known sound kind
  · refine Construct.cut_tagStep_iff.mpr ?_
    rcases Text.foldlM_append_eq_some_iff.mp (Construct.cut_tagStep_iff.mp holds) with
      ⟨last, leads, ends⟩
    exact Text.foldlM_append_eq_some_iff.mpr
      ⟨last, renamedTag_leads renames writes known sound leads, ends⟩
  · rw [Construct.event, startEvent, if_pos (by simp), List.dropLast_concat]

private theorem tells_renamed_finish {name blanks : List Char} {opened : List (List Char)}
    (known : NameKnown prefixes name)
    (spaceless : ∀ character ∈ name, isSpace character = false) (blank : AllSpace blanks)
    (whole : name = [] → blanks = [])
    (holds : Construct.finish.Holds ('/' :: (name ++ blanks))) :
    Tells (renamedName rename name :: opened) next .finish
      ('<' :: '/' :: (renamedName rename name ++ (blanks ++ ['>']))) := by
  have replaces := renamedName_replaces renames writes known
  have parts : '/' :: (renamedName rename name ++ (blanks ++ ['>']))
      = ('/' :: (renamedName rename name ++ blanks)) ++ ['>'] := by simp
  rw [parts]
  refine @Tells.markup _ _ .finish _ _ rfl ?_ ?_
  · have leads : (['/'] ++ (name ++ blanks)).foldlM tagStep none = some none :=
      Construct.cut_tagStep_iff.mp holds
    refine Construct.cut_tagStep_iff.mpr ?_
    change (['/'] ++ (renamedName rename name ++ blanks)).foldlM tagStep none = some none
    rcases Text.foldlM_append_eq_some_iff.mp leads with ⟨begun, begins, leads⟩
    rcases Text.foldlM_append_eq_some_iff.mp leads with ⟨named, passes, leads⟩
    refine Text.foldlM_append_eq_some_iff.mpr ⟨begun, begins, ?_⟩
    refine Text.foldlM_append_eq_some_iff.mpr ⟨named, ?_, leads⟩
    exact replaces.leads (foldlM_onQuote onQuote_none begins) passes
  · have still : ∀ character ∈ renamedName rename name, isSpace character = false :=
      replaces.forall_mem spaceless fun character plain => (not_markup plain).1
    have ends : endName (renamedName rename name ++ blanks) = renamedName rename name :=
      (endName_eq_iff still).mpr
        ⟨blanks, blank, rfl, fun none => whole (replaces.eq_nil_iff.mp none)⟩
    rw [Construct.event, List.drop_one, List.tail_cons, endEvent, ends]
    exact if_pos rfl

private theorem tells_renamed_finish_of_event {content : List Char}
    (names : NamesKnown prefixes opened)
    (holds : Construct.finish.Holds ('/' :: content))
    (means : Construct.finish.event opened ('/' :: content) = .ok event) :
    Tells (opened.map (renamedName rename)) next (event.renamed rename)
      (renamedMarkup rename ('<' :: '/' :: (content ++ ['>'])) event) := by
  rw [Construct.event, List.drop_one, List.tail_cons] at means
  cases opened with
  | nil => cases means
  | cons name outer =>
      rw [endEvent] at means
      split at means
      next same =>
        cases means
        rcases names name List.mem_cons_self with ⟨known, spaceless⟩
        rcases (endName_eq_iff spaceless).mp same.symm with ⟨blanks, blank, rfl, whole⟩
        have colonless : ':' ∉ blanks ++ ['>'] := by
          intro member
          rcases List.mem_append.mp member with member | member
          · exact absurd (blank ':' member) (by decide)
          · simp at member
        rw [renamedMarkup, List.drop_succ_cons, List.drop_one, List.tail_cons,
          List.append_assoc, renamedName_append rename name colonless]
        exact tells_renamed_finish renames writes known spaceless blank whole holds
      next => cases means

private theorem tells_renamed_start_of_event {content : List Char}
    (known : event.prefixes ⊆ prefixes)
    (sound : event.Sound) (kind : Construct.of? (content ++ ['>']) = some .start)
    (holds : Construct.start.Holds content)
    (means : Construct.start.event opened content = .ok event) :
    Tells (opened.map (renamedName rename)) next (event.renamed rename)
      (renamedMarkup rename ('<' :: (content ++ ['>'])) event) := by
  rw [Construct.event, startEvent] at means
  split at means
  next slash =>
    cases means
    have parts : content = content.dropLast ++ ['/'] :=
      (List.dropLast_append_getLast? '/' slash).symm
    rw [parts] at kind holds
    rw [List.append_assoc] at kind
    exact tells_renamed_empty renames writes (tagKnown_of_subset known) sound kind holds
  next other =>
    cases means
    exact tells_renamed_start renames writes (tagKnown_of_subset known) sound kind holds other

private theorem Tells.renamed (known : event.prefixes ⊆ prefixes) (sound : event.Sound)
    (names : NamesKnown prefixes opened) (tells : Tells opened next event written) :
    Tells (opened.map (renamedName rename)) next (event.renamed rename)
      (renamedMarkup rename written event) := by
  cases tells with
  | @markup construct content _ kind holds means =>
      by_cases finish : construct = .finish
      · subst finish
        rcases Construct.of?_eq_finish kind with ⟨rest, same⟩
        cases content with
        | nil => cases same
        | cons first content =>
            cases same
            exact tells_renamed_finish_of_event renames writes names holds means
      · by_cases start : construct = .start
        · subst start
          exact tells_renamed_start_of_event renames writes known sound kind holds means
        · rcases Construct.event_of_not_tag start finish means with ⟨alike, leaf, rfl⟩
          rw [leaf.renamed_event, leaf.renamedMarkup_event]
          exact .markup kind holds (alike _)
  | reference within => exact .reference within
  | text within stops => exact .text within stops

end

/-! ## Transcripts -/

section

variable {rename : String → String} {prefixes : List String}
  (renames : IsRenaming rename prefixes) (writes : IsWritten rename prefixes)

private theorem take_written (written rest : List Char) :
    (written ++ rest).take ((written ++ rest).length - rest.length) = written := by
  rw [List.length_append, Nat.add_sub_cancel, List.take_left]

private theorem renamedFrom_of_tells {opened : List (List Char)} {event : Event}
    {written rest : List Char} (tells : Tells opened rest.head? event written) :
    renamedFrom rename opened (written ++ rest)
      = renamedMarkup rename written event
        ++ renamedFrom rename (openedAfter opened event) rest := by
  rcases tells.reads with ⟨shorter, reads⟩
  rw [renamedFrom, reads]
  dsimp only
  rw [take_written]

theorem transcribeFrom_of_tells {opened : List (List Char)} {event : Event}
    {written rest : List Char} (tells : Tells opened rest.head? event written) :
    transcribeFrom opened (written ++ rest)
      = ⟨(event, rest) :: (transcribeFrom (openedAfter opened event) rest).events,
          (transcribeFrom (openedAfter opened event) rest).failure⟩ := by
  rcases tells.reads with ⟨shorter, reads⟩
  rw [transcribeFrom, reads]

private theorem head?_renamedFrom (opened : List (List Char)) (characters : List Char) :
    (renamedFrom rename opened characters).head? = characters.head? := by
  cases reads : read opened characters with
  | done =>
      cases eq_nil_of_done reads
      rw [renamedFrom, reads]
  | failure failure => rw [renamedFrom, reads]
  | event event rest shorter =>
      rcases tells_of_read reads with ⟨written, rfl, tells⟩
      rw [renamedFrom_of_tells tells]
      exact tells.head? _ _

include renames writes

/-- A text that is read to its end is, with its prefixes renamed, read as the renamed
events. -/
private theorem transcribeFrom_renamedFrom (opened : List (List Char)) (characters : List Char)
    (whole : (transcribeFrom opened characters).failure = none)
    (names : NamesKnown prefixes opened)
    (known : ∀ event ∈ (transcribeFrom opened characters).events.map Prod.fst,
      event.prefixes ⊆ prefixes ∧ event.Sound) :
    let changed := transcribeFrom (opened.map (renamedName rename))
      (renamedFrom rename opened characters)
    changed.failure = none ∧
      changed.events.map Prod.fst
        = ((transcribeFrom opened characters).events.map Prod.fst).map (.renamed rename) := by
  fun_induction transcribeFrom opened characters with
  | case1 opened characters reads =>
      cases eq_nil_of_done reads
      have none : renamedFrom rename opened [] = [] := by
        rw [renamedFrom, reads]
      rw [none, transcribeFrom]
      exact ⟨rfl, rfl⟩
  | case2 opened characters failure reads => cases whole
  | case3 opened characters event rest shorter reads following induction =>
      rcases tells_of_read reads with ⟨written, rfl, tells⟩
      rcases List.forall_mem_cons.mp known with ⟨⟨own, sound⟩, others⟩
      have inner := openedAfter_known own names
      rcases induction whole inner others with ⟨ends, events⟩
      have changed := tells.renamed renames writes own sound names
      rw [← head?_renamedFrom (openedAfter opened event) rest] at changed
      rw [renamedFrom_of_tells tells, transcribeFrom_of_tells changed,
        openedAfter_renamed renames writes own sound]
      exact ⟨ends, congrArg (event.renamed rename :: ·) events⟩

omit renames writes in
private theorem withoutMark_renamed (text : String) :
    withoutMark (renamed rename text).toList
      = renamedFrom rename [] (withoutMark text.toList) := by
  rw [renamed, String.toList_ofList]
  generalize text.toList = characters
  by_cases marked : ∃ rest, characters = '\ufeff' :: rest
  · rcases marked with ⟨rest, rfl⟩
    have mark : ('\ufeff' :: rest).take (('\ufeff' :: rest).length - rest.length)
        = ['\ufeff'] := take_written ['\ufeff'] rest
    change withoutMark (('\ufeff' :: rest).take (('\ufeff' :: rest).length - rest.length)
      ++ renamedFrom rename [] rest) = renamedFrom rename [] rest
    rw [mark]
    rfl
  · have unmarked {others : List Char} (same : others.head? = characters.head?) :
        withoutMark others = others := by
      unfold withoutMark
      split
      next rest =>
        cases characters with
        | nil => cases same
        | cons first rest =>
            cases same
            exact absurd ⟨rest, rfl⟩ marked
      next => rfl
    rw [unmarked rfl, Nat.sub_self, List.take_zero, List.nil_append]
    exact unmarked (head?_renamedFrom [] characters)

private theorem event_renamed {event : Event} (known : event.prefixes ⊆ prefixes)
    (sound : event.Sound) : EventRenamed rename event (event.renamed rename) := by
  cases event with
  | start tag => exact .start (tag_renamed renames writes (tagKnown_of_subset known) sound)
  | empty tag => exact .empty (tag_renamed renames writes (tagKnown_of_subset known) sound)
  | _ => exact .other fun tag => ⟨nofun, nofun⟩

theorem isRenamed_renamed {text : String}
    (whole : (transcribe text.toList).failure = none)
    (known : ∀ event ∈ (transcribe text.toList).events.map Prod.fst,
      event.prefixes ⊆ prefixes ∧ event.Sound) :
    IsRenamed rename text (renamed rename text) := by
  have reads := transcribeFrom_renamedFrom renames writes [] (withoutMark text.toList) whole
    nofun known
  rw [List.map_nil, ← withoutMark_renamed] at reads
  refine ⟨reads.1, ?_⟩
  change List.Forall₂ _ _ ((transcribeFrom [] _).events.map Prod.fst)
  rw [reads.2, List.forall₂_map_right_iff]
  refine List.forall₂_same.mpr fun event member => ?_
  exact event_renamed renames writes (known event member).1 (known event member).2

end

end TimedText.Markup
