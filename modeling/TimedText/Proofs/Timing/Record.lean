import Mathlib.Data.List.Perm.Basic
import TimedText.Proofs.Timing.Interval
/-!
What a timeline records of a tree of timed elements. Each of them has one entry, and there
are no other entries. The path of an entry leads through the document to the element whose
tag and identifier the entry has, whatever elements without times stand beside it.
-/

namespace TimedText

/-! ## Paths -/

theorem Element.at?_append (document : Element) (path steps : Path) :
    document.at? (path ++ steps) = (document.at? path).bind (·.at? steps) := by
  induction path generalizing document with
  | nil => rfl
  | cons index path induction =>
      rw [List.cons_append, Element.at?, Element.at?]
      cases document.children[index]? with
      | none => rfl
      | some child => exact induction child

namespace Timing

theorem Lineage.at?_steps {kinds : List String} {element inner : Element} {steps : Path}
    {line : List Element} (lineage : Lineage kinds element steps line inner) :
    element.at? steps = some inner := by
  induction lineage with
  | here element => rfl
  | @inside element child inner index steps line timed further induction =>
      have placed := List.mem_zipIdx_iff_getElem?.mp (List.mem_of_mem_filter timed)
      rw [Element.at?, placed]
      exact induction

/-! ## The entries of a timeline -/

section

variable {τ : Type}

def Timeline.entries (timeline : Timeline τ) : List (Entry τ) :=
  timeline.flatMap (·.entries)

theorem filter_path_eq {entries : List (Entry τ)} {entry : Entry τ}
    (distinct : (entries.map Entry.path).Nodup) (member : entry ∈ entries) :
    entries.filter (fun other => other.path == entry.path) = [entry] := by
  rcases List.append_of_mem member with ⟨before, after, rfl⟩
  rw [List.map_append, List.map_cons, List.nodup_middle, List.nodup_cons,
    ← List.map_append] at distinct
  have others : ∀ other ∈ before ++ after, ¬(other.path == entry.path) = true := by
    intro other otherMember same
    exact distinct.1 (beq_iff_eq.mp same ▸ List.mem_map_of_mem otherMember)
  rcases List.forall_mem_append.mp others with ⟨noneBefore, noneAfter⟩
  rw [List.filter_append, List.filter_eq_nil_iff.mpr noneBefore, List.nil_append,
    List.filter_cons, if_pos (beq_self_eq_true _), List.filter_eq_nil_iff.mpr noneAfter]

variable [Quantity τ]

private theorem Timeline.entries_enter (instant : τ) (entry : Entry τ) (timeline : Timeline τ) :
    (enter instant entry timeline).entries.Perm (entry :: timeline.entries) := by
  induction timeline with
  | nil => exact List.Perm.refl _
  | cons moment later induction =>
      rw [enter]
      split
      · exact List.Perm.refl _
      · split
        · exact (induction.append_left moment.entries).trans List.perm_middle
        · rw [entries, List.flatMap_cons, List.append_assoc]
          exact List.perm_middle

theorem Timeline.entries_ofList (entries : List (τ × Entry τ)) :
    (ofList entries).entries.Perm (entries.map Prod.snd) := by
  suffices general : ∀ timeline : Timeline τ,
      (entries.foldl (fun timeline filed => enter filed.1 filed.2 timeline)
        timeline).entries.Perm (timeline.entries ++ entries.map Prod.snd) from general []
  induction entries with
  | nil =>
      intro timeline
      rw [List.map_nil, List.append_nil]
      exact List.Perm.refl _
  | cons first rest induction =>
      intro timeline
      refine (induction _).trans ?_
      refine ((entries_enter first.1 first.2 timeline).append_right _).trans ?_
      exact List.perm_middle.symm

end

/-! ## The entries of a resolution -/

structure Entry.TellsOf {τ : Type} (entry : Entry τ) (element : Element) : Prop where
  tag : entry.tag = element.tag
  xmlId : entry.xmlId = element.xmlId?

variable {τ : Type} [Quantity τ] {rules : Rules τ} {frame : Frame τ} {path : Path}
  {root element : Element} {resolution : Resolution τ}

theorem Resolves.entry_tellsOf (resolves : Resolves rules frame path element resolution) :
    ∀ filed ∈ resolution.entries, ∃ steps line inner,
      Lineage rules.kinds element steps line inner ∧ filed.2.path = path ++ steps ∧
        filed.2.TellsOf inner := by
  refine resolves.induct (motive := fun _ path element resolution =>
    ∀ filed ∈ resolution.entries, ∃ steps line inner,
      Lineage rules.kinds element steps line inner ∧ filed.2.path = path ++ steps ∧
        filed.2.TellsOf inner) ?_
  intro frame path element usable resolutions each filed member
  rcases List.mem_append.mp member with inside | own
  · rcases List.mem_flatMap.mp inside with ⟨resolution, resolutionMember, filedMember⟩
    rcases forall₂_of_mem_right each resolutionMember with ⟨⟨child, index⟩, timed, -, tells⟩
    rcases tells filed filedMember with ⟨steps, line, inner, lineage, samePath, tellsOf⟩
    refine ⟨index :: steps, element :: line, inner, .inside timed lineage, ?_, tellsOf⟩
    rw [samePath, List.append_assoc]
    rfl
  · cases List.mem_singleton.mp own
    exact ⟨[], [element], element, .here element, (List.append_nil path).symm, rfl, rfl⟩

theorem Resolves.exists_entry {steps : Path} {line : List Element}
    (resolves : Resolves rules frame path root resolution)
    (lineage : Lineage rules.kinds root steps line element) :
    ∃ instant ending,
      (instant, ⟨element.tag, element.xmlId?, path ++ steps, ending⟩) ∈
        resolution.entries := by
  rcases resolves.along lineage with ⟨above, settled, elementResolves, -, part⟩
  rcases elementResolves.concludes with ⟨usable, resolutions, rfl, -⟩
  exact ⟨_, _, part (List.mem_append_right _ (List.mem_singleton_self _))⟩

/-- A timeline has exactly one entry for each timed element, and no others. In whatever
document the root stands at its path, the path of an entry leads to the element that the
entry tells of. -/
theorem resolve_records_timed (resolved : (resolve rules path root).result = .ok resolution) :
    (∀ steps line element, Lineage rules.kinds root steps line element →
      ∃ ending, resolution.timeline.entries.filter
          (fun entry => entry.path == path ++ steps) =
        [⟨element.tag, element.xmlId?, path ++ steps, ending⟩]) ∧
    ∀ entry ∈ resolution.timeline.entries, ∃ steps line element,
      Lineage rules.kinds root steps line element ∧ entry.path = path ++ steps ∧
        entry.TellsOf element ∧
        ∀ document : Element, document.at? path = some root →
          document.at? entry.path = some element := by
  have resolves : Resolves rules Frame.start path root resolution := resolved
  have recorded := Timeline.entries_ofList resolution.entries
  constructor
  · intro steps line element lineage
    rcases resolves.exists_entry lineage with ⟨instant, ending, member⟩
    have entered : ⟨element.tag, element.xmlId?, path ++ steps, ending⟩ ∈
        resolution.timeline.entries :=
      recorded.mem_iff.mpr (List.mem_map_of_mem member)
    refine ⟨ending, filter_path_eq ?_ entered⟩
    refine (recorded.map Entry.path).nodup_iff.mpr ?_
    rw [List.map_map]
    exact resolves.isPlaced.distinct
  · intro entry member
    rcases List.mem_map.mp (recorded.mem_iff.mp member) with ⟨filed, filedMember, rfl⟩
    rcases resolves.entry_tellsOf filed filedMember with
      ⟨steps, line, element, lineage, samePath, tells⟩
    refine ⟨steps, line, element, lineage, samePath, tells, fun document located => ?_⟩
    rw [samePath, Element.at?_append, located]
    exact lineage.at?_steps

def notedDivision : Element :=
  ⟨"div", [], [Element.bare "metadata", timedParagraph], none, none⟩

theorem resolve_records_timed_noted :
    ∃ resolution, (resolve plainCaptions.toRules [1] notedDivision).result =
        .ok resolution ∧
      ∃ ending, resolution.timeline.entries.filter (fun entry => entry.path == [1, 1]) =
        [⟨"p", none, [1, 1], ending⟩] := by
  rcases Attempt.exists_ok (by decide +kernel :
    (resolve plainCaptions.toRules [1] notedDivision).result.isOk = true)
    with ⟨resolution, resolved⟩
  have timed : (timedParagraph, 1) ∈ timedChildren plainCaptions.kinds notedDivision := by
    refine List.mem_filter.mpr ⟨List.mem_zipIdx_iff_getElem?.mpr rfl, ?_⟩
    decide +kernel
  exact ⟨resolution, resolved,
    (resolve_records_timed resolved).1 _ _ _ (.inside timed (.here timedParagraph))⟩

end Timing

end TimedText
