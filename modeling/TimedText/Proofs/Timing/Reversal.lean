import TimedText.Proofs.Timing.Nesting
/-!
Reversed intervals, which end before they begin. Nothing in a resolution rules them
out: there is one exactly if the begins along some line add up to more than a bound
along it allows.
-/

namespace TimedText.Timing

open Quantity (IsDefined EarliestOf lessOrEqual less)

variable {τ : Type} [Quantity τ]

def Interval.IsReversed (interval : Interval τ) : Prop :=
  ∃ last, interval.ending = some last ∧ less last interval.beginning

def Frame.IsReversed (frame : Frame τ) : Prop :=
  ∃ bound, frame.bound = some bound ∧ less bound frame.epoch

/-- Some line inside of an element leads from a frame to a reversed one. -/
def Rules.ReversesFrame (rules : Rules τ) (frame : Frame τ) (element : Element) : Prop :=
  ∃ steps line inner, Lineage rules.kinds element steps line inner ∧
    (line.foldl rules.frameInside frame).IsReversed

def Timeline.RunsForward (timeline : Timeline τ) : Prop :=
  ∀ instant entry, timeline.Files instant entry →
    ∀ ending, entry.ending = some ending → less ending instant = false

section

variable [Quantity.Ordered τ]

private theorem Interval.Within.isReversed {inner outer : Interval τ} (within : inner.Within outer)
    (reversed : outer.IsReversed) : inner.IsReversed := by
  rcases reversed with ⟨last, ends, before⟩
  rcases within.ends last ends with ⟨instant, innerEnds, le⟩
  have before := Quantity.Ordered.less_of_le_of_less le before
  exact ⟨instant, innerEnds, Quantity.Ordered.less_of_less_of_le before within.begins⟩

theorem Frame.Describes.isReversed_iff {rules : Rules τ} {frame : Frame τ}
    {line : List Element} (describes : frame.Describes rules line) :
    frame.IsReversed ↔
      ∃ bound, rules.Bound line bound ∧ less bound (rules.epoch line) := by
  have earliest := describes.bound
  rw [Frame.IsReversed, describes.epoch]
  cases bound : frame.bound with
  | none =>
      rw [bound] at earliest
      simp [earliest _]
  | some instant =>
      rw [bound] at earliest
      constructor
      · rintro ⟨last, same, before⟩
        cases same
        exact ⟨instant, earliest.isCandidate, before⟩
      · rintro ⟨other, given, before⟩
        have le := earliest.first other given (Quantity.Ordered.less_iff.mp before).1
        exact ⟨instant, rfl, Quantity.Ordered.less_of_le_of_less le before⟩

end

/-! ## Where reversal comes from -/

private theorem Resolves.own_entry {rules : Rules τ} {frame : Frame τ} {path : Path}
    {element : Element} {resolution : Resolution τ}
    (resolves : Resolves rules frame path element resolution) :
    ∃ entry, (resolution.beginning, entry) ∈ resolution.entries ∧
      entry.ending = resolution.ending := by
  rcases resolves.concludes with ⟨usable, resolutions, rfl, -⟩
  exact ⟨_, List.mem_append_right _ (List.mem_singleton_self _), rfl⟩

section

variable [Quantity.Cumulative τ] {rules : TimeRules τ} {frame : Frame τ} {path : Path}
  {element : Element} {resolution : Resolution τ}

/-- A reversed entry comes from a reversed frame: what is inside of a reversed element
is reversed too, and an element with nothing inside is as its frame is. -/
theorem Resolves.reversesFrame
    (resolves : Resolves rules.toRules frame path element resolution) :
    frame.IsRegular → rules.DefinedWithin element →
      ∀ filed ∈ resolution.entries, Interval.IsReversed ⟨filed.1, filed.2.ending⟩ →
        rules.ReversesFrame frame element := by
  refine resolves.induct (motive := fun frame _ element resolution =>
    frame.IsRegular → rules.DefinedWithin element →
      ∀ filed ∈ resolution.entries, Interval.IsReversed ⟨filed.1, filed.2.ending⟩ →
        rules.ReversesFrame frame element) ?_
  intro frame path element usable resolutions each regular times filed member reversed
  have own := regular.inside times.here
  have inside : ∀ inner ∈ resolutions, ∀ filed ∈ inner.entries,
      Interval.IsReversed ⟨filed.1, filed.2.ending⟩ → rules.ReversesFrame frame element := by
    intro inner innerMember filed member reversed
    rcases forall₂_of_mem_right each innerMember with ⟨child, timed, -, holds⟩
    rcases holds own (times.child timed) filed member reversed
      with ⟨steps, line, further, lineage, frameReversed⟩
    exact ⟨_, _, further, .inside timed lineage, frameReversed⟩
  rcases List.mem_append.mp member with member | member
  · rcases List.mem_flatMap.mp member with ⟨inner, innerMember, member⟩
    exact inside inner innerMember filed member reversed
  · cases List.mem_singleton.mp member
    cases resolutions with
    | nil =>
        refine ⟨[], [element], element, .here element, ?_⟩
        simpa [earliest?, Interval.IsReversed, Frame.IsReversed] using reversed
    | cons inner others =>
        have innerMember := List.mem_cons_self (a := inner) (l := others)
        rcases forall₂_of_mem_right each innerMember with ⟨child, timed, childResolves, -⟩
        have within : inner.interval.Within
            (conclude element path usable _ (inner :: others)).interval :=
          own.conclude_within childResolves (times.child timed) usable innerMember
        rcases childResolves.own_entry with ⟨entry, entryMember, ends⟩
        apply inside inner innerMember (inner.beginning, entry) entryMember
        rw [ends]
        exact within.isReversed reversed

theorem IsPart.reversed_entry {whole : Resolution τ}
    (isPart : IsPart rules whole frame path element resolution)
    (set : (rules.frameInside frame element).set.ends = true)
    (reversed : (rules.frameInside frame element).IsReversed) :
    ∃ filed ∈ whole.entries, Interval.IsReversed ⟨filed.1, filed.2.ending⟩ := by
  rcases isPart.resolves.own_entry with ⟨entry, member, ends⟩
  rcases reversed with ⟨bound, bounded, before⟩
  refine ⟨_, isPart.part member, bound, ?_, ?_⟩
  · rw [ends, isPart.resolves.ending_of_set set, bounded]
  · have le := (isPart.resolves.regular isPart.regular isPart.times).1
    exact Quantity.Ordered.less_of_less_of_le before le

/-- Every timed element ends no earlier than it begins exactly if along no line the
begins add up to an instant after a bound. -/
theorem resolve_runsForward_iff (rules : TimeRules τ) {path : Path} {root : Element}
    {resolution : Resolution τ}
    (resolved : (resolve rules.toRules path root).result = .ok resolution)
    (times : rules.DefinedWithin root) :
    resolution.timeline.RunsForward ↔
      ∀ steps line element, Lineage rules.kinds root steps line element →
        ∀ bound, rules.Bound line bound → less bound (rules.epoch line) = false := by
  have part := isPart_root resolved times
  constructor
  · intro forward steps line element lineage bound given
    by_contra notForward
    have before : less bound (rules.epoch line) = true := by simpa using notForward
    have describes := Frame.foldl_describes rules.toRules line
    rcases part.along lineage with ⟨above, settled, settledPart, frames, -⟩
    rw [← frames] at describes
    have set := describes.ends.mpr (RuleSet.setsEnd_of_bound given)
    have reversed := describes.isReversed_iff.mpr ⟨bound, given, before⟩
    rcases settledPart.reversed_entry set reversed with ⟨filed, member, last, ends, before⟩
    have files := (Timeline.files_ofList resolution.entries).mpr member
    rw [forward filed.1 filed.2 files last ends] at before
    cases before
  · intro forward instant entry files ending ends
    by_contra notForward
    have before : less ending instant = true := by simpa using notForward
    have member := (Timeline.files_ofList resolution.entries).mp files
    rcases part.resolves.reversesFrame part.regular times _ member ⟨ending, ends, before⟩
      with ⟨steps, line, inner, lineage, reversed⟩
    have describes := Frame.foldl_describes rules.toRules line
    rcases describes.isReversed_iff.mp reversed with ⟨bound, given, before⟩
    rw [forward steps line inner lineage bound given] at before
    cases before

end

def reversedParagraph : Element :=
  ⟨Name.qualified Vocabulary.core "p", [("begin", "5s"), ("end", "3s")], [], none, none⟩

private theorem reversedParagraph_definedWithin :
    plainCaptions.DefinedWithin reversedParagraph :=
  .of_children (by decide +kernel) fun _ => nofun

theorem resolve_runsForward_iff_reversed :
    ∃ resolution, (resolve plainCaptions.toRules [] reversedParagraph).result =
        .ok resolution ∧
      ¬resolution.timeline.RunsForward := by
  rcases Attempt.exists_ok (by decide +kernel :
    (resolve plainCaptions.toRules [] reversedParagraph).result.isOk = true)
    with ⟨resolution, resolved⟩
  refine ⟨resolution, resolved, fun forward => ?_⟩
  have endsBefore : ((plainCaptions.seconds? reversedParagraph "end").any fun seconds =>
      less (Quantity.add (plainCaptions.epoch []) seconds)
        (plainCaptions.epoch [reversedParagraph])) = true := by
    decide +kernel
  rcases (Option.any_eq_true _ _).mp endsBefore with ⟨seconds, usable, before⟩
  have onLine : [] ++ [reversedParagraph] <+: [reversedParagraph] := List.prefix_refl _
  have kept := (resolve_runsForward_iff plainCaptions resolved
    reversedParagraph_definedWithin).mp forward [] _ _ (.here reversedParagraph) _
      (.ending onLine usable)
  cases before.symm.trans kept

end TimedText.Timing
