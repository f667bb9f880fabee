import TimedText.Proofs.Timing.Interval
/-!
Intervals nest. A timed element begins no earlier than those around it, and ends
no later than any of them that ends: a bound is passed on to all elements inside,
and an element that is left open is as wide as what is inside of it.
-/

namespace TimedText.Timing

open Quantity (IsDefined EarliestOf lessOrEqual)

variable {τ : Type} [Quantity τ]

/-! ## Order of endings -/

/-- An ending is no later than another one; none is later than all others. -/
def NoLater (ending bound : Option τ) : Prop :=
  ∀ last, bound = some last → ∃ instant, ending = some instant ∧ lessOrEqual instant last

structure Interval.Within (inner outer : Interval τ) : Prop where
  begins : lessOrEqual outer.beginning inner.beginning
  ends : NoLater inner.ending outer.ending

section

variable [Quantity.Ordered τ]

private theorem NoLater.trans {first second third : Option τ} (left : NoLater first second)
    (right : NoLater second third) : NoLater first third := by
  intro last ends
  rcases right last ends with ⟨middle, middleEnds, le⟩
  rcases left middle middleEnds with ⟨instant, firstEnds, leMiddle⟩
  exact ⟨instant, firstEnds, Quantity.Ordered.trans leMiddle le⟩

private theorem Interval.Within.trans {first second third : Interval τ}
    (inner : third.Within second) (outer : second.Within first) : third.Within first where
  begins := Quantity.Ordered.trans outer.begins inner.begins
  ends := inner.ends.trans outer.ends

private theorem narrow_noLater {bound : Option τ}
    (defined : ∀ instant, bound = some instant → IsDefined instant) (epoch : τ)
    (seconds : Option τ) : NoLater (narrow bound epoch seconds) bound := by
  rintro last rfl
  cases seconds with
  | none => exact ⟨last, rfl, defined last rfl⟩
  | some given => exact ⟨_, rfl, Quantity.Ordered.smaller_le_left _ (defined last rfl)⟩

private theorem narrow_defined {bound : Option τ} {epoch : τ} {seconds : Option τ}
    (defined : ∀ instant, bound = some instant → IsDefined instant)
    (sums : ∀ given, seconds = some given → IsDefined (Quantity.add epoch given))
    (instant : τ) (narrowed : narrow bound epoch seconds = some instant) :
    IsDefined instant := by
  cases seconds with
  | none => exact defined instant narrowed
  | some given =>
      cases bound with
      | none =>
          cases narrowed
          exact sums given rfl
      | some last =>
          cases narrowed
          have le := Quantity.Ordered.smaller_le_left (Quantity.add epoch given)
            (defined last rfl)
          exact (Quantity.Ordered.defined le).1

end

/-! ## Defined times -/

/-- All times are defined that an element and the timed elements inside give. -/
def Rules.DefinedWithin (rules : Rules τ) (element : Element) : Prop :=
  ∀ steps line inner, Lineage rules.kinds element steps line inner →
    ∀ seconds ∈ rules.times inner, IsDefined seconds

theorem Rules.DefinedWithin.here {rules : Rules τ} {element : Element}
    (defined : rules.DefinedWithin element) :
    ∀ seconds ∈ rules.times element, IsDefined seconds :=
  defined [] [element] element (.here element)

theorem Rules.DefinedWithin.child {rules : Rules τ} {element : Element}
    (defined : rules.DefinedWithin element) {placed : Element × Nat}
    (timed : placed ∈ timedChildren rules.kinds element) :
    rules.DefinedWithin placed.1 := by
  intro steps line inner lineage
  exact defined _ _ inner (.inside timed lineage)

theorem Rules.DefinedWithin.of_children {rules : Rules τ} {element : Element}
    (here : ∀ seconds ∈ rules.times element, IsDefined seconds)
    (inside : ∀ placed ∈ timedChildren rules.kinds element, rules.DefinedWithin placed.1) :
    rules.DefinedWithin element := by
  intro steps line inner lineage
  cases lineage with
  | here => exact here
  | inside timed further => exact inside _ timed _ _ inner further

private theorem TimeRules.not_less_zero {rules : TimeRules τ} {element : Element} {seconds : τ}
    (given : seconds ∈ rules.times element) :
    Quantity.less seconds Quantity.zero = false := by
  have unsigned {name : String} (usable : rules.seconds? element name = some seconds) :
      Quantity.less seconds Quantity.zero = false := by
    rw [Rules.seconds?] at usable
    split at usable
    next value _ result =>
      cases usable
      exact rules.unsigned result
    next => cases usable
  rcases Rules.mem_times.mp given with usable | usable | usable
  · exact unsigned usable
  · exact unsigned usable
  · rw [Rules.duration?] at usable
    split at usable
    · exact unsigned usable
    · cases usable

/-! ## Frames -/

/-- A frame counts from zero upwards, to a bound that is defined if there is one. -/
structure Frame.IsRegular (frame : Frame τ) : Prop where
  epoch : lessOrEqual Quantity.zero frame.epoch
  bound : ∀ instant, frame.bound = some instant → IsDefined instant

section

variable [Quantity.Cumulative τ] {rules : TimeRules τ} {frame : Frame τ}
  {element : Element}

private theorem Frame.start_isRegular : (Frame.start : Frame τ).IsRegular where
  epoch := Quantity.Cumulative.zero_defined
  bound := fun _ => nofun

private theorem TimeRules.zero_le {seconds : τ} (given : seconds ∈ rules.times element)
    (defined : IsDefined seconds) : lessOrEqual Quantity.zero seconds := by
  by_contra notLe
  have less := Quantity.Ordered.less_iff.mpr
    ⟨defined, Quantity.Cumulative.zero_defined, notLe⟩
  rw [rules.not_less_zero given] at less
  cases less

private theorem TimeRules.sum_defined {epoch seconds : τ} (counts : lessOrEqual Quantity.zero epoch)
    (given : seconds ∈ rules.times element) (defined : IsDefined seconds) :
    IsDefined (Quantity.add epoch seconds) := by
  have le := Quantity.Cumulative.le_add counts (rules.zero_le given defined)
  exact (Quantity.Ordered.defined le).2

namespace Frame.IsRegular

variable (regular : frame.IsRegular)
  (times : ∀ seconds ∈ rules.times element, IsDefined seconds)

include regular times

private theorem epoch_le : lessOrEqual frame.epoch (rules.frameInside frame element).epoch := by
  apply Quantity.Cumulative.le_add regular.epoch
  cases begins : rules.seconds? element "begin" with
  | none => exact Quantity.Cumulative.zero_defined
  | some seconds =>
      have given := Rules.mem_times.mpr (.inl begins)
      exact rules.zero_le given (times seconds given)

private theorem ended_defined (instant : τ)
    (ended : narrow frame.bound frame.epoch (rules.seconds? element "end") = some instant) :
    IsDefined instant := by
  refine narrow_defined regular.bound (fun seconds usable => ?_) instant ended
  have given := Rules.mem_times.mpr (.inr (.inl usable))
  exact rules.sum_defined regular.epoch given (times seconds given)

theorem inside : (rules.frameInside frame element).IsRegular := by
  have epoch := Quantity.Ordered.trans regular.epoch (regular.epoch_le times)
  refine ⟨epoch, narrow_defined (regular.ended_defined times) fun seconds usable => ?_⟩
  have given := Rules.mem_times.mpr (.inr (.inr usable))
  exact rules.sum_defined epoch given (times seconds given)

private theorem bound_noLater : NoLater (rules.frameInside frame element).bound frame.bound :=
  (narrow_noLater (regular.ended_defined times) _ _).trans
    (narrow_noLater regular.bound _ _)

omit times

variable {path : Path} {usable : Bool} {resolutions : List (Resolution τ)}

private theorem epoch_le_conclude
    (inside : ∀ inner ∈ resolutions, lessOrEqual frame.epoch inner.beginning) :
    lessOrEqual frame.epoch
      (conclude element path usable frame resolutions).beginning := by
  have reflexive := (Quantity.Ordered.defined regular.epoch).2
  by_cases set : frame.set.begins = true
  · rwa [conclude_beginning_of_set _ _ _ set]
  · rcases conclude_beginning_of_unset element path usable set with ⟨first, earliest, begins⟩
    rw [begins]
    cases first with
    | none => exact reflexive
    | some instant =>
        rcases earliest.isCandidate with ⟨inner, member, rfl⟩
        exact inside inner member

private theorem conclude_ending_defined
    (inside : ∀ inner ∈ resolutions, ∀ instant, inner.ending = some instant →
      IsDefined instant) (instant : τ)
    (ends : (conclude element path usable frame resolutions).ending = some instant) :
    IsDefined instant := by
  by_cases decided : frame.set.ends = true ∨ resolutions = []
  · rw [conclude_ending_of_set _ _ _ decided] at ends
    exact regular.bound instant ends
  · rcases not_or.mp decided with ⟨unset, occupied⟩
    have latest := conclude_ending_of_unset element path usable unset occupied
    rw [ends] at latest
    rcases List.exists_mem_of_ne_nil _ occupied with ⟨inner, member⟩
    cases innerEnds : inner.ending with
    | none => exact absurd ⟨inner, member, innerEnds⟩ latest.1
    | some other =>
        have le := latest.2.last other ⟨inner, member, innerEnds⟩
          (inside inner member other innerEnds)
        exact (Quantity.Ordered.defined le).2

end Frame.IsRegular

/-! ## Elements and what is inside -/

variable {path : Path} {resolution : Resolution τ}

theorem Resolves.regular (resolves : Resolves rules.toRules frame path element resolution) :
    frame.IsRegular → rules.DefinedWithin element →
      lessOrEqual (rules.frameInside frame element).epoch resolution.beginning ∧
        ∀ instant, resolution.ending = some instant → IsDefined instant := by
  refine resolves.induct (motive := fun frame _ element resolution =>
    frame.IsRegular → rules.DefinedWithin element →
      lessOrEqual (rules.frameInside frame element).epoch resolution.beginning ∧
        ∀ instant, resolution.ending = some instant → IsDefined instant) ?_
  intro frame path element usable resolutions each regular times
  have own := regular.inside times.here
  have inside : ∀ inner ∈ resolutions,
      lessOrEqual (rules.frameInside frame element).epoch inner.beginning ∧
        ∀ instant, inner.ending = some instant → IsDefined instant := by
    intro inner member
    rcases forall₂_of_mem_right each member with ⟨child, timed, -, holds⟩
    rcases holds own (times.child timed) with ⟨le, defined⟩
    exact ⟨Quantity.Ordered.trans (own.epoch_le (times.child timed).here) le, defined⟩
  exact ⟨own.epoch_le_conclude fun inner member => (inside inner member).1,
    own.conclude_ending_defined fun inner member => (inside inner member).2⟩

theorem Frame.IsRegular.conclude_within (regular : frame.IsRegular) {child : Element}
    {childPath : Path} {inner : Resolution τ}
    (resolves : Resolves rules.toRules frame childPath child inner)
    (times : rules.DefinedWithin child) (usable : Bool)
    {resolutions : List (Resolution τ)} (member : inner ∈ resolutions) :
    inner.interval.Within (conclude element path usable frame resolutions).interval := by
  rcases resolves.regular regular times with ⟨le, endingDefined⟩
  have epoch_le := Quantity.Ordered.trans (regular.epoch_le times.here) le
  constructor
  · by_cases set : frame.set.begins = true
    · rwa [Resolution.interval, conclude_beginning_of_set _ _ _ set]
    · rcases conclude_beginning_of_unset element path usable set
        with ⟨first, earliest, begins⟩
      rw [Resolution.interval, begins]
      cases first with
      | none => exact absurd ⟨inner, member, rfl⟩ (earliest inner.beginning)
      | some instant =>
          exact earliest.first inner.beginning ⟨inner, member, rfl⟩
            (Quantity.Ordered.defined epoch_le).2
  · by_cases set : frame.set.ends = true
    · have passedOn : (rules.frameInside frame child).set.ends = true := by
        simp [Rules.frameInside, set]
      rw [Resolution.interval, Resolution.interval, conclude_ending_of_set _ _ _ (.inl set),
        resolves.ending_of_set passedOn]
      exact regular.bound_noLater times.here
    · have latest := conclude_ending_of_unset element path usable set
        (List.ne_nil_of_mem member)
      intro last ends
      rw [show (conclude _ _ _ _ _).ending = _ from ends] at latest
      cases innerEnds : inner.ending with
      | none => exact absurd ⟨inner, member, innerEnds⟩ latest.1
      | some instant =>
          exact ⟨instant, innerEnds, latest.2.last instant ⟨inner, member, innerEnds⟩
            (endingDefined instant innerEnds)⟩

/-! ## Parts -/

/-- An element that resolves as a part of a whole, within a regular frame and with
defined times. -/
structure IsPart (rules : TimeRules τ) (whole : Resolution τ) (frame : Frame τ)
    (path : Path) (element : Element) (resolution : Resolution τ) : Prop where
  resolves : Resolves rules.toRules frame path element resolution
  part : resolution.entries ⊆ whole.entries
  regular : frame.IsRegular
  times : rules.DefinedWithin element

theorem isPart_root {root : Element}
    (resolved : (resolve rules.toRules path root).result = .ok resolution)
    (times : rules.DefinedWithin root) :
    IsPart rules resolution Frame.start path root resolution :=
  ⟨resolved, List.Subset.refl _, Frame.start_isRegular, times⟩

namespace IsPart

variable {whole : Resolution τ}

theorem interval?_eq {root : Path} (placed : whole.IsPlaced root)
    (isPart : IsPart rules whole frame path element resolution) :
    whole.timeline.interval? path = some resolution.interval :=
  isPart.resolves.interval?_eq placed isPart.part

private theorem within_self (isPart : IsPart rules whole frame path element resolution) :
    resolution.interval.Within resolution.interval := by
  rcases isPart.resolves.regular isPart.regular isPart.times with ⟨le, defined⟩
  exact ⟨(Quantity.Ordered.defined le).2, fun last ends => ⟨last, ends, defined last ends⟩⟩

private theorem child (isPart : IsPart rules whole frame path element resolution)
    {child : Element} {index : Nat}
    (timed : (child, index) ∈ timedChildren rules.kinds element) :
    ∃ inner, IsPart rules whole (rules.frameInside frame element) (path ++ [index]) child
        inner ∧
      inner.interval.Within resolution.interval := by
  rcases isPart with ⟨resolves, part, regular, times⟩
  rcases resolves.concludes with ⟨usable, resolutions, rfl, each⟩
  rcases forall₂_of_mem_left each timed with ⟨inner, member, innerResolves⟩
  have own := regular.inside times.here
  have childTimes := times.child timed
  refine ⟨inner, ⟨innerResolves, ?_, own, childTimes⟩,
    own.conclude_within innerResolves childTimes usable member⟩
  intro filed filedMember
  exact part (List.mem_append_left _ (List.mem_flatMap.mpr ⟨inner, member, filedMember⟩))

theorem along {steps : Path} {line : List Element} {inner : Element}
    (lineage : Lineage rules.kinds element steps line inner)
    (isPart : IsPart rules whole frame path element resolution) :
    ∃ above settled, IsPart rules whole above (path ++ steps) inner settled ∧
      rules.frameInside above inner = line.foldl rules.frameInside frame ∧
      settled.interval.Within resolution.interval := by
  induction lineage generalizing frame path resolution with
  | here element =>
      refine ⟨frame, resolution, ?_, rfl, isPart.within_self⟩
      rwa [List.append_nil]
  | @inside element child inner index steps line timed further induction =>
      rcases isPart.child timed with ⟨first, firstPart, within⟩
      rcases induction firstPart with ⟨above, settled, settledPart, frames, inside⟩
      rw [List.append_assoc] at settledPart
      exact ⟨above, settled, settledPart, frames, inside.trans within⟩

end IsPart

/-- Every timed element begins no earlier than each timed element that it is inside
of, and if that one ends, it ends no later. -/
theorem resolve_intervals_nest (rules : TimeRules τ) {path : Path} {root : Element}
    {resolution : Resolution τ}
    (resolved : (resolve rules.toRules path root).result = .ok resolution)
    (times : rules.DefinedWithin root) {above below : Path} {line inside : List Element}
    {outer inner : Element} (outerLineage : Lineage rules.kinds root above line outer)
    (innerLineage : Lineage rules.kinds outer below inside inner) :
    ∃ first second, resolution.timeline.interval? (path ++ above) = some first ∧
      resolution.timeline.interval? (path ++ above ++ below) = some second ∧
      second.Within first := by
  have root := isPart_root resolved times
  have placed := root.resolves.isPlaced
  rcases root.along outerLineage with ⟨above, first, firstPart, -, -⟩
  rcases firstPart.along innerLineage with ⟨around, second, secondPart, -, within⟩
  exact ⟨first.interval, second.interval, firstPart.interval?_eq placed,
    secondPart.interval?_eq placed, within⟩

end

private theorem timedDivision_definedWithin : plainCaptions.DefinedWithin timedDivision := by
  refine .of_children (by decide +kernel) ?_
  rw [timedDivision_children]
  refine List.forall_mem_singleton.mpr (.of_children (by decide +kernel) ?_)
  exact fun _ => nofun

theorem resolve_intervals_nest_division :
    ∃ resolution, (resolve plainCaptions.toRules [1] timedDivision).result =
        .ok resolution ∧
      ∃ first second, resolution.timeline.interval? [1] = some first ∧
        resolution.timeline.interval? [1, 0] = some second ∧
        second.Within first := by
  rcases Attempt.exists_ok (by decide +kernel :
    (resolve plainCaptions.toRules [1] timedDivision).result.isOk = true)
    with ⟨resolution, resolved⟩
  exact ⟨resolution, resolved,
    resolve_intervals_nest plainCaptions resolved timedDivision_definedWithin
      (.here timedDivision) (.inside (List.mem_singleton_self _) (.here timedParagraph))⟩

end TimedText.Timing
