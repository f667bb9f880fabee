import TimedText.Proofs.Timing.Walk
/-!
When timed elements begin and end. What an element and those around it set by
their attributes decides; what they leave open follows from the elements inside.
-/

namespace TimedText.Timing

open Quantity (Earliest EarliestOf Latest)

variable {τ : Type} [Quantity τ]

/-! ## The first to begin and the last to end -/

/-- The latest of some endings. An ending that is missing is later than all others,
and of no endings there is none. -/
def LatestEnding (endings : Option τ → Prop) : Option τ → Prop
  | none => endings none ∨ ∀ ending, ¬endings ending
  | some instant => ¬endings none ∧ Latest (fun other => endings (some other)) instant

theorem LatestEnding.congr {endings same : Option τ → Prop} {ending : Option τ}
    (latest : LatestEnding endings ending) (equal : ∀ other, same other ↔ endings other) :
    LatestEnding same ending := by
  rwa [show same = endings from funext fun other => propext (equal other)]

section

variable [Quantity.Ordered τ]

theorem latest_latestEnding (endings : List (Option τ)) :
    LatestEnding (· ∈ endings) (latest endings) := by
  fun_induction latest endings with
  | case1 => exact .inr fun ending => List.not_mem_nil
  | case2 ending =>
      cases ending with
      | none => exact .inl (List.mem_singleton_self none)
      | some instant =>
          refine ⟨by simp, (Quantity.latest_bounding instant).congr fun other => ?_⟩
          simp
  | case3 ending others more induction =>
      cases ending with
      | none => exact .inl List.mem_cons_self
      | some instant =>
          cases later : latest others with
          | none =>
              rw [later] at induction
              rcases induction with missing | nothing
              · exact .inl (List.mem_cons_of_mem _ missing)
              · exact absurd (List.eq_nil_iff_forall_not_mem.mpr nothing) more
          | some last =>
              rw [later] at induction
              rcases induction with ⟨present, latest⟩
              refine ⟨by simpa using present, (latest.greater instant).congr fun other => ?_⟩
              simp

private theorem earliest?_earliest (resolutions : List (Resolution τ)) :
    EarliestOf (fun instant => ∃ inner ∈ resolutions, inner.beginning = instant)
      (earliest? resolutions) := by
  cases resolutions with
  | nil => simp [EarliestOf, earliest?]
  | cons first rest =>
      have earliest := Quantity.foldl_smaller_earliest first.beginning
        (rest.map (·.beginning))
      rw [List.foldl_map] at earliest
      exact earliest.congr fun other => by simp [eq_comm]

end

/-! ## Intervals -/

def Timeline.Inside (timeline : Timeline τ) (kinds : List String) (path : Path)
    (element : Element) (inner : Interval τ) : Prop :=
  ∃ placed ∈ timedChildren kinds element,
    timeline.interval? (path ++ [placed.2]) = some inner

/-- How the interval of the last element of a line follows from what the line sets
and from the intervals inside of the element. -/
structure Interval.Follows (rules : Rules τ) (line : List Element)
    (inside : Interval τ → Prop) (interval : Interval τ) : Prop where
  beginning_of_set : SetsBegin line → interval.beginning = rules.epoch line
  beginning_of_unset : ¬SetsBegin line →
    ∃ first, EarliestOf (fun instant => ∃ inner, inside inner ∧ inner.beginning = instant)
      first ∧ interval.beginning = first.getD (rules.epoch line)
  ending_of_set : rules.SetsEnd line → EarliestOf (rules.Bound line) interval.ending
  ending_of_unset : ¬rules.SetsEnd line →
    LatestEnding (fun ending => ∃ inner, inside inner ∧ inner.ending = ending)
      interval.ending

theorem Interval.Follows.congr {rules : Rules τ} {line : List Element}
    {inside same : Interval τ → Prop}
    {interval : Interval τ} (follows : interval.Follows rules line inside)
    (equal : ∀ inner, same inner ↔ inside inner) : interval.Follows rules line same := by
  rwa [show same = inside from funext fun inner => propext (equal inner)]

theorem RuleSet.setsEnd_of_bound {rules : RuleSet τ} {line : List Element} {bound : τ}
    (given : rules.Bound line bound) : rules.SetsEnd line := by
  cases given with
  | @ending above element seconds onLine usable =>
      refine ⟨element, onLine.subset (by simp), .inl ?_⟩
      by_contra absent
      have missing := Rules.seconds?_of_ok (rules.absent (Bool.not_eq_true _ ▸ absent))
      cases missing.symm.trans usable
  | @duration above element seconds onLine usable =>
      exact ⟨element, onLine.subset (by simp), .inr (by rw [usable]; rfl)⟩

/-! ## What is concluded -/

section

variable {own : Frame τ} {resolutions : List (Resolution τ)}
  (element : Element) (path : Path) (usable : Bool)

theorem conclude_beginning_of_set (set : own.set.begins = true) :
    (conclude element path usable own resolutions).beginning = own.epoch :=
  if_pos set

theorem conclude_ending_of_set (set : own.set.ends = true ∨ resolutions = []) :
    (conclude element path usable own resolutions).ending = own.bound :=
  if_pos (by simpa using set)

theorem Resolves.ending_of_set {rules : Rules τ} {frame : Frame τ} {element : Element}
    {path : Path} {resolution : Resolution τ}
    (resolves : Resolves rules frame path element resolution)
    (set : (rules.frameInside frame element).set.ends = true) :
    resolution.ending = (rules.frameInside frame element).bound := by
  rcases resolves.concludes with ⟨usable, resolutions, rfl, -⟩
  exact conclude_ending_of_set _ _ _ (.inl set)

variable [Quantity.Ordered τ]

theorem conclude_beginning_of_unset (unset : ¬own.set.begins = true) :
    ∃ first, EarliestOf (fun instant => ∃ inner ∈ resolutions, inner.beginning = instant)
        first ∧
      (conclude element path usable own resolutions).beginning = first.getD own.epoch :=
  ⟨earliest? resolutions, earliest?_earliest resolutions, if_neg unset⟩

theorem conclude_ending_of_unset (unset : ¬own.set.ends = true)
    (occupied : resolutions ≠ []) :
    LatestEnding (fun ending => ∃ inner ∈ resolutions, inner.ending = ending)
      (conclude element path usable own resolutions).ending := by
  have latest : (conclude element path usable own resolutions).ending =
      latest (resolutions.map (·.ending)) := if_neg (by simp [unset, occupied])
  rw [latest]
  exact (latest_latestEnding _).congr fun ending => by simp

end

section

variable [Quantity.Ordered τ] {line : List Element} {element : Element} {path : Path}

/-- What is concluded of an element follows from what its line sets and from what
is concluded of its timed children. -/
theorem conclude_follows {rules : RuleSet τ} {own : Frame τ}
    (describes : own.Describes rules.toRules line) (usable : Bool)
    (resolutions : List (Resolution τ)) :
    (conclude element path usable own resolutions).interval.Follows rules.toRules line
      (fun inner => ∃ resolution ∈ resolutions, resolution.interval = inner) where
  beginning_of_set := by
    intro set
    rw [← describes.epoch]
    exact conclude_beginning_of_set element path usable (describes.begins.mpr set)
  beginning_of_unset := by
    intro unset
    rcases conclude_beginning_of_unset element path usable
      (describes.begins.not.mpr unset) with ⟨first, earliest, begins⟩
    refine ⟨first, earliest.congr fun instant => ?_, describes.epoch ▸ begins⟩
    simp [Resolution.interval]
  ending_of_set := by
    intro set
    rw [Resolution.interval, conclude_ending_of_set _ _ _ (.inl (describes.ends.mpr set))]
    exact describes.bound
  ending_of_unset := by
    intro unset
    have unbounded : own.bound = none := by
      cases bound : own.bound with
      | none => rfl
      | some instant =>
          have earliest := describes.bound
          rw [bound] at earliest
          exact absurd (RuleSet.setsEnd_of_bound earliest.isCandidate) unset
    by_cases empty : resolutions = []
    · rw [Resolution.interval, conclude_ending_of_set _ _ _ (.inr empty), unbounded]
      exact .inr (by simp [empty])
    · have latest := conclude_ending_of_unset element path usable
        (describes.ends.not.mpr unset) empty
      exact latest.congr fun ending => by simp [Resolution.interval]

theorem inside_iff {rules : Rules τ} {frame : Frame τ} {whole : Resolution τ}
    {root : Path} {resolutions : List (Resolution τ)} (placed : whole.IsPlaced root)
    (each : List.Forall₂
      (fun placed inner => Resolves rules frame (path ++ [placed.2]) placed.1 inner)
      (timedChildren rules.kinds element) resolutions)
    (part : ∀ inner ∈ resolutions, inner.entries ⊆ whole.entries) (interval : Interval τ) :
    whole.timeline.Inside rules.kinds path element interval ↔
      ∃ inner ∈ resolutions, inner.interval = interval := by
  constructor
  · rintro ⟨child, timed, interval?⟩
    rcases forall₂_of_mem_left each timed with ⟨inner, member, resolves⟩
    have found := resolves.interval?_eq placed (part inner member)
    exact ⟨inner, member, Option.some_inj.mp (found.symm.trans interval?)⟩
  · rintro ⟨inner, member, rfl⟩
    rcases forall₂_of_mem_right each member with ⟨child, timed, resolves⟩
    exact ⟨child, timed, resolves.interval?_eq placed (part inner member)⟩

/-- Every timed element begins and ends as its line sets, and where the line leaves
this open, as the elements inside do. -/
theorem resolve_intervals_follow (rules : RuleSet τ) {path : Path} {root : Element}
    {resolution : Resolution τ}
    (resolved : (resolve rules.toRules path root).result = .ok resolution)
    {steps : Path} (lineage : Lineage rules.kinds root steps line element) :
    ∃ interval, resolution.timeline.interval? (path ++ steps) = some interval ∧
      interval.Follows rules.toRules line
        (resolution.timeline.Inside rules.kinds (path ++ steps) element) := by
  have resolves : Resolves rules.toRules Frame.start path root resolution := resolved
  rcases resolves.along lineage with ⟨above, settled, elementResolves, frames, part⟩
  refine ⟨settled.interval, elementResolves.interval?_eq resolves.isPlaced part, ?_⟩
  have describes := Frame.foldl_describes rules.toRules line
  rw [← frames] at describes
  rcases elementResolves.concludes with ⟨usable, resolutions, rfl, each⟩
  refine (conclude_follows describes usable resolutions).congr ?_
  apply inside_iff resolves.isPlaced each
  intro inner member filed filedMember
  exact part (List.mem_append_left _ (List.mem_flatMap.mpr ⟨inner, member, filedMember⟩))

end

def timedParagraph : Element := ⟨"p", [("begin", "2s"), ("end", "3s")], [], none, none⟩

def timedDivision : Element := ⟨"div", [], [timedParagraph], none, none⟩

def plainCaptions : TimeRules Float :=
  .captions .undeclared Time.Parameters.undeclared_areUnsigned

theorem timedDivision_children :
    timedChildren plainCaptions.kinds timedDivision = [(timedParagraph, 0)] := by
  rw [timedChildren, show timedDivision.children.zipIdx = [(timedParagraph, 0)] from rfl,
    List.filter_cons_of_pos (by decide +kernel), List.filter_nil]

theorem resolve_intervals_follow_division :
    ∃ resolution, (resolve plainCaptions.toRules [1] timedDivision).result =
        .ok resolution ∧
      ∃ interval, resolution.timeline.interval? [1] = some interval ∧
        interval.Follows plainCaptions.toRules [timedDivision]
          (resolution.timeline.Inside plainCaptions.kinds [1] timedDivision) := by
  rcases Attempt.exists_ok (by decide +kernel :
    (resolve plainCaptions.toRules [1] timedDivision).result.isOk = true)
    with ⟨resolution, resolved⟩
  exact ⟨resolution, resolved,
    resolve_intervals_follow plainCaptions.toRuleSet resolved (.here timedDivision)⟩

end TimedText.Timing
