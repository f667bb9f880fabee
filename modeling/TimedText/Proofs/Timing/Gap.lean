import TimedText.Proofs.Number.Finite
import TimedText.Proofs.Timing.Crossing
import TimedText.Proofs.Timing.Interval
import TimedText.Timing.Gap
/-!
What is on screen in the gaps between subtitles. A gap is measured from the last instant at
which something shown begins: from the latest of the endings there to the next such instant.
Nothing that begins at that instant or later is on screen in the gap. What began earlier is
not looked at, and may still be on screen.
-/

namespace TimedText.Timing

/-! ## Gaps -/

section

variable {τ : Type}

structure Gap (τ : Type) where
  ending : τ
  beginning : τ
deriving DecidableEq

def Gap.interval (gap : Gap τ) : Interval τ := ⟨gap.ending, some gap.beginning⟩

/-- The gaps after those showings that end, each up to the next showing. -/
def gapsBetween : List (Showing τ) → List (Gap τ)
  | first :: second :: rest =>
    (first.ending.map fun ending => ⟨ending, second.beginning⟩).toList
      ++ gapsBetween (second :: rest)
  | _ => []

private theorem exists_of_mem_gapsBetween {showings : List (Showing τ)} {gap : Gap τ}
    (measured : gap ∈ gapsBetween showings) :
    ∃ before first second after, showings = before ++ first :: second :: after ∧
      first.ending = some gap.ending ∧ second.beginning = gap.beginning := by
  fun_induction gapsBetween showings with
  | case1 first second rest induction =>
      rcases List.mem_append.mp measured with here | later
      · rcases Option.map_eq_some_iff.mp (Option.mem_toList.mp here) with ⟨ending, ends, rfl⟩
        exact ⟨[], first, second, rest, rfl, ends, rfl⟩
      · rcases induction later with ⟨before, one, other, after, same, ends, begins⟩
        exact ⟨first :: before, one, other, after, congrArg (first :: ·) same, ends, begins⟩
  | case2 => cases measured

end

variable {τ : Type} [Quantity τ]

def Gap.findings (gap : Gap τ) : Log :=
  (checkGap gap.ending gap.beginning).findings

def Timeline.showings (timeline : Timeline τ) : List (Showing τ) :=
  timeline.filterMap Moment.showing?

def Timeline.gaps (timeline : Timeline τ) : List (Gap τ) :=
  gapsBetween timeline.showings

theorem checkShowings_findings : ∀ showings : List (Showing τ),
    (checkShowings showings).findings = (gapsBetween showings).flatMap Gap.findings
  | [] | [_] => rfl
  | first :: second :: rest => by
      have others := checkShowings_findings (second :: rest)
      rw [checkShowings, gapsBetween, List.flatMap_append, ← others]
      cases first.ending with
      | none => rfl
      | some ending => rw [Option.map_some, Option.toList_some, List.flatMap_singleton]; rfl

theorem mem_checkGaps_findings {timeline : Timeline τ} {gap : Gap τ}
    (measured : gap ∈ timeline.gaps) {finding : Finding} (found : finding ∈ gap.findings) :
    finding ∈ (checkGaps timeline).findings := by
  rw [checkGaps, checkShowings_findings]
  exact List.mem_flatMap.mpr ⟨gap, measured, found⟩

/-! ## Showings -/

structure ShownFrom (entries : List (τ × Entry τ)) (instant : τ) (entry : Entry τ) :
    Prop where
  entered : (instant, entry) ∈ entries
  isShown : entry.isShown = true

private theorem showing?_eq_some {moment : Moment τ} {showing : Showing τ}
    (shows : moment.showing? = some showing) :
    (∃ entry ∈ moment.entries, entry.isShown = true) ∧
      showing.beginning = moment.instant ∧
      showing.ending = latest ((moment.entries.filter Entry.isShown).map Entry.ending) := by
  rw [Moment.showing?] at shows
  split at shows
  next => cases shows
  next occupied =>
    cases shows
    refine ⟨?_, rfl, rfl⟩
    rcases List.exists_mem_of_ne_nil _ occupied with ⟨entry, member⟩
    exact ⟨entry, List.mem_filter.mp member⟩

private theorem exists_showing {moment : Moment τ} {entry : Entry τ}
    (member : entry ∈ moment.entries) (shown : entry.isShown = true) :
    ∃ showing, moment.showing? = some showing ∧ showing.beginning = moment.instant := by
  rw [Moment.showing?]
  split
  next none =>
    exact absurd (List.mem_filter.mpr ⟨member, shown⟩) (none ▸ List.not_mem_nil)
  next => exact ⟨_, rfl, rfl⟩

/-- How a gap is measured: from an instant at which something that is shown begins to the
next such instant, from when the last has ended of what is shown from the former. -/
structure Gap.IsMeasured (gap : Gap τ) (entries : List (τ × Entry τ)) (last : τ) :
    Prop where
  begun : ∃ entry, ShownFrom entries last entry
  ended : LatestEnding (fun ending => ∃ entry, ShownFrom entries last entry ∧
    entry.ending = ending) (some gap.ending)
  beginning : ∃ entry, ShownFrom entries gap.beginning entry
  later : Quantity.filedBefore last gap.beginning = true
  next : ∀ instant entry, ShownFrom entries instant entry →
    Quantity.filedBefore last instant = true →
      ¬Quantity.filedBefore instant gap.beginning = true

section

variable [Quantity.Ordered τ] {entries : List (τ × Entry τ)}

private theorem Timeline.IsSorted.eq_of_instant {timeline : Timeline τ} (sorted : timeline.IsSorted)
    {first second : Moment τ} (member : first ∈ timeline) (other : second ∈ timeline)
    (same : first.instant = second.instant) : first = second := by
  rcases List.getElem_of_mem member with ⟨index, bound, rfl⟩
  rcases List.getElem_of_mem other with ⟨place, limit, rfl⟩
  have ordered := List.pairwise_iff_getElem.mp sorted
  rcases lt_trichotomy index place with before | rfl | after
  · exact absurd (same ▸ ordered index place bound limit before)
      (Quantity.Ordered.filedBefore_irrefl _)
  · rfl
  · exact absurd (same ▸ ordered place index limit bound after)
      (Quantity.Ordered.filedBefore_irrefl _)

private theorem shownFrom_iff {moment : Moment τ} (member : moment ∈ Timeline.ofList entries)
    {entry : Entry τ} :
    ShownFrom entries moment.instant entry ↔
      entry ∈ moment.entries ∧ entry.isShown = true := by
  constructor
  · rintro ⟨entered, shown⟩
    rcases (Timeline.files_ofList entries).mpr entered with ⟨other, otherMember, same, inside⟩
    have equal := (Timeline.ofList_isSorted entries).eq_of_instant otherMember member same
    exact ⟨equal ▸ inside, shown⟩
  · rintro ⟨inside, shown⟩
    exact ⟨(Timeline.files_ofList entries).mp ⟨moment, member, rfl, inside⟩, shown⟩

private theorem Timeline.exists_moment {showing : Showing τ}
    (member : showing ∈ (ofList entries).showings) :
    (∃ entry, ShownFrom entries showing.beginning entry) ∧
      LatestEnding (fun ending => ∃ entry, ShownFrom entries showing.beginning entry ∧
        entry.ending = ending) showing.ending := by
  rcases List.mem_filterMap.mp member with ⟨moment, momentMember, shows⟩
  rcases showing?_eq_some shows with ⟨⟨entry, inside, shown⟩, begins, ends⟩
  rw [begins, ends]
  refine ⟨⟨entry, (shownFrom_iff momentMember).mpr ⟨inside, shown⟩⟩, ?_⟩
  refine (latest_latestEnding _).congr fun ending => ?_
  simp only [shownFrom_iff momentMember, List.mem_map, List.mem_filter]

private theorem Timeline.exists_showing_of_shownFrom {instant : τ} {entry : Entry τ}
    (shown : ShownFrom entries instant entry) :
    ∃ showing ∈ (ofList entries).showings, showing.beginning = instant := by
  rcases (files_ofList entries).mpr shown.entered with ⟨moment, member, rfl, inside⟩
  rcases exists_showing inside shown.isShown with ⟨showing, shows, begins⟩
  exact ⟨showing, List.mem_filterMap.mpr ⟨moment, member, shows⟩, begins⟩

private theorem Timeline.showings_sorted (entries : List (τ × Entry τ)) :
    (ofList entries).showings.Pairwise fun first later =>
      Quantity.filedBefore first.beginning later.beginning = true := by
  refine List.Pairwise.filterMap _ ?_ (ofList_isSorted entries)
  intro moment later before showing shows next nextShows
  rw [(showing?_eq_some shows).2.1, (showing?_eq_some nextShows).2.1]
  exact before

private theorem not_filedBefore_next {before after : List (Showing τ)}
    {first second showing : Showing τ}
    (sorted : (before ++ first :: second :: after).Pairwise fun first later =>
      Quantity.filedBefore first.beginning later.beginning = true)
    (member : showing ∈ before ++ first :: second :: after)
    (late : Quantity.filedBefore first.beginning showing.beginning = true) :
    ¬Quantity.filedBefore showing.beginning second.beginning = true := by
  intro early
  rcases List.pairwise_append.mp sorted with ⟨-, rest, earlier⟩
  rcases List.pairwise_cons.mp rest with ⟨-, rest⟩
  rcases List.pairwise_cons.mp rest with ⟨later, -⟩
  have contradicts {one other : τ} (forth : Quantity.filedBefore one other = true)
      (back : Quantity.filedBefore other one = true) : False :=
    Quantity.Ordered.filedBefore_irrefl one (Quantity.Ordered.filedBefore_trans forth back)
  rcases List.mem_append.mp member with inFront | member
  · exact contradicts late (earlier showing inFront first List.mem_cons_self)
  · rcases List.mem_cons.mp member with rfl | member
    · exact Quantity.Ordered.filedBefore_irrefl _ late
    · rcases List.mem_cons.mp member with rfl | behind
      · exact Quantity.Ordered.filedBefore_irrefl _ early
      · exact contradicts early (later showing behind)

theorem Timeline.isMeasured_of_mem_gaps {gap : Gap τ} (member : gap ∈ (ofList entries).gaps) :
    ∃ last, gap.IsMeasured entries last := by
  rcases exists_of_mem_gapsBetween member with
    ⟨before, first, ⟨beginning, ending⟩, after, showings, ends, rfl⟩
  have sorted := showings_sorted entries
  have inShowings {showing : Showing τ} (inside : showing ∈ first :: ⟨_, ending⟩ :: after) :
      showing ∈ (ofList entries).showings :=
    showings ▸ List.mem_append_right before inside
  rcases exists_moment (inShowings List.mem_cons_self) with ⟨begun, ended⟩
  rcases exists_moment (inShowings (List.mem_cons_of_mem _ List.mem_cons_self)) with ⟨next, -⟩
  refine ⟨first.beginning, begun, ends ▸ ended, next, ?_, ?_⟩
  · rw [showings] at sorted
    exact (List.pairwise_cons.mp (List.pairwise_append.mp sorted).2.1).1 _ List.mem_cons_self
  · intro instant entry shown late
    rcases exists_showing_of_shownFrom shown with ⟨showing, showingMember, rfl⟩
    rw [showings] at sorted showingMember
    exact not_filedBefore_next sorted showingMember late

/-- Nothing that is shown from the last instant before a gap, or from later on, is on
screen in the gap. -/
theorem Gap.IsMeasured.not_crosses {gap : Gap τ} {last instant : τ} {entry : Entry τ}
    (measured : gap.IsMeasured entries last) (shown : ShownFrom entries instant entry)
    (notEarlier : ¬Quantity.filedBefore instant last = true) :
    ¬(Interval.mk instant entry.ending).Crosses gap.interval := by
  intro crosses
  have early := Quantity.Ordered.filedBefore_of_less (crosses.before _ rfl)
  have notLater : ¬Quantity.filedBefore last instant = true := fun late =>
    measured.next instant entry shown late early
  -- Nothing begins between, so it begins at the last instant, with an ending there.
  cases Quantity.Ordered.eq_of_not_filedBefore notEarlier notLater
  rcases measured.ended with ⟨noneUnbounded, latest⟩
  cases ends : entry.ending with
  | none => exact noneUnbounded ⟨entry, shown, ends⟩
  | some ending =>
      have after := Quantity.Ordered.less_iff.mp (crosses.after ending ends)
      exact after.2.2 (latest.last ending ⟨entry, shown, ends⟩ after.2.1)

/-- Findings are made about the gaps that are measured, and nothing that is shown from the
last instant before such a gap, or from later on, is on screen in it. -/
theorem checkGaps_neighbours_off (entries : List (τ × Entry τ)) :
    (checkGaps (Timeline.ofList entries)).findings
        = (Timeline.ofList entries).gaps.flatMap Gap.findings ∧
      ∀ gap ∈ (Timeline.ofList entries).gaps, ∃ last, gap.IsMeasured entries last ∧
        ∀ instant entry, ShownFrom entries instant entry →
          ¬Quantity.filedBefore instant last = true →
            ¬(Interval.mk instant entry.ending).Crosses gap.interval := by
  refine ⟨checkShowings_findings _, fun gap member => ?_⟩
  rcases Timeline.isMeasured_of_mem_gaps member with ⟨last, measured⟩
  exact ⟨last, measured, fun _ _ shown notEarlier => measured.not_crosses shown notEarlier⟩

end

/-! ## What began earlier -/

/-- Paragraphs of which the first is on screen all the time, with two short ones meanwhile. -/
def overlaid : List (Float × Entry Float) :=
  let tag := Name.qualified Vocabulary.core "p"
  [(0, ⟨tag, some "a", [1, 0, 0], some 10⟩), (1, ⟨tag, some "b", [1, 0, 1], some 2⟩),
    (2.5, ⟨tag, some "c", [1, 0, 2], some 3⟩)]

def overlaidGap : Gap Float := ⟨2, 2.5⟩

theorem overlaidGap_mem : overlaidGap ∈ (Timeline.ofList overlaid).gaps := by
  decide +kernel

theorem overlaidGap_findings : overlaidGap.findings ≠ [] := by
  have found : overlaidGap.findings.isEmpty = false := by decide +kernel
  simpa using found

theorem checkGaps_neighbours_off_overlaid :
    overlaidGap.findings ≠ [] ∧
      overlaidGap ∈ (Timeline.ofList overlaid).gaps ∧
      ∃ last, overlaidGap.IsMeasured overlaid last ∧
        ∀ instant entry, ShownFrom overlaid instant entry →
          ¬Quantity.filedBefore instant last = true →
            ¬(Interval.mk instant entry.ending).Crosses overlaidGap.interval :=
  ⟨overlaidGap_findings, overlaidGap_mem,
    (checkGaps_neighbours_off overlaid).2 overlaidGap overlaidGap_mem⟩

theorem overlaid_isFinite : ∀ filed ∈ overlaid, Number.IsFinite filed.1 ∧
    ∀ ending, filed.2.ending = some ending → Number.IsFinite ending := by
  have below : ∀ filed ∈ overlaid, Number.bits filed.1 < Number.infinityPlace ∧
      ∀ ending ∈ filed.2.ending, Number.bits ending < Number.infinityPlace := by
    decide +kernel
  intro filed member
  exact ⟨Number.isFinite_of_bits (below filed member).1,
    fun ending ends => Number.isFinite_of_bits ((below filed member).2 ending ends)⟩

/-- A gap is reported while a paragraph is on screen that began before the last one. -/
theorem checkGaps_reports_shown :
    ¬∀ entries : List (Float × Entry Float),
      (∀ filed ∈ entries, Number.IsFinite filed.1 ∧
        ∀ ending, filed.2.ending = some ending → Number.IsFinite ending) →
      ∀ (gap : Gap Float) (finding : Finding), finding ∈ gap.findings →
        finding ∈ (checkGaps (Timeline.ofList entries)).findings →
        ∀ instant entry, ShownFrom entries instant entry →
          ¬(Interval.mk instant entry.ending).Crosses gap.interval := by
  intro blank
  rcases List.exists_mem_of_ne_nil _ overlaidGap_findings with ⟨finding, found⟩
  refine blank overlaid overlaid_isFinite overlaidGap finding found
    (mem_checkGaps_findings overlaidGap_mem found) 0 _
    ⟨List.mem_cons_self, by decide +kernel⟩ ⟨?_, ?_⟩
  · intro ending ends
    cases ends
    decide +kernel
  · intro ending ends
    cases ends
    decide +kernel

end TimedText.Timing
