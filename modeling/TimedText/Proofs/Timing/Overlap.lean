import TimedText.Proofs.Number.Place
import TimedText.Proofs.Run
import TimedText.Proofs.Timing.Timeline
import TimedText.Proofs.Verdict
import TimedText.Timing.Overlap
/-!
Which subtitles the search for overlaps finds: those that are still shown when one
that begins at a later instant is shown in a region that covers theirs. Two that
begin together are not looked at.
-/

namespace TimedText

namespace Timing

variable {τ : Type} [Quantity τ]

/-! ## Regions -/

private theorem Edges.cover_symm (first second : Edges τ) :
    second.cover first = first.cover second := by
  unfold cover
  ac_rfl

private theorem Regions.cover_iff {regions : Regions τ} {first second : String} :
    regions.cover first second = true ↔
      ∃ edges others, (first, edges) ∈ regions ∧ (second, others) ∈ regions ∧
        edges.cover others = true := by
  simp only [cover, List.any_eq_true, Prod.exists, Bool.and_eq_true, beq_iff_eq]
  constructor
  · rintro ⟨_, edges, member, rfl, _, others, otherMember, rfl, covers⟩
    exact ⟨edges, others, member, otherMember, covers⟩
  · rintro ⟨edges, others, member, otherMember, covers⟩
    exact ⟨first, edges, member, rfl, second, others, otherMember, rfl, covers⟩

private theorem Regions.coversAny_of_covers {regions : Regions τ} {first second : String}
    {edges others : Edges τ} (member : (first, edges) ∈ regions)
    (otherMember : (second, others) ∈ regions) (covers : edges.cover others = true) :
    regions.coversAny first = true := by
  simp only [coversAny, List.any_eq_true, Prod.exists, Bool.and_eq_true, beq_iff_eq]
  exact ⟨first, edges, member, rfl, second, others, otherMember, covers⟩

/-- Two subtitles are shown in different regions, and these cover each other. -/
def Collide (regions : Regions τ) (placement : Placement) (first second : Entry τ) :
    Prop :=
  first.localPart = "p" ∧ second.localPart = "p" ∧
    ∃ one other, Placement.regionAt? placement first.path = some one ∧
      Placement.regionAt? placement second.path = some other ∧ one ≠ other ∧
      ∃ edges others, (one, edges) ∈ regions ∧ (other, others) ∈ regions ∧
        edges.cover others = true

private theorem mem_placed {regions : Regions τ} {placement : Placement} {moment : Moment τ}
    {placed : Placed τ} :
    placed ∈ moment.placed regions placement ↔
      placed.entry ∈ moment.entries ∧ placed.entry.localPart = "p" ∧
        Placement.regionAt? placement placed.entry.path = some placed.region ∧
        regions.coversAny placed.region = true := by
  rcases placed with ⟨entry, region⟩
  simp only [Moment.placed, List.mem_filterMap, Option.ite_none_right_eq_some,
    Option.bind_eq_some_iff, Option.some.injEq, Placed.mk.injEq, beq_iff_eq]
  constructor
  · rintro ⟨_, member, part, _, shown, covers, rfl, rfl⟩
    exact ⟨member, part, shown, covers⟩
  · rintro ⟨member, part, shown, covers⟩
    exact ⟨entry, member, part, region, shown, covers, rfl, rfl⟩

/-! ## Pairs of subtitles -/

private theorem checkPlaced_valid (regions : Regions τ) (first later : Placed τ) :
    (checkPlaced regions first later).valid = true ↔
      ¬(first.region ≠ later.region ∧ regions.cover first.region later.region = true) := by
  rw [checkPlaced, Verdict.when_valid]
  simp [Verdict.against]

theorem Placed.lastsUntil_iff {placed : Placed τ} {instant : τ} :
    placed.lastsUntil instant = true ↔ ∀ ending, placed.entry.ending = some ending →
      Quantity.lessOrEqual ending instant = false := by
  cases ends : placed.entry.ending with
  | none => simp [lastsUntil, ends]
  | some ending => simp [lastsUntil, ends]

theorem collide_iff {regions : Regions τ} {placement : Placement} {now later : Moment τ}
    {first second : Entry τ} :
    first ∈ now.entries ∧ second ∈ later.entries ∧
        Collide regions placement first second ↔
      ∃ one ∈ now.placed regions placement, ∃ other ∈ later.placed regions placement,
        one.entry = first ∧ other.entry = second ∧
          ¬(checkPlaced regions one other).valid = true := by
  constructor
  · rintro ⟨firstMember, secondMember, firstPart, secondPart, one, other, firstShown,
      secondShown, different, edges, others, oneMember, otherMember, covers⟩
    have firstCovers := Regions.coversAny_of_covers oneMember otherMember covers
    have secondCovers := Regions.coversAny_of_covers otherMember oneMember
      ((Edges.cover_symm _ _).trans covers)
    refine ⟨⟨first, one⟩, mem_placed.mpr ⟨firstMember, firstPart, firstShown, firstCovers⟩,
      ⟨second, other⟩, mem_placed.mpr ⟨secondMember, secondPart, secondShown, secondCovers⟩,
      rfl, rfl, ?_⟩
    rw [checkPlaced_valid, not_not]
    exact ⟨different, Regions.cover_iff.mpr ⟨edges, others, oneMember, otherMember, covers⟩⟩
  · rintro ⟨one, onePlaced, other, otherPlaced, rfl, rfl, fails⟩
    rw [checkPlaced_valid, not_not] at fails
    rcases mem_placed.mp onePlaced with ⟨oneMember, onePart, oneShown, -⟩
    rcases mem_placed.mp otherPlaced with ⟨otherMember, otherPart, otherShown, -⟩
    exact ⟨oneMember, otherMember, onePart, otherPart, _, _, oneShown, otherShown, fails.1,
      Regions.cover_iff.mp fails.2⟩

theorem checkInstants_valid (regions : Regions τ) (instants : List (Instant τ)) :
    (checkInstants regions instants).valid = true ↔
      instants.Pairwise fun now later =>
        ∀ first ∈ now.2, first.lastsUntil later.1 = true →
          ∀ second ∈ later.2, (checkPlaced regions first second).valid = true := by
  induction instants with
  | nil => exact ⟨fun _ => .nil, fun _ => rfl⟩
  | cons now later induction =>
      rw [checkInstants, Verdict.append_valid, induction, List.pairwise_cons]
      refine and_congr_left fun _ => ?_
      simp only [Verdict.forEach_valid, Verdict.when_valid]
      exact ⟨fun holds later member first firstMember => holds first firstMember later member,
        fun holds first firstMember later member => holds later member first firstMember⟩

section

variable [Quantity.Ordered τ]

/-- The check fails exactly if a subtitle is still shown when one that begins at a
later instant is, and they collide. -/
theorem checkOverlaps_fails_iff {entries : List (τ × Entry τ)} {placement : Placement}
    {styles : Catalogue Style.Computed} {regions : Regions τ}
    (decoded : regionsOf styles = .ok regions) :
    (checkOverlaps (Timeline.ofList entries) placement styles).result = .ok false ↔
      ∃ first ∈ entries, ∃ later ∈ entries,
        Quantity.filedBefore first.1 later.1 = true ∧
          (∀ ending, first.2.ending = some ending →
            Quantity.lessOrEqual ending later.1 = false) ∧
          Collide regions placement first.2 later.2 := by
  have decodes : (Attempt.ofExcept (regionsOf (τ := τ) styles)).result = .ok regions := decoded
  have fails :
      (checkOverlaps (Timeline.ofList entries) placement styles).result = .ok false ↔
      ¬(checkInstants regions ((Timeline.ofList entries).map fun moment =>
        (moment.instant, moment.placed regions placement))).valid = true := by
    rw [checkOverlaps, Attempt.bind_of_ok decodes]
    simp [Attempt.judge]
  rw [fails, checkInstants_valid, List.pairwise_map,
    (Timeline.ofList_isSorted entries).pairwise_iff]
  constructor
  · intro missed
    by_contra noneCollide
    apply missed
    intro now nowMember later laterMember before one onePlaced lasts other otherPlaced
    by_contra invalid
    rcases collide_iff.mpr ⟨one, onePlaced, other, otherPlaced, rfl, rfl, invalid⟩
      with ⟨oneEntered, otherEntered, collide⟩
    have oneFiled := (Timeline.files_ofList entries).mp ⟨now, nowMember, rfl, oneEntered⟩
    have otherFiled :=
      (Timeline.files_ofList entries).mp ⟨later, laterMember, rfl, otherEntered⟩
    exact noneCollide
      ⟨_, oneFiled, _, otherFiled, before, Placed.lastsUntil_iff.mp lasts, collide⟩
  · rintro ⟨first, firstMember, second, secondMember, before, lasts, collide⟩ valid
    rcases (Timeline.files_ofList entries).mpr firstMember
      with ⟨now, nowMember, nowInstant, firstEntered⟩
    rcases (Timeline.files_ofList entries).mpr secondMember
      with ⟨later, laterMember, laterInstant, secondEntered⟩
    rcases collide_iff.mp ⟨firstEntered, secondEntered, collide⟩
      with ⟨one, onePlaced, other, otherPlaced, oneEntry, -, invalid⟩
    rw [← nowInstant, ← laterInstant] at before
    rw [← laterInstant, ← oneEntry] at lasts
    exact invalid (valid now nowMember later laterMember before one onePlaced
      (Placed.lastsUntil_iff.mpr lasts) other otherPlaced)

end

def simultaneous : List (Float × Entry Float) :=
  let tag := Name.qualified Vocabulary.core "p"
  [(0, ⟨tag, some "a", [1, 0, 0], some 2⟩), (0, ⟨tag, some "b", [1, 0, 1], some 2⟩)]

def stackedPlacement : Placement := [([1, 0, 0], "top"), ([1, 0, 1], "middle")]

def stackedStyles : Catalogue Style.Computed := .ofList [
  ("top", .ofList [("origin", "10% 10%"), ("extent", "80% 30%")]),
  ("middle", .ofList [("origin", "10% 30%"), ("extent", "80% 30%")])]

theorem checkOverlaps_fails_iff_simultaneous :
    ∃ regions : Regions Float, regionsOf stackedStyles = .ok regions ∧
      regions.cover "top" "middle" = true ∧
      (checkOverlaps (Timeline.ofList simultaneous) stackedPlacement stackedStyles).result ≠
        .ok false := by
  have covers : ((regionsOf stackedStyles).toOption.any fun regions : Regions Float =>
      regions.cover "top" "middle") = true := by
    decide +kernel
  cases decoded : regionsOf (τ := Float) stackedStyles with
  | error fault =>
      rw [decoded] at covers
      cases covers
  | ok regions =>
      rw [decoded] at covers
      refine ⟨regions, rfl, covers, fun fails => ?_⟩
      rcases (checkOverlaps_fails_iff decoded).mp fails
        with ⟨first, firstMember, later, laterMember, before, -⟩
      have never : ∀ first ∈ simultaneous, ∀ later ∈ simultaneous,
          Quantity.filedBefore first.1 later.1 = false := by
        decide +kernel
      rw [never first firstMember later laterMember] at before
      cases before

end Timing

end TimedText
