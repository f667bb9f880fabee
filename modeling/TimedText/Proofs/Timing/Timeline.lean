import Mathlib.Data.List.Nodup
import TimedText.Proofs.Quantity
import TimedText.Timing.Timeline
/-!
What a timeline files. A timeline that is made of a list of entries files each of
them under its instant and nothing else, and has its instants in order.
-/

namespace TimedText.Timing

variable {τ : Type}

structure Interval (τ : Type) where
  beginning : τ
  ending : Option τ

namespace Timeline

def Files (timeline : Timeline τ) (instant : τ) (entry : Entry τ) : Prop :=
  ∃ moment ∈ timeline, moment.instant = instant ∧ entry ∈ moment.entries

def interval? (timeline : Timeline τ) (path : Path) : Option (Interval τ) :=
  timeline.findSome? fun moment =>
    (moment.entries.find? fun entry => entry.path == path).map fun entry =>
      ⟨moment.instant, entry.ending⟩

private theorem interval?_of_files {timeline : Timeline τ} {instant : τ} {entry : Entry τ}
    (files : timeline.Files instant entry)
    (only : ∀ otherInstant other, timeline.Files otherInstant other →
      other.path = entry.path → otherInstant = instant ∧ other = entry) :
    timeline.interval? entry.path = some ⟨instant, entry.ending⟩ := by
  rcases files with ⟨moment, inTimeline, filedAt, inMoment⟩
  cases found : timeline.interval? entry.path with
  | none =>
      have missing := List.findSome?_eq_none_iff.mp found moment inTimeline
      have different := List.find?_eq_none.mp (Option.map_eq_none_iff.mp missing)
      exact absurd (beq_self_eq_true _) (different entry inMoment)
  | some interval =>
      rcases List.exists_of_findSome?_eq_some found with ⟨other, otherIn, gives⟩
      rcases Option.map_eq_some_iff.mp gives with ⟨shown, matching, rfl⟩
      have same := only other.instant shown
        ⟨other, otherIn, rfl, List.mem_of_find?_eq_some matching⟩
        (by simpa using List.find?_some matching)
      rw [same.1, same.2]

variable [Quantity τ]

def IsSorted (timeline : Timeline τ) : Prop :=
  timeline.Pairwise fun first later =>
    Quantity.filedBefore first.instant later.instant = true

variable {timeline : Timeline τ}

private theorem instants_enter (holds : τ → Prop) (instant : τ) (entry : Entry τ)
    (now : holds instant) (elsewhere : ∀ moment ∈ timeline, holds moment.instant) :
    ∀ moment ∈ enter instant entry timeline, holds moment.instant := by
  induction timeline with
  | nil => simpa [enter] using now
  | cons first later induction =>
      rcases List.forall_mem_cons.mp elsewhere with ⟨here, later⟩
      rw [enter]
      split
      · exact List.forall_mem_cons.mpr ⟨now, elsewhere⟩
      · split
        · exact List.forall_mem_cons.mpr ⟨here, induction later⟩
        · exact List.forall_mem_cons.mpr ⟨here, later⟩

variable [Quantity.Ordered τ]

private theorem files_enter (instant : τ) (entry : Entry τ) {filedAt : τ} {filed : Entry τ} :
    (enter instant entry timeline).Files filedAt filed ↔
      timeline.Files filedAt filed ∨ (instant = filedAt ∧ filed = entry) := by
  induction timeline with
  | nil => simp [enter, Files]
  | cons moment later induction =>
      rw [enter]
      split
      · simp [Files, or_comm]
      · split
        · simpa [Files, or_assoc] using or_congr_right induction
        · next notBefore notAfter =>
            have same := Quantity.Ordered.eq_of_not_filedBefore notBefore notAfter
            subst same
            simp only [Files, List.mem_cons, exists_eq_or_imp, List.mem_append,
              List.not_mem_nil, or_false, and_or_left]
            exact or_right_comm

private theorem enter_isSorted (sorted : timeline.IsSorted) (instant : τ) (entry : Entry τ) :
    (enter instant entry timeline).IsSorted := by
  induction timeline with
  | nil => exact List.pairwise_singleton _ _
  | cons first later induction =>
      rcases List.pairwise_cons.mp sorted with ⟨beforeLater, laterSorted⟩
      rw [enter]
      split
      next before =>
        refine List.pairwise_cons.mpr ⟨?_, sorted⟩
        refine List.forall_mem_cons.mpr ⟨before, fun moment member => ?_⟩
        exact Quantity.Ordered.filedBefore_trans before (beforeLater moment member)
      next =>
        split
        next after =>
          refine List.pairwise_cons.mpr ⟨?_, induction laterSorted⟩
          exact instants_enter (Quantity.filedBefore first.instant · = true) instant entry
            after beforeLater
        next => exact List.pairwise_cons.mpr ⟨beforeLater, laterSorted⟩

theorem IsSorted.pairwise_iff {related : Moment τ → Moment τ → Prop}
    (sorted : timeline.IsSorted) :
    timeline.Pairwise related ↔ ∀ first ∈ timeline, ∀ later ∈ timeline,
      Quantity.filedBefore first.instant later.instant = true → related first later := by
  induction timeline with
  | nil => simp
  | cons head rest induction =>
      rcases List.pairwise_cons.mp sorted with ⟨headBefore, restSorted⟩
      rw [List.pairwise_cons, induction restSorted]
      constructor
      · rintro ⟨headRelated, restRelated⟩ first firstMember later laterMember before
        rcases List.mem_cons.mp laterMember with rfl | laterInRest
        · rcases List.mem_cons.mp firstMember with rfl | firstInRest
          · exact absurd before (Quantity.Ordered.filedBefore_irrefl _)
          · have around := Quantity.Ordered.filedBefore_trans before
              (headBefore first firstInRest)
            exact absurd around (Quantity.Ordered.filedBefore_irrefl _)
        · rcases List.mem_cons.mp firstMember with rfl | firstInRest
          · exact headRelated later laterInRest
          · exact restRelated first firstInRest later laterInRest before
      · intro related
        refine ⟨fun later member => ?_, fun first firstMember later laterMember => ?_⟩
        · exact related head List.mem_cons_self later (List.mem_cons_of_mem _ member)
            (headBefore later member)
        · exact related first (List.mem_cons_of_mem _ firstMember) later
            (List.mem_cons_of_mem _ laterMember)

/-! ## Timelines of lists -/

private theorem files_foldl (entries : List (τ × Entry τ)) {instant : τ} {entry : Entry τ} :
    (entries.foldl (fun timeline (instant, entry) => enter instant entry timeline)
      timeline).Files instant entry ↔
      timeline.Files instant entry ∨ (instant, entry) ∈ entries := by
  induction entries generalizing timeline with
  | nil => simp
  | cons first rest induction =>
      rw [List.foldl_cons, induction, files_enter, List.mem_cons, or_assoc,
        Prod.ext_iff, @eq_comm _ instant]

theorem files_ofList (entries : List (τ × Entry τ)) {instant : τ} {entry : Entry τ} :
    (ofList entries).Files instant entry ↔ (instant, entry) ∈ entries := by
  rw [ofList, files_foldl]
  simp [Files]

theorem ofList_isSorted (entries : List (τ × Entry τ)) : (ofList entries).IsSorted := by
  suffices general : ∀ {timeline : Timeline τ}, timeline.IsSorted →
      (entries.foldl (fun timeline (instant, entry) => enter instant entry timeline)
        timeline).IsSorted from general List.Pairwise.nil
  induction entries with
  | nil => exact id
  | cons first rest induction =>
      intro timeline sorted
      exact induction (enter_isSorted sorted first.1 first.2)

/-- Where the paths of entries are distinct, each of them tells when its element
begins and ends. -/
theorem interval?_ofList {entries : List (τ × Entry τ)} {instant : τ} {entry : Entry τ}
    (distinct : (entries.map fun filed => filed.2.path).Nodup)
    (member : (instant, entry) ∈ entries) :
    (ofList entries).interval? entry.path = some ⟨instant, entry.ending⟩ := by
  apply interval?_of_files ((files_ofList entries).mpr member)
  intro otherInstant other files samePath
  have same := List.inj_on_of_nodup_map distinct ((files_ofList entries).mp files)
    member samePath
  cases same
  exact ⟨rfl, rfl⟩

end Timeline

end TimedText.Timing
