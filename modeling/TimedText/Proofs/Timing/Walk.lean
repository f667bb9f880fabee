import Mathlib.Data.List.Forall2
import TimedText.Proofs.Timing.Lineage
import TimedText.Proofs.Timing.Timeline
/-!
The walk of a resolution over a tree of timed elements: what it concludes of an
element from the frame of that element and the resolutions of its timed children.
Every timed element has one entry of the resolution, under its own path.
-/

namespace TimedText.Timing

section

variable {α β : Type} {related : α → β → Prop} {lefts : List α} {rights : List β}

theorem forall₂_of_mem_left (each : List.Forall₂ related lefts rights) {left : α}
    (member : left ∈ lefts) : ∃ right ∈ rights, related left right := by
  induction each with
  | nil => cases member
  | cons first rest induction =>
      rcases List.mem_cons.mp member with rfl | member
      · exact ⟨_, List.mem_cons_self, first⟩
      · rcases induction member with ⟨right, rightMember, holds⟩
        exact ⟨right, List.mem_cons_of_mem _ rightMember, holds⟩

theorem forall₂_of_mem_right (each : List.Forall₂ related lefts rights) {right : β}
    (member : right ∈ rights) : ∃ left ∈ lefts, related left right :=
  forall₂_of_mem_left each.flip member

end

variable {τ : Type} {path : Path} {element : Element}

private theorem size_of_mem_timedChildren {kinds : List String} {placed : Element × Nat}
    (timed : placed ∈ timedChildren kinds element) : placed.1.size < element.size := by
  have member := List.fst_mem_of_mem_zipIdx (List.mem_of_mem_filter timed)
  rcases List.append_of_mem member with ⟨before, after, children⟩
  rw [element.size_eq, children, Element.sizeOfAll_append, Element.sizeOfAll]
  omega

/-! ## Paths -/

/-- The entries of a resolution lie at a path or further inside, each of them at a
path of its own. -/
structure Resolution.IsPlaced (resolution : Resolution τ) (path : Path) : Prop where
  under : ∀ filed ∈ resolution.entries, path <+: filed.2.path
  distinct : (resolution.entries.map fun filed => filed.2.path).Nodup

private theorem timedChildren_nodup (kinds : List String) (element : Element) :
    ((timedChildren kinds element).map Prod.snd).Nodup := by
  have sublist := (List.filter_sublist (l := element.children.zipIdx)
    (p := fun placed => kinds.contains placed.1.localPart)).map Prod.snd
  rw [List.zipIdx_map_snd] at sublist
  exact List.Nodup.sublist sublist List.nodup_range'

private theorem index_eq_of_prefix {filed : Path} {index other : Nat}
    (first : path ++ [index] <+: filed) (second : path ++ [other] <+: filed) :
    index = other := by
  have both := List.prefix_of_prefix_length_le first second (by simp)
  simpa using both.eq_of_length (by simp)

private theorem flatMap_entries_distinct {placed : List (Element × Nat)}
    {resolutions : List (Resolution τ)}
    (each : List.Forall₂ (fun placed inner => inner.IsPlaced (path ++ [placed.2]))
      placed resolutions)
    (places : (placed.map Prod.snd).Nodup) :
    ((resolutions.flatMap (·.entries)).map fun filed => filed.2.path).Nodup := by
  induction each with
  | nil => exact List.nodup_nil
  | @cons first inner placed resolutions here each induction =>
      rcases List.nodup_cons.mp places with ⟨elsewhere, places⟩
      rw [List.flatMap_cons, List.map_append]
      refine List.nodup_append.mpr ⟨here.distinct, induction places, ?_⟩
      rintro _ inFirst _ inRest rfl
      rcases List.mem_map.mp inFirst with ⟨filed, member, rfl⟩
      rcases List.mem_map.mp inRest with ⟨later, laterMember, samePath⟩
      rcases List.mem_flatMap.mp laterMember with ⟨other, otherMember, laterInside⟩
      rcases forall₂_of_mem_right each otherMember with ⟨second, secondMember, there⟩
      have samePlace := index_eq_of_prefix (here.under filed member)
        (samePath ▸ there.under later laterInside)
      exact elsewhere (samePlace ▸ List.mem_map_of_mem secondMember)

/-! ## Resolutions of trees -/

variable [Quantity τ] {rules : Rules τ} {frame : Frame τ} {resolution : Resolution τ}

def Resolves (rules : Rules τ) (frame : Frame τ) (path : Path) (element : Element)
    (resolution : Resolution τ) : Prop :=
  (resolveWithin rules frame path element).result = .ok resolution

private theorem resolveChildren_ok {index : Nat} {children : List Element}
    {resolutions : List (Resolution τ)}
    (resolves : (resolveChildren rules frame path index children).result =
      .ok resolutions) :
    List.Forall₂
      (fun placed resolution =>
        Resolves rules frame (path ++ [placed.2]) placed.1 resolution)
      ((children.zipIdx index).filter fun placed => rules.kinds.contains placed.1.localPart)
      resolutions := by
  induction children generalizing index resolutions with
  | nil =>
      cases resolves
      exact .nil
  | cons child rest induction =>
      rw [List.zipIdx_cons, List.filter_cons]
      rw [resolveChildren] at resolves
      split at resolves
      next timed =>
        rw [if_pos timed]
        rcases Attempt.ok_of_bind resolves with ⟨first, firstResolves, resolves⟩
        rcases Attempt.ok_of_bind resolves with ⟨others, othersResolve, resolves⟩
        cases resolves
        exact .cons firstResolves (induction othersResolve)
      next untimed =>
        rw [if_neg untimed]
        exact induction resolves

theorem Resolves.concludes (resolves : Resolves rules frame path element resolution) :
    ∃ usable resolutions,
      resolution =
        conclude element path usable (rules.frameInside frame element) resolutions ∧
      List.Forall₂
        (fun placed inner => Resolves rules (rules.frameInside frame element)
          (path ++ [placed.2]) placed.1 inner)
        (timedChildren rules.kinds element) resolutions := by
  rcases element with ⟨tag, attributes, children, text, tail⟩
  rw [Resolves, resolveWithin] at resolves
  rcases Attempt.ok_of_bind resolves with ⟨⟨usable, own⟩, ownGives, resolves⟩
  rcases Attempt.ok_of_bind resolves with ⟨resolutions, childrenResolve, resolves⟩
  cases resolves
  cases ownFrame_ok ownGives
  exact ⟨usable, resolutions, rfl, resolveChildren_ok childrenResolve⟩

/-- What holds of every element if it does of its timed children holds of all
elements that resolve. -/
theorem Resolves.induct {motive : Frame τ → Path → Element → Resolution τ → Prop}
    (step : ∀ frame path element usable resolutions,
      List.Forall₂
        (fun placed inner =>
          Resolves rules (rules.frameInside frame element) (path ++ [placed.2]) placed.1
            inner ∧
          motive (rules.frameInside frame element) (path ++ [placed.2]) placed.1 inner)
        (timedChildren rules.kinds element) resolutions →
      motive frame path element
        (conclude element path usable (rules.frameInside frame element) resolutions))
    (resolves : Resolves rules frame path element resolution) :
    motive frame path element resolution := by
  induction size : element.size using Nat.strong_induction_on
    generalizing frame path element resolution with
  | h size induction =>
  rcases resolves.concludes with ⟨usable, resolutions, rfl, each⟩
  apply step
  have smaller :=
    (List.forall₂_and_left _ _).mpr ⟨fun placed => size_of_mem_timedChildren, each⟩
  refine smaller.imp fun placed inner both => ⟨both.2, ?_⟩
  exact induction _ (size ▸ both.1) both.2 rfl

theorem Resolves.isPlaced (resolves : Resolves rules frame path element resolution) :
    resolution.IsPlaced path := by
  refine resolves.induct (motive := fun _ path _ resolution => resolution.IsPlaced path) ?_
  intro frame path element usable resolutions each
  have placed := each.imp fun placed inner both => both.2
  have inside : ∀ filed ∈ resolutions.flatMap (·.entries),
      ∃ index, path ++ [index] <+: filed.2.path := by
    intro filed member
    rcases List.mem_flatMap.mp member with ⟨inner, innerMember, filedInside⟩
    rcases forall₂_of_mem_right placed innerMember with ⟨child, -, there⟩
    exact ⟨child.2, there.under filed filedInside⟩
  constructor
  · intro filed member
    rcases List.mem_append.mp member with member | member
    · rcases inside filed member with ⟨index, under⟩
      exact (List.prefix_append path [index]).trans under
    · cases List.mem_singleton.mp member
      exact List.prefix_refl path
  · rw [conclude, List.map_append]
    refine List.nodup_append.mpr ⟨?_, List.nodup_singleton _, ?_⟩
    · exact flatMap_entries_distinct placed (timedChildren_nodup rules.kinds element)
    · rintro _ inChildren _ own rfl
      rcases List.mem_map.mp inChildren with ⟨filed, member, samePath⟩
      cases List.mem_singleton.mp own
      rcases inside filed member with ⟨index, under⟩
      have longer : path.length + 1 ≤ filed.2.path.length := by
        simpa using under.length_le
      exact (Nat.lt_of_succ_le longer).ne' (congrArg List.length samePath)

/-! ## Intervals -/

def Resolution.interval (resolution : Resolution τ) : Interval τ :=
  ⟨resolution.beginning, resolution.ending⟩

theorem Resolves.interval?_eq [Quantity.Ordered τ] {whole : Resolution τ} {root : Path}
    (placed : whole.IsPlaced root) (inside : resolution.entries ⊆ whole.entries)
    (resolves : Resolves rules frame path element resolution) :
    whole.timeline.interval? path = some resolution.interval := by
  rcases resolves.concludes with ⟨usable, resolutions, rfl, -⟩
  have own := inside (List.mem_append_right _ (List.mem_singleton_self _))
  exact Timeline.interval?_ofList placed.distinct own

theorem Resolves.along {steps : Path} {line : List Element} {inner : Element}
    (lineage : Lineage rules.kinds element steps line inner)
    (resolves : Resolves rules frame path element resolution) :
    ∃ above settled, Resolves rules above (path ++ steps) inner settled ∧
      rules.frameInside above inner = line.foldl rules.frameInside frame ∧
      settled.entries ⊆ resolution.entries := by
  induction lineage generalizing frame path resolution with
  | here element =>
      refine ⟨frame, resolution, ?_, rfl, List.Subset.refl _⟩
      rwa [List.append_nil]
  | @inside element child inner index steps line timed further induction =>
      rcases resolves.concludes with ⟨usable, resolutions, rfl, each⟩
      rcases forall₂_of_mem_left each timed with ⟨first, member, childResolves⟩
      rcases induction childResolves with ⟨above, settled, innerResolves, frames, subset⟩
      refine ⟨above, settled, ?_, frames, List.Subset.trans subset ?_⟩
      · rwa [List.append_assoc] at innerResolves
      · intro filed filedMember
        exact List.mem_append_left _ (List.mem_flatMap.mpr ⟨first, member, filedMember⟩)

end TimedText.Timing
