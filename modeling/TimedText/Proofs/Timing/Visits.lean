import TimedText.Proofs.Timing.Walk
/-!
What a resolution of timing finds, and where it stops. It looks at timed elements one after
another, in document order, each element before those inside of it, and makes the findings of
each of them up to the first one that it cannot get times from.
-/

namespace TimedText

/-! ## Timed elements in order -/

namespace Timing

mutual

def timedWalk (kinds : List String) : Element → List Element
  | ⟨tag, attributes, children, text, tail⟩ =>
    ⟨tag, attributes, children, text, tail⟩ :: timedWalkAll kinds children

def timedWalkAll (kinds : List String) : List Element → List Element
  | [] => []
  | child :: rest =>
    if kinds.contains child.localPart then
      timedWalk kinds child ++ timedWalkAll kinds rest
    else timedWalkAll kinds rest

end

section

variable {kinds : List String}

private theorem timedWalk_eq (kinds : List String) (element : Element) :
    timedWalk kinds element = element :: timedWalkAll kinds element.children := by
  cases element
  rw [timedWalk]

private theorem mem_timedWalkAll_of_mem {elements : List Element} {child inner : Element}
    (member : child ∈ elements) (timed : kinds.contains child.localPart = true)
    (inside : inner ∈ timedWalk kinds child) : inner ∈ timedWalkAll kinds elements := by
  induction elements with
  | nil => cases member
  | cons first rest induction =>
      rw [timedWalkAll]
      rcases List.mem_cons.mp member with rfl | member
      · rw [if_pos timed]
        exact List.mem_append_left _ inside
      · split
        · exact List.mem_append_right _ (induction member)
        · exact induction member

mutual

private theorem lineage_of_mem_timedWalk {inner : Element} : ∀ element : Element,
    inner ∈ timedWalk kinds element → ∃ steps line, Lineage kinds element steps line inner
  | ⟨tag, attributes, children, text, tail⟩ => by
      intro member
      rw [timedWalk] at member
      rcases List.mem_cons.mp member with rfl | member
      · exact ⟨[], [_], .here _⟩
      · rcases lineage_of_mem_timedWalkAll children member with
          ⟨child, childMember, timed, steps, line, lineage⟩
        rcases List.getElem?_of_mem childMember with ⟨index, found⟩
        have placed : (child, index) ∈ timedChildren kinds
            ⟨tag, attributes, children, text, tail⟩ :=
          List.mem_filter.mpr ⟨List.mk_mem_zipIdx_iff_getElem?.mpr found, timed⟩
        exact ⟨index :: steps, _, .inside placed lineage⟩

private theorem lineage_of_mem_timedWalkAll {inner : Element} : ∀ elements : List Element,
    inner ∈ timedWalkAll kinds elements →
      ∃ child ∈ elements, kinds.contains child.localPart = true ∧
        ∃ steps line, Lineage kinds child steps line inner
  | [] => by
      rw [timedWalkAll]
      exact nofun
  | first :: rest => by
      intro member
      rw [timedWalkAll] at member
      split at member
      next timed =>
        rcases List.mem_append.mp member with here | later
        · exact ⟨first, List.mem_cons_self, timed, lineage_of_mem_timedWalk first here⟩
        · rcases lineage_of_mem_timedWalkAll rest later with ⟨child, childMember, holds⟩
          exact ⟨child, List.mem_cons_of_mem _ childMember, holds⟩
      next =>
        rcases lineage_of_mem_timedWalkAll rest member with ⟨child, childMember, holds⟩
        exact ⟨child, List.mem_cons_of_mem _ childMember, holds⟩

end

theorem mem_timedWalk_iff {element inner : Element} :
    inner ∈ timedWalk kinds element ↔
      ∃ steps line, Lineage kinds element steps line inner := by
  constructor
  · exact lineage_of_mem_timedWalk element
  · rintro ⟨steps, line, lineage⟩
    induction lineage with
    | here element =>
        rw [timedWalk_eq]
        exact List.mem_cons_self
    | inside timed further induction =>
        rw [timedWalk_eq]
        rcases List.mem_filter.mp timed with ⟨placed, kind⟩
        exact List.mem_cons_of_mem _
          (mem_timedWalkAll_of_mem (List.fst_mem_of_mem_zipIdx placed) kind induction)

end

end Timing

/-! ## Walks that may stop -/

/-- The front of a list, up to the first member of a kind and with it. -/
def upToFirst {α : Type} (stops : α → Bool) : List α → List α
  | [] => []
  | first :: rest => first :: if stops first then [] else upToFirst stops rest

private theorem upToFirst_append {α : Type} (stops : α → Bool) (left right : List α) :
    upToFirst stops (left ++ right) =
      upToFirst stops left ++ if left.any stops then [] else upToFirst stops right := by
  induction left with
  | nil => rfl
  | cons first rest induction =>
      cases stopsHere : stops first with
      | true => simp [upToFirst, stopsHere]
      | false => simp [upToFirst, stopsHere, induction]

theorem upToFirst_of_none {α : Type} {stops : α → Bool} {members : List α}
    (none : ∀ member ∈ members, stops member = false) :
    upToFirst stops members = members := by
  induction members with
  | nil => rfl
  | cons first rest induction =>
      rcases List.forall_mem_cons.mp none with ⟨here, later⟩
      rw [upToFirst, here, induction later]
      rfl

namespace Attempt

variable {α β γ : Type}

/-- Two attempts that make the same findings and both stop, or both come to a value. -/
private structure Alike (first : Attempt α) (second : Attempt β) : Prop where
  findings : first.findings = second.findings
  completes : first.result.isOk = second.result.isOk

private theorem Alike.bind {first : Attempt γ} {next : γ → Attempt α} {other : γ → Attempt β}
    (alike : ∀ value, (next value).Alike (other value)) :
    (first >>= next).Alike (first >>= other) := by
  cases result : first.result with
  | error fault =>
      rw [bind_of_error result, bind_of_error result]
      exact ⟨rfl, rfl⟩
  | ok value =>
      rw [bind_of_ok result, bind_of_ok result]
      exact ⟨congrArg (first.findings ++ ·) (alike value).findings, (alike value).completes⟩

private theorem isOk_bind {first : Attempt γ} {next : γ → Attempt α} {completes : Bool}
    (each : ∀ value, (next value).result.isOk = completes) :
    (first >>= next).result.isOk = (first.result.isOk && completes) := by
  cases result : first.result with
  | error fault => rw [bind_of_error result]; rfl
  | ok value =>
      rw [bind_of_ok result]
      exact each value

private theorem pure_alike (left : α) (right : β) :
    (pure left : Attempt α).Alike (pure right : Attempt β) := ⟨rfl, rfl⟩

end Attempt

/-! ## What a resolution visits -/

namespace Timing

section

variable {τ : Type} [Quantity τ] {α β : Type}

def Rules.findingsAt (rules : Rules τ) (element : Element) : Log :=
  (ownFrame rules .start element).findings

/-- A resolution stops at an element that it cannot get times from. -/
def Rules.stopsAt (rules : Rules τ) (element : Element) : Bool :=
  !(ownFrame rules .start element).result.isOk

variable {rules : Rules τ}

/-- An attempt that looks at some elements one after another, up to the first one at which a
resolution stops. -/
structure Visits (rules : Rules τ) (attempt : Attempt α) (elements : List Element) :
    Prop where
  findings : attempt.findings =
    (upToFirst rules.stopsAt elements).flatMap rules.findingsAt
  completes : attempt.result.isOk = !elements.any rules.stopsAt

private theorem pure_visits (value : α) : Visits rules (pure value : Attempt α) [] :=
  ⟨rfl, rfl⟩

private theorem Visits.bind {first : Attempt α} {next : α → Attempt β} {before after : List Element}
    (visits : Visits rules first before)
    (nextVisits : ∀ value, Visits rules (next value) after) :
    Visits rules (first >>= next) (before ++ after) := by
  have stopping := Bool.not_eq_eq_eq_not.mp visits.completes.symm
  cases result : first.result with
  | error fault =>
      have stops : before.any rules.stopsAt = true := by
        rw [stopping, result]
        rfl
      rw [Attempt.bind_of_error result]
      refine ⟨?_, ?_⟩
      · rw [upToFirst_append, stops, if_pos rfl, List.append_nil]
        exact visits.findings
      · rw [List.any_append, stops]
        rfl
  | ok value =>
      have passes : before.any rules.stopsAt = false := by
        rw [stopping, result]
        rfl
      rw [Attempt.bind_of_ok result]
      refine ⟨?_, ?_⟩
      · simp only [upToFirst_append, passes, visits.findings, (nextVisits value).findings,
          List.flatMap_append]
        rfl
      · rw [List.any_append, passes]
        exact (nextVisits value).completes

theorem Rules.stopsAt_eq (rules : Rules τ) (element : Element) :
    rules.stopsAt element =
      !((rules.value element "begin").result.isOk
        && ((rules.value element "end").result.isOk
        && (!rules.usesDuration || (rules.value element "dur").result.isOk))) := by
  rw [stopsAt, ownFrame]
  congr 1
  apply (Attempt.isOk_bind _).trans (Bool.true_and _)
  intro legal
  apply Attempt.isOk_bind
  rintro ⟨begins, beginUsable⟩
  apply Attempt.isOk_bind
  rintro ⟨ends, endUsable⟩
  dsimp only
  split
  next uses =>
    rw [uses, Bool.not_true, Bool.false_or]
    apply (Attempt.isOk_bind _).trans (Bool.and_true _)
    rintro ⟨lasts, durationUsable⟩
    rfl
  next unused =>
    rw [Bool.eq_false_iff.mpr unused]
    rfl

private theorem ownFrame_alike (frame other : Frame τ) (element : Element) :
    (ownFrame rules frame element).Alike (ownFrame rules other element) := by
  rw [ownFrame, ownFrame]
  apply Attempt.Alike.bind
  intro legal
  apply Attempt.Alike.bind
  rintro ⟨begins, beginUsable⟩
  apply Attempt.Alike.bind
  rintro ⟨ends, endUsable⟩
  dsimp only
  split
  · apply Attempt.Alike.bind
    rintro ⟨lasts, durationUsable⟩
    exact Attempt.pure_alike _ _
  · exact Attempt.pure_alike _ _

private theorem ownFrame_visits (frame : Frame τ) (element : Element) :
    Visits rules (ownFrame rules frame element) [element] := by
  have alike : (ownFrame rules frame element).Alike (ownFrame rules .start element) :=
    ownFrame_alike frame .start element
  refine ⟨?_, ?_⟩
  · rw [alike.findings]
    simp [upToFirst, Rules.findingsAt]
  · rw [alike.completes]
    simp [Rules.stopsAt]

mutual

private theorem resolveWithin_visits (frame : Frame τ) (path : Path) : ∀ element : Element,
    Visits rules (resolveWithin rules frame path element) (timedWalk rules.kinds element)
  | ⟨tag, attributes, children, text, tail⟩ => by
      rw [resolveWithin, timedWalk]
      change Visits rules _ ([_] ++ timedWalkAll rules.kinds children)
      apply (ownFrame_visits frame _).bind
      rintro ⟨usable, own⟩
      rw [← List.append_nil (timedWalkAll rules.kinds children)]
      apply (resolveChildren_visits own path 0 children).bind
      intro resolutions
      exact pure_visits _

private theorem resolveChildren_visits (frame : Frame τ) (path : Path) (index : Nat) :
    ∀ elements : List Element,
      Visits rules (resolveChildren rules frame path index elements)
        (timedWalkAll rules.kinds elements)
  | [] => by
      rw [resolveChildren, timedWalkAll]
      exact pure_visits _
  | child :: rest => by
      rw [resolveChildren, timedWalkAll]
      split
      · apply (resolveWithin_visits frame _ child).bind
        intro first
        rw [← List.append_nil (timedWalkAll rules.kinds rest)]
        apply (resolveChildren_visits frame path (index + 1) rest).bind
        intro others
        exact pure_visits _
      · exact resolveChildren_visits frame path (index + 1) rest

end

/-- A resolution makes the findings of the timed elements, each by itself, up to the first
one that it stops at. -/
theorem resolve_visits (rules : Rules τ) (path : Path) (element : Element) :
    Visits rules (resolve rules path element) (timedWalk rules.kinds element) :=
  resolveWithin_visits _ path element

end

end Timing

end TimedText
