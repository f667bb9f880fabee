import TimedText.Finding.Collation
/-!
What collation leaves of a log. Findings that say the same make a group, wherever they are in
the log. A small group stays as it is. Of another one the first finding stays, where it was,
and tells the size of the group for its location. A log is a value: what is collated is still
there as it was.
-/

namespace TimedText

/-- What a finding says, at whichever place. -/
def Finding.content (finding : Finding) : Status × String × Code :=
  (finding.status, finding.message, finding.code)

private theorem Finding.repeats_iff {finding other : Finding} :
    finding.repeats other = true ↔ other.content = finding.content := by
  simp only [repeats, content, Bool.and_eq_true, decide_eq_true_eq, beq_iff_eq, Prod.mk.injEq,
    and_assoc]
  exact and_congr eq_comm (and_congr eq_comm eq_comm)

namespace Log

def group (log : Log) (content : Status × String × Code) : Log :=
  log.filter fun finding => finding.content = content

/-- A finding that stands for a group of findings. -/
def standing (size : Nat) (first : Finding) : Finding :=
  { first with location := toString size ++ " locations" }

private theorem content_standing (size : Nat) (first : Finding) :
    (standing size first).content = first.content := rfl

/-- What is left of a finding of a log, given the findings before it. -/
def left? (log : Log) (limit : Nat) (earlier : Log) (finding : Finding) : Option Finding :=
  let size := (log.group finding.content).length
  if size ≤ limit then some finding
  else if finding.content ∈ earlier.map Finding.content then none
  else some (standing size finding)

def collapsed (limit : Nat) (group : Log) : Log :=
  if group.length ≤ limit then group
  else (group.take 1).map (standing group.length)

section

variable {limit : Nat} {content : Status × String × Code}

private theorem repetitions_eq (log : Log) (finding : Finding) :
    log.repetitions finding = (log.group finding.content).length := by
  rw [repetitions, group, ← List.countP_eq_length_filter]
  apply List.countP_congr
  intro other _
  rw [Finding.repeats_iff, decide_eq_true_eq]

private theorem collateFrom_cons (whole : Log) (limit : Nat) (before : Log) (finding : Finding)
    (rest : Log) :
    collateFrom whole limit before (finding :: rest)
      = (whole.left? limit before finding).toList
        ++ collateFrom whole limit (finding :: before) rest := by
  have said : before.any finding.repeats = true ↔
      finding.content ∈ before.map Finding.content := by
    simp only [List.any_eq_true, Finding.repeats_iff, List.mem_map]
  simp only [collateFrom, left?, said, repetitions_eq, summarised, standing]
  split
  · rfl
  · split <;> rfl

/-! ## Place by place -/

private theorem left?_reverse (log : Log) (limit : Nat) (earlier : Log) (finding : Finding) :
    log.left? limit earlier.reverse finding = log.left? limit earlier finding := by
  simp only [left?, List.map_reverse, List.mem_reverse]

theorem collateFrom_eq_filterMap {whole : Log} (limit : Nat) {before rest : Log}
    (parts : whole = before.reverse ++ rest) :
    collateFrom whole limit before rest
      = (rest.zipIdx before.length).filterMap fun (finding, place) =>
        whole.left? limit (whole.take place) finding := by
  induction rest generalizing before with
  | nil => rfl
  | cons finding rest induction =>
      have further : whole = (finding :: before).reverse ++ rest := by
        rw [parts, List.reverse_cons, List.append_assoc, List.singleton_append]
      have earlier : whole.take before.length = before.reverse := by
        rw [parts, ← List.length_reverse, List.take_left]
      rw [collateFrom_cons, induction further, List.zipIdx_cons, List.filterMap_cons]
      dsimp only
      rw [earlier, left?_reverse]
      cases whole.left? limit before finding <;> rfl

theorem collate_eq_filterMap (log : Log) (limit : Nat) :
    log.collate limit = log.zipIdx.filterMap fun (finding, place) =>
      log.left? limit (log.take place) finding :=
  collateFrom_eq_filterMap limit rfl

theorem collate_eq_self {log : Log} (small : ∀ content, (log.group content).length ≤ limit) :
    log.collate limit = log := by
  have stays (earlier : Log) (finding : Finding) :
      log.left? limit earlier finding = some finding :=
    if_pos (small finding.content)
  rw [collate_eq_filterMap]
  simp only [stays]
  rw [List.filterMap_eq_map', List.zipIdx_map_fst]

/-! ## Group by group -/

private theorem group_append (left right : Log) (content : Status × String × Code) :
    group (left ++ right) content = left.group content ++ right.group content :=
  List.filter_append left right

private theorem group_singleton_of_eq {finding : Finding} (same : finding.content = content) :
    group [finding] content = [finding] := by
  rw [group, List.filter_cons_of_pos (by simpa using same), List.filter_nil]

private theorem group_singleton_of_ne {finding : Finding} (other : finding.content ≠ content) :
    group [finding] content = [] := by
  rw [group, List.filter_cons_of_neg (by simpa using other), List.filter_nil]

private theorem group_left?_of_ne (log : Log) (limit : Nat) (earlier : Log) {finding : Finding}
    (other : finding.content ≠ content) :
    group (log.left? limit earlier finding).toList content = [] := by
  rw [left?]
  split
  · exact group_singleton_of_ne other
  · split
    · rfl
    · exact group_singleton_of_ne (by rwa [content_standing])

private theorem group_collateFrom (whole : Log) (limit : Nat) (before rest : Log)
    (content : Status × String × Code) :
    (collateFrom whole limit before rest).group content
      = if (whole.group content).length ≤ limit then rest.group content
        else if content ∈ before.map Finding.content then []
        else ((rest.group content).take 1).map (standing (whole.group content).length) := by
  induction rest generalizing before with
  | nil => simp [collateFrom, group]
  | cons finding rest induction =>
      rw [collateFrom_cons, group_append, induction, ← List.singleton_append (l := rest),
        group_append, List.map_cons]
      by_cases same : finding.content = content
      · -- What is said here counts as said before for all that follows.
        subst same
        rw [if_pos List.mem_cons_self, group_singleton_of_eq rfl, left?]
        split
        · rw [Option.toList_some, group_singleton_of_eq rfl]
        · split
          · rfl
          · rw [Option.toList_some, group_singleton_of_eq (content_standing _ _)]
            rfl
      · have further : content ∈ finding.content :: before.map Finding.content ↔
            content ∈ before.map Finding.content := by
          rw [List.mem_cons, or_iff_right (Ne.symm same)]
        rw [group_left?_of_ne _ _ _ same, group_singleton_of_ne same]
        simp only [further, List.nil_append]

theorem group_collate (log : Log) (limit : Nat) (content : Status × String × Code) :
    (log.collate limit).group content = (log.group content).collapsed limit :=
  group_collateFrom log limit [] log content

theorem length_collapsed_le (positive : 1 ≤ limit) (group : Log) :
    (group.collapsed limit).length ≤ limit := by
  rw [collapsed]
  split
  next small => exact small
  next large =>
    rw [List.length_map]
    exact Nat.le_trans (List.length_take_le 1 group) positive

end

/-- What collation leaves of a log, place by place and so group by group. Unless every group
collapses, it leaves nothing to collate. -/
theorem collate_groups (log : Log) (limit : Nat) :
    (log.collate limit = log.zipIdx.filterMap fun (finding, place) =>
        log.left? limit (log.take place) finding) ∧
      (∀ content,
        (log.collate limit).group content = (log.group content).collapsed limit) ∧
      (1 ≤ limit → (log.collate limit).collate limit = log.collate limit) := by
  refine ⟨collate_eq_filterMap log limit, group_collate log limit, fun positive => ?_⟩
  apply collate_eq_self
  intro content
  rw [group_collate]
  exact length_collapsed_le positive _

def interleaved : Log :=
  [.fail .ttmlElementBr "p xml:id a" "loose text", .pass .xmlXsd "Document" "valid",
    .fail .ttmlElementBr "p xml:id b" "loose text"]

theorem collate_groups_interleaved :
    interleaved.collate 1
        = [.fail .ttmlElementBr "2 locations" "loose text", .pass .xmlXsd "Document" "valid"] ∧
      interleaved.collate 2 = interleaved ∧
      (interleaved.collate 1).collate 1 = interleaved.collate 1 :=
  ⟨by decide +kernel, by decide +kernel, (collate_groups interleaved 1).2.2 (Nat.le_refl 1)⟩

end Log

end TimedText
