import TimedText.Proofs.Cascade.Report
/-!
Which cycles of style references are reported. An id is reported only if it can
reach itself, because the chain of a walk is a path in the graph; and every id
that can reach itself is reported, at the latest by its own resolution. Each is
reported once.
-/

namespace TimedText.Style

open Relation

variable {styles : Catalogue Element} {chain pending reported : List String}
  {cascade : Cascade} {id reference : String} {style : Element}

/-! ## Paths -/

/-- The ids of a chain, the innermost first, refer to one another, and what is
still to be followed is what the innermost refers to. -/
private structure OnPath (styles : Catalogue Element) (chain pending : List String) :
    Prop where
  filed : ∀ id ∈ chain, id ∈ styles.keys
  linked : chain.IsChain fun inner outer => Refers styles outer inner
  next : ∀ reference ∈ pending, reference ∈ styles.keys →
    ∀ innermost ∈ chain.head?, Refers styles innermost reference

private theorem OnPath.rest (path : OnPath styles chain (reference :: pending)) :
    OnPath styles chain pending :=
  ⟨path.filed, path.linked,
    fun other listed => path.next other (List.mem_cons_of_mem _ listed)⟩

private theorem OnPath.cons (found : styles.find? id = some style)
    (filed : ∀ id ∈ chain, id ∈ styles.keys)
    (linked : (id :: chain).IsChain fun inner outer => Refers styles outer inner) :
    OnPath styles (id :: chain) (references style) where
  filed := List.forall_mem_cons.mpr
    ⟨Catalogue.mem_keys_iff_find?.mpr ⟨style, found⟩, filed⟩
  linked := linked
  next := by
    intro reference listed filed innermost isLast
    cases Option.mem_def.mp isLast
    exact ⟨⟨style, found, listed⟩, filed⟩

private theorem OnPath.start (found : styles.find? id = some style) :
    OnPath styles [id] (references style) :=
  .cons found nofun (.singleton id)

private theorem OnPath.enter (path : OnPath styles chain (reference :: pending))
    (found : styles.find? reference = some style) :
    OnPath styles (reference :: chain) (references style) := by
  apply OnPath.cons found path.filed
  have filed := Catalogue.mem_keys_iff_find?.mpr ⟨style, found⟩
  cases chain with
  | nil => exact .singleton reference
  | cons innermost outer =>
      exact .cons_cons (path.next reference List.mem_cons_self filed innermost rfl)
        path.linked

private theorem reaches_innermost {innermost : String} {outer : List String}
    (linked : (innermost :: outer).IsChain fun inner outer => Refers styles outer inner)
    (onChain : id ∈ innermost :: outer) : ReflTransGen (Refers styles) id innermost := by
  induction outer generalizing innermost with
  | nil =>
      cases List.mem_singleton.mp onChain
      exact .refl
  | cons next outer induction =>
      rcases List.mem_cons.mp onChain with same | onChain
      · exact same ▸ .refl
      · cases linked with
        | cons_cons refers linked => exact (induction linked onChain).tail refers

private theorem OnPath.isCyclic (path : OnPath styles chain (reference :: pending))
    (onChain : reference ∈ chain) : IsCyclic styles reference := by
  have filed := path.filed reference onChain
  cases chain with
  | nil => cases onChain
  | cons innermost outer =>
      exact TransGen.tail' (reaches_innermost path.linked onChain)
        (path.next reference List.mem_cons_self filed innermost rfl)

/-! ## One resolution -/

/-- Only ids that reach themselves were reported, and nothing else counts against
the references. -/
private structure Cascade.Truthful (styles : Catalogue Element) (cascade : Cascade) :
    Prop where
  reported : ∀ id ∈ cascade.reported, IsCyclic styles id
  invalid : cascade.valid = false → ∃ id, IsCyclic styles id

private theorem Cascade.Truthful.closeCycle (truthful : cascade.Truthful styles)
    (cyclic : IsCyclic styles reference) :
    (cascade.closeCycle reference).Truthful styles where
  reported := by
    rw [Cascade.closeCycle]
    split
    · exact truthful.reported
    · exact List.forall_mem_cons.mpr ⟨cyclic, truthful.reported⟩
  invalid := fun _ => ⟨reference, cyclic⟩

private theorem follow_truthful (path : OnPath styles chain pending)
    (truthful : cascade.Truthful styles) :
    (follow styles chain cascade pending).Truthful styles := by
  fun_induction follow styles chain cascade pending with
  | case1 => exact truthful
  | case2 chain cascade reference rest closes induction =>
      have cyclic := path.isCyclic (by simpa using closes)
      exact induction path.rest (truthful.closeCycle cyclic)
  | case3 chain cascade reference rest offChain finished induction =>
      exact induction path.rest truthful
  | case4 chain cascade reference rest offChain unfinished absent induction =>
      exact induction path.rest truthful
  | case5 chain cascade reference rest offChain unfinished style found
      smaller inner innerInduction induction =>
      have entered : (cascade.addStyle style).Truthful styles :=
        ⟨truthful.reported, truthful.invalid⟩
      have left := innerInduction (path.enter found) entered
      exact induction path.rest ⟨left.reported, left.invalid⟩

private theorem resolveFrom_truthful (found : styles.find? id = some style)
    (before : ∀ id ∈ reported, IsCyclic styles id) :
    (resolveFrom styles reported id style).Truthful styles :=
  follow_truthful (OnPath.start found) ⟨before, nofun⟩

/-! ## All resolutions -/

/-- The ids that resolutions report after some others were reported: only ids that
reach themselves, none twice, and among them all those that are looked at. -/
structure ReportsCycles (styles : Catalogue Element) (before looked : List String)
    (verdict : Verdict) (fresh : List String) : Prop where
  findings : verdict.findings = fresh.map cycleFinding
  distinct : (fresh.reverse ++ before).Nodup
  sound : ∀ id ∈ fresh, IsCyclic styles id
  complete : ∀ id ∈ looked, IsCyclic styles id →
    id ∈ fresh.reverse ++ before ∧ verdict.valid = false
  invalid : verdict.valid = false → ∃ id, IsCyclic styles id

private theorem ReportsCycles.cons {before looked fresh later : List String} {verdict : Verdict}
    (reported : cascade.reported = fresh.reverse ++ before)
    (findings : cascade.findings = fresh.map cycleFinding)
    (truthful : cascade.Truthful styles)
    (noted : IsCyclic styles id → id ∈ cascade.reported ∧ cascade.valid = false)
    (others : ReportsCycles styles cascade.reported looked verdict later) :
    ReportsCycles styles before (id :: looked)
      (.both ⟨cascade.valid, cascade.findings⟩ verdict) (fresh ++ later) := by
  have all : (fresh ++ later).reverse ++ before = later.reverse ++ cascade.reported := by
    rw [reported, List.reverse_append, List.append_assoc]
  refine ⟨?_, all ▸ others.distinct, ?_, ?_, ?_⟩
  · rw [Verdict.both, findings, others.findings, List.map_append]
  · intro other member
    rcases List.mem_append.mp member with member | member
    · exact truthful.reported other (by simp [reported, member])
    · exact others.sound other member
  · rw [all]
    intro other member cyclic
    rcases List.mem_cons.mp member with same | member
    · subst same
      rcases noted cyclic with ⟨known, invalid⟩
      exact ⟨List.mem_append_right _ known, Bool.and_eq_false_iff.mpr (.inl invalid)⟩
    · rcases others.complete other member cyclic with ⟨known, invalid⟩
      exact ⟨known, Bool.and_eq_false_iff.mpr (.inr invalid)⟩
  · intro invalid
    rcases Bool.and_eq_false_iff.mp invalid with invalid | invalid
    · exact truthful.invalid invalid
    · exact others.invalid invalid

theorem resolveEach_reportsCycles (styles : Catalogue Element)
    {entries : List (String × Element)}
    (found : ∀ entry ∈ entries, styles.find? entry.1 = some entry.2) :
    ∀ {before : List String}, before.Nodup → (∀ id ∈ before, IsCyclic styles id) →
      ∃ fresh, ReportsCycles styles before (entries.map Prod.fst)
        (resolveEach styles before entries).2 fresh := by
  induction entries with
  | nil =>
      intro before distinct _
      exact ⟨[], rfl, by simpa using distinct, nofun, nofun, nofun⟩
  | cons entry rest induction =>
      intro before distinct cyclic
      rcases entry with ⟨id, style⟩
      rcases List.forall_mem_cons.mp found with ⟨here, found⟩
      have truthful := resolveFrom_truthful here cyclic
      have records := resolveFrom_records styles before id style
      rcases records.fresh with ⟨fresh, reported, findings⟩
      -- What was reported here is what was reported before the others.
      have following := induction found (records.distinct distinct) truthful.reported
      rcases following with ⟨later, others⟩
      exact ⟨fresh ++ later, others.cons reported findings truthful fun cyclic =>
        resolveFrom_notes_cycle here cyclic before⟩

/-- Resolving all style elements gives a set of values for each, in order; it
reports each id that reaches itself once and nothing else, and the verdict is
positive exactly if there is no such id. -/
theorem resolveAll_reports_cycles (styles : Catalogue Element) :
    (resolveAll styles).sets.keys = styles.keys
      ∧ (∃ cyclic : List String, cyclic.Nodup
        ∧ (∀ id, id ∈ cyclic ↔ IsCyclic styles id)
        ∧ (resolveAll styles).verdict.findings = cyclic.map cycleFinding)
      ∧ ((resolveAll styles).verdict.valid = true ↔ ∀ id, ¬IsCyclic styles id) := by
  have found : ∀ entry ∈ styles.entries, styles.find? entry.1 = some entry.2 :=
    fun entry member => Catalogue.find?_of_mem_entries member
  have reported := resolveEach_reportsCycles styles found List.nodup_nil nofun
  rcases reported with ⟨cyclic, reports⟩
  have filed {id : String} (isCyclic : IsCyclic styles id) : id ∈ styles.keys := by
    rcases TransGen.tail'_iff.mp isCyclic with ⟨_, _, _, filed⟩
    exact filed
  refine ⟨?_, ⟨cyclic, ?_, ?_, reports.findings⟩, ?_⟩
  · rw [Catalogue.keys, entries_resolveAll_sets]
    exact resolveEach_keys styles styles.entries []
  · simpa using reports.distinct
  · intro id
    refine ⟨reports.sound id, fun isCyclic => ?_⟩
    simpa using (reports.complete id (filed isCyclic) isCyclic).1
  · constructor
    · intro valid id isCyclic
      exact Bool.false_ne_true
        ((reports.complete id (filed isCyclic) isCyclic).2.symm.trans valid)
    · intro acyclic
      by_contra invalid
      rcases reports.invalid (eq_false_of_ne_true invalid) with ⟨id, isCyclic⟩
      exact acyclic id isCyclic

/-- Two styles that refer to each other, one of them to a third as well. -/
def mutualStyles : Catalogue Element := .ofList [
  ("speaker", ⟨"style", [("style", "narrator basic")], [], none, none⟩),
  ("narrator", ⟨"style", [("style", "speaker missing")], [], none, none⟩),
  ("basic", .bare "style")]

theorem resolveAll_reports_cycles_mutual :
    (resolveAll mutualStyles).sets.keys = ["speaker", "narrator", "basic"]
      ∧ (∃ cyclic : List String, cyclic.Nodup
        ∧ (∀ id, id ∈ cyclic ↔ IsCyclic mutualStyles id)
        ∧ (resolveAll mutualStyles).verdict.findings = cyclic.map cycleFinding)
      ∧ ((resolveAll mutualStyles).verdict.valid = true ↔
        ∀ id, ¬IsCyclic mutualStyles id) :=
  resolveAll_reports_cycles mutualStyles

end TimedText.Style
