import Mathlib.Logic.Relation
import TimedText.Proofs.Completion.Composition
/-!
Which elements the checks of divisions and of spans run other checks on. A composite check looks
for children of its name in the element that it is given, and in each of those that it finds in
turn. It runs every other check once on each of them, at whatever depth, and on nothing else.
-/

namespace TimedText.Check

open Timing

/-! ## Actions -/

structure Place where
  path : Path
  element : Element

structure Look where
  place : Place
  name : String

inductive Action where
  | look (look : Look)
  | enter (presence : Presence)
  | leave
  | visit (check : ElementCheck) (place : Place)

def Action.look? : Action → Option Look
  | .look here => some here
  | _ => none

def Action.visit? : Action → Option (ElementCheck × Place)
  | .visit check place => some (check, place)
  | _ => none

def looksOf (actions : List Action) : List Look := actions.filterMap Action.look?

def visitsOf (actions : List Action) : List (ElementCheck × Place) :=
  actions.filterMap Action.visit?

/-- Some actions one after the other, from one context to another, and what comes of them. The
children that are looked for have the local name `part` in the namespace that is in effect at that
moment, and there is a verdict on their number. -/
inductive Performs (part : String) (count : String → Element → Verdict) :
    List Action → Context → Bool → Context → Log → Prop where
  | done {context : Context} : Performs part count [] context true context []
  | look {look : Look} {actions : List Action} {context after : Context} {valid : Bool}
      {made : Log} (named : look.name = Name.qualified context.uri part)
      (further : Performs part count actions context valid after made) :
      Performs part count (.look look :: actions) context
        ((count look.name look.place.element).valid && valid) after
        ((count look.name look.place.element).findings ++ made)
  | enter {presence : Presence} {actions : List Action} {context after : Context} {valid : Bool}
      {made : Log}
      (further : Performs part count actions
        { context with entered := presence :: context.entered } valid after made) :
      Performs part count (.enter presence :: actions) context valid after made
  | leave {actions : List Action} {context after : Context} {valid : Bool} {made : Log}
      (further : Performs part count actions
        { context with entered := context.entered.tail } valid after made) :
      Performs part count (.leave :: actions) context valid after made
  | visit {check : ElementCheck} {place : Place} {actions : List Action}
      {context between after : Context} {own valid : Bool} {one made : Log}
      (runs : check.run place.element context = ⟨.ok own, between, one⟩)
      (further : Performs part count actions between valid after made) :
      Performs part count (.visit check place :: actions) context (own && valid) after
        (one ++ made)

section

variable {part : String} {count : String → Element → Verdict} {actions others : List Action}
  {context between after : Context} {valid own : Bool} {made one : Log}
  {checks : List ElementCheck} {place : Place}

private theorem looksOf_append (actions others : List Action) :
    looksOf (actions ++ others) = looksOf actions ++ looksOf others :=
  List.filterMap_append

private theorem visitsOf_append (actions others : List Action) :
    visitsOf (actions ++ others) = visitsOf actions ++ visitsOf others :=
  List.filterMap_append

private theorem Performs.append (first : Performs part count actions context own between one)
    (second : Performs part count others between valid after made) :
    Performs part count (actions ++ others) context (own && valid) after (one ++ made) := by
  induction first with
  | done => exact second
  | look named _ induction =>
      rw [Bool.and_assoc, List.append_assoc]
      exact .look named (induction second)
  | enter _ induction => exact .enter (induction second)
  | leave _ induction => exact .leave (induction second)
  | visit runs _ induction =>
      rw [Bool.and_assoc, List.append_assoc]
      exact .visit runs (induction second)

private theorem Performs.inside {presence : Presence}
    (within : Performs part count actions
      { context with entered := presence :: context.entered } own between one)
    (further : Performs part count others
      { between with entered := between.entered.tail } valid after made) :
    Performs part count (.enter presence :: (actions ++ .leave :: others)) context (own && valid)
      after (one ++ made) :=
  .enter (within.append (.leave further))

private theorem looksOf_inside (presence : Presence) (actions others : List Action) :
    looksOf (.enter presence :: (actions ++ .leave :: others))
      = looksOf actions ++ looksOf others :=
  looksOf_append actions (.leave :: others)

private theorem visitsOf_inside (presence : Presence) (actions others : List Action) :
    visitsOf (.enter presence :: (actions ++ .leave :: others))
      = visitsOf actions ++ visitsOf others :=
  visitsOf_append actions (.leave :: others)

private def visitsBy (checks : List ElementCheck) (place : Place) : List Action :=
  checks.map (.visit · place)

private theorem looksOf_visitsBy (checks : List ElementCheck) (place : Place) :
    looksOf (visitsBy checks place) = [] := by
  rw [looksOf, visitsBy, List.filterMap_map]
  exact List.filterMap_eq_nil_iff.mpr fun check _ => rfl

private theorem visitsOf_visitsBy (checks : List ElementCheck) (place : Place) :
    visitsOf (visitsBy checks place) = checks.map (·, place) := by
  rw [visitsOf, visitsBy, List.filterMap_map]
  exact congrFun List.filterMap_eq_map checks

private theorem performs_runAll
    (runs : runAll checks place.element context = ⟨.ok valid, after, made⟩) :
    Performs part count (visitsBy checks place) context valid after made := by
  induction checks generalizing context valid made with
  | nil =>
      rw [runAll] at runs
      cases runs
      exact .done
  | cons first rest induction =>
      rw [runAll] at runs
      rcases Run.exists_of_bind runs with ⟨own, between, one, _, visits, follows, rfl⟩
      rcases Run.exists_of_bind follows with ⟨others, _, more, _, further, ends, rfl⟩
      cases ends
      rw [List.append_nil]
      exact .visit visits (induction further)

end

/-! ## Tours -/

/-- The children of an element, from some index on, with everything that is looked at among them:
the children of a name, and inside each of them the children of a name that may be another. -/
inductive Tour : Path → Nat → String → List Element → List Look → Prop where
  | done {base : Path} {index : Nat} {name : String} : Tour base index name [] []
  | skip {base : Path} {index : Nat} {name : String} {first : Element} {rest : List Element}
      {looks : List Look} (other : first.tag ≠ name)
      (further : Tour base (index + 1) name rest looks) :
      Tour base index name (first :: rest) looks
  | take {base : Path} {index : Nat} {name inner : String} {first : Element}
      {rest : List Element} {inside looks : List Look} (own : first.tag = name)
      (within : Tour (base ++ [index]) 0 inner first.children inside)
      (further : Tour base (index + 1) name rest looks) :
      Tour base index name (first :: rest)
        (⟨⟨base ++ [index], first⟩, inner⟩ :: (inside ++ looks))

def IsChild (tag : String) (parent child : Place) : Prop :=
  child.element.tag = tag ∧ ∃ index, parent.element.children[index]? = some child.element ∧
    child.path = parent.path ++ [index]

def LeadsTo (looks : List Look) (parent child : Place) : Prop :=
  ∃ look ∈ looks, look.place = parent ∧ IsChild look.name parent child

section

variable {base : Path} {index : Nat} {name : String} {elements : List Element}
  {looks all : List Look} {parent child place : Place}

private theorem Tour.apart (tour : Tour base index name elements looks) :
    (looks.map (·.place.path)).Nodup ∧
      ∀ look ∈ looks, ∃ turn further, index ≤ turn ∧ look.place.path = base ++ turn :: further := by
  induction tour with
  | done => exact ⟨List.nodup_nil, nofun⟩
  | skip _ _ induction =>
      refine ⟨induction.1, fun look member => ?_⟩
      rcases induction.2 look member with ⟨turn, further, later, same⟩
      exact ⟨turn, further, by omega, same⟩
  | @take base index _ _ first _ inside looks _ _ _ inner outer =>
      have deeper : ∀ look ∈ inside, ∃ turn further,
          look.place.path = base ++ index :: turn :: further := by
        intro look member
        rcases inner.2 look member with ⟨turn, further, -, same⟩
        exact ⟨turn, further, by rw [same, List.append_assoc]; rfl⟩
      have heads {turn other : Nat} {further others : Path}
          (same : base ++ turn :: further = base ++ other :: others) :
          turn = other ∧ further = others := List.cons.inj (List.append_cancel_left same)
      constructor
      · rw [List.map_cons, List.nodup_cons, List.map_append, List.nodup_append]
        refine ⟨fun member => ?_, inner.1, outer.1, ?_⟩
        · rcases List.mem_append.mp member with member | member
          · rcases List.mem_map.mp member with ⟨look, among, same⟩
            rcases deeper look among with ⟨turn, further, path⟩
            cases (heads (path.symm.trans same)).2
          · rcases List.mem_map.mp member with ⟨look, among, same⟩
            rcases outer.2 look among with ⟨turn, further, later, path⟩
            have turns := (heads (path.symm.trans same)).1
            omega
        · intro path member other also same
          rcases List.mem_map.mp member with ⟨look, among, rfl⟩
          rcases List.mem_map.mp also with ⟨another, alsoAmong, rfl⟩
          rcases deeper look among with ⟨turn, further, path⟩
          rcases outer.2 another alsoAmong with ⟨next, others, later, alsoPath⟩
          have turns := (heads (path.symm.trans (same.trans alsoPath))).1
          omega
      · intro look member
        rcases List.mem_cons.mp member with rfl | member
        · exact ⟨index, [], le_rfl, rfl⟩
        · rcases List.mem_append.mp member with member | member
          · rcases deeper look member with ⟨turn, further, same⟩
            exact ⟨index, turn :: further, le_rfl, same⟩
          · rcases outer.2 look member with ⟨turn, further, later, same⟩
            exact ⟨turn, further, by omega, same⟩

/-- Whatever is looked for is found, and looked at in its turn. -/
private theorem Tour.closed (tour : Tour base index name elements looks) :
    (∀ turn child, elements[turn]? = some child → child.tag = name →
        ⟨base ++ [index + turn], child⟩ ∈ looks.map (·.place)) ∧
      ∀ parent child, LeadsTo looks parent child → child ∈ looks.map (·.place) := by
  induction tour with
  | done =>
      refine ⟨fun turn child here => ?_, ?_⟩
      · cases here
      · rintro parent child ⟨look, member, -⟩
        cases member
  | @skip base index name first rest looks other _ induction =>
      refine ⟨fun turn child here own => ?_, induction.2⟩
      cases turn with
      | zero =>
          cases here
          exact absurd own other
      | succ turn =>
          rw [← Nat.add_assoc, Nat.add_right_comm]
          exact induction.1 turn child here own
  | @take base index name next first rest inside looks own _ _ inner outer =>
      refine ⟨fun turn child here tagged => ?_, ?_⟩
      · cases turn with
        | zero =>
            cases here
            exact List.mem_cons_self
        | succ turn =>
            rw [← Nat.add_assoc, Nat.add_right_comm, List.map_cons, List.map_append]
            exact List.mem_cons_of_mem _ (List.mem_append_right _ (outer.1 turn child here tagged))
      · rintro parent child ⟨look, member, rfl, isChild⟩
        rw [List.map_cons, List.map_append]
        refine List.mem_cons_of_mem _ (List.mem_append.mpr ?_)
        rcases List.mem_cons.mp member with rfl | member
        · rcases child with ⟨path, child⟩
          rcases isChild with ⟨tagged, turn, here, rfl⟩
          have found := inner.1 turn child here tagged
          rw [Nat.zero_add] at found
          exact .inl found
        · rcases List.mem_append.mp member with member | member
          · exact .inl (inner.2 _ child ⟨look, member, rfl, isChild⟩)
          · exact .inr (outer.2 _ child ⟨look, member, rfl, isChild⟩)

private theorem Tour.reached (tour : Tour base index name elements looks)
    (path : parent.path = base)
    (children : parent.element.children.drop index = elements) (part : looks ⊆ all)
    (known : ⟨parent, name⟩ ∈ all) :
    ∀ look ∈ looks, Relation.TransGen (LeadsTo all) parent look.place := by
  induction tour generalizing parent with
  | done => exact nofun
  | skip _ _ induction =>
      refine induction path ?_ part known
      rw [← List.tail_drop, children, List.tail_cons]
  | @take base index name next first rest inside looks own _ _ inner outer =>
      rcases List.cons_subset.mp part with ⟨firstKnown, part⟩
      rcases List.append_subset.mp part with ⟨insidePart, looksPart⟩
      have step : LeadsTo all parent ⟨base ++ [index], first⟩ := by
        refine ⟨⟨parent, name⟩, known, rfl, own, index, ?_, by rw [path]⟩
        rw [← List.head?_drop, children, List.head?_cons]
      intro look member
      rcases List.mem_cons.mp member with rfl | member
      · exact .single step
      · rcases List.mem_append.mp member with member | member
        · exact .head step (inner rfl rfl insidePart firstKnown look member)
        · refine outer path ?_ looksPart known look member
          rw [← List.tail_drop, children, List.tail_cons]

end

/-! ## Divisions -/

def visitsAt (checks : List ElementCheck) (looks : List Look) : List (ElementCheck × Place) :=
  looks.flatMap fun look => checks.map (·, look.place)

private theorem visitsAt_cons (checks : List ElementCheck) (look : Look) (looks : List Look) :
    visitsAt checks (look :: looks)
      = checks.map (·, look.place) ++ visitsAt checks looks :=
  List.flatMap_cons

private theorem visitsAt_append (checks : List ElementCheck) (looks others : List Look) :
    visitsAt checks (looks ++ others) = visitsAt checks looks ++ visitsAt checks others :=
  List.flatMap_append

section

variable {part : String} {count : String → Element → Verdict} {checks : List ElementCheck}

/-- An element is looked at, and everything that is reached from it is looked at and visited. -/
def Explores (part : String) (count : String → Element → Verdict) (checks : List ElementCheck)
    (place : Place) (context : Context) (valid : Bool) (after : Context) (made : Log) : Prop :=
  ∃ actions name inside, Performs part count actions context valid after made ∧
    looksOf actions = ⟨place, name⟩ :: inside ∧
    Tour place.path 0 name place.element.children inside ∧
    (visitsOf actions).Perm (visitsAt checks inside)

def ExploresEach (part : String) (count : String → Element → Verdict)
    (checks : List ElementCheck) (base : Path) (index : Nat) (name : String)
    (elements : List Element) (context : Context) (valid : Bool) (after : Context)
    (made : Log) : Prop :=
  ∃ actions, Performs part count actions context valid after made ∧
    Tour base index name elements (looksOf actions) ∧
    (visitsOf actions).Perm (visitsAt checks (looksOf actions))

private theorem ExploresEach.take {base : Path} {index : Nat} {name inner : String}
    {first : Element} {rest : List Element} {within others actions : List Action}
    {inside : List Look}
    {context after : Context} {valid : Bool} {made : Log}
    (performs : Performs part count actions context valid after made) (own : first.tag = name)
    (looks : looksOf actions = looksOf within ++ looksOf others)
    (visits : (visitsOf actions).Perm
      (checks.map (·, ⟨base ++ [index], first⟩) ++ (visitsOf within ++ visitsOf others)))
    (looksWithin : looksOf within = ⟨⟨base ++ [index], first⟩, inner⟩ :: inside)
    (tour : Tour (base ++ [index]) 0 inner first.children inside)
    (visitsWithin : (visitsOf within).Perm (visitsAt checks inside))
    (tourOthers : Tour base (index + 1) name rest (looksOf others))
    (visitsOthers : (visitsOf others).Perm (visitsAt checks (looksOf others))) :
    ExploresEach part count checks base index name (first :: rest) context valid after made := by
  rw [looksWithin, List.cons_append] at looks
  refine ⟨actions, performs, ?_, ?_⟩
  · rw [looks]
    exact .take own tour tourOthers
  · rw [looks, visitsAt_cons, visitsAt_append]
    exact visits.trans ((visitsWithin.append visitsOthers).append_left _)

mutual

theorem checkDivisions_explores (checks : List ElementCheck) :
    ∀ (element : Element) (base : Path) {context after : Context} {valid : Bool} {made : Log},
      checkDivisions true (runAll checks) element context = ⟨.ok valid, after, made⟩ →
      Explores "div" countDivisions checks ⟨base, element⟩ context valid after made
  | ⟨tag, attributes, children, text, tail⟩, base, context, after, valid, made, runs => by
      rw [checkDivisions] at runs
      rcases Run.exists_of_bind runs with ⟨_, _, _, _, ⟨⟩, follows, rfl⟩
      rcases Run.exists_of_bind follows with ⟨_, _, _, _, ⟨⟩, further, rfl⟩
      rcases Run.exists_of_bind further with ⟨checked, _, others, _, each, ends, rfl⟩
      cases ends
      rcases checkEachDivision_explores checks children base 0 each
        with ⟨actions, performs, tour, visits⟩
      rw [List.append_nil]
      exact ⟨.look ⟨⟨base, _⟩, _⟩ :: actions, _, _, .look rfl performs, rfl, tour, visits⟩

private theorem checkEachDivision_explores (checks : List ElementCheck) :
    ∀ (elements : List Element) (base : Path) (index : Nat) {division : String}
      {context after : Context} {valid : Bool} {made : Log},
      checkEachDivision true (runAll checks) division elements context
        = ⟨.ok valid, after, made⟩ →
      ExploresEach "div" countDivisions checks base index division elements context valid after
        made
  | [], base, index, division, context, after, valid, made, runs => by
      rw [checkEachDivision] at runs
      cases runs
      exact ⟨[], .done, .done, .rfl⟩
  | first :: rest, base, index, division, context, after, valid, made, runs => by
      rw [checkEachDivision] at runs
      split at runs
      next own =>
        rcases Run.exists_of_bind runs with ⟨_, _, _, _, entered, follows, rfl⟩
        rcases Run.exists_of_inside entered with ⟨_, both, rfl⟩
        rw [if_pos rfl] at both
        rcases Run.exists_of_bind both with ⟨_, _, _, _, nested, further, rfl⟩
        rcases Run.exists_of_bind further with ⟨_, _, _, _, here, ends, rfl⟩
        cases ends
        rcases Run.exists_of_bind follows with ⟨_, _, _, _, each, ends, rfl⟩
        cases ends
        rcases checkDivisions_explores checks first (base ++ [index]) nested
          with ⟨within, name, inside, performsWithin, looks, tour, visits⟩
        rcases checkEachDivision_explores checks rest base (index + 1) each
          with ⟨others, performsOthers, tourOthers, visitsOthers⟩
        have performsHere := @performs_runAll "div" countDivisions _ _ _ _ checks
          ⟨base ++ [index], first⟩ here
        rw [List.append_nil, List.append_nil]
        refine ExploresEach.take ((performsWithin.append performsHere).inside performsOthers)
          (beq_iff_eq.mp own) ?_ ?_ looks tour visits tourOthers visitsOthers
        · rw [looksOf_inside, looksOf_append, looksOf_visitsBy, List.append_nil]
        · rw [visitsOf_inside, visitsOf_append, visitsOf_visitsBy, ← List.append_assoc]
          exact List.perm_append_comm.append_right _
      next other =>
        rcases checkEachDivision_explores checks rest base (index + 1) runs
          with ⟨actions, performs, tour, visits⟩
        exact ⟨actions, performs, .skip (fun same => other (beq_iff_eq.mpr same)) tour, visits⟩

end

/-! ## Spans -/

private theorem Explores.ofInside {presence : Presence} {place : Place} {context between : Context}
    {valid : Bool} {made : Log}
    (each : ExploresEach part count checks place.path 0 (Name.qualified context.uri part)
      place.element.children { context with entered := presence :: context.entered } valid between
      made) :
    Explores part count checks place context
      ((count (Name.qualified context.uri part) place.element).valid && valid)
      { between with entered := between.entered.tail }
      ((count (Name.qualified context.uri part) place.element).findings ++ made) := by
  rcases each with ⟨actions, performs, tour, visits⟩
  have looks := (looksOf_inside presence actions []).trans (List.append_nil _)
  have visited := (visitsOf_inside presence actions []).trans (List.append_nil _)
  have whole := performs.inside .done
  rw [Bool.and_true, List.append_nil] at whole
  exact ⟨.look ⟨place, _⟩ :: .enter presence :: (actions ++ [Action.leave]), _, looksOf actions,
    .look rfl whole, congrArg (List.cons _) looks, tour, (List.Perm.of_eq visited).trans visits⟩

mutual

theorem checkSpans_explores (checks : List ElementCheck) (textRequired nestingPermitted : Bool) :
    ∀ (element : Element) (base : Path) {context after : Context} {valid : Bool} {made : Log},
      checkSpans textRequired nestingPermitted (runAll checks) element context
        = ⟨.ok valid, after, made⟩ →
      Explores "span" (countSpans textRequired nestingPermitted) checks ⟨base, element⟩ context
        valid after made
  | ⟨tag, attributes, children, text, tail⟩, base, context, after, valid, made, runs => by
      rw [checkSpans] at runs
      rcases Run.exists_of_bind runs with ⟨_, _, _, _, ⟨⟩, follows, rfl⟩
      rcases Run.exists_of_bind follows with ⟨_, _, _, _, ⟨⟩, further, rfl⟩
      rcases Run.exists_of_bind further with ⟨checked, _, others, _, entered, ends, rfl⟩
      cases ends
      rcases Run.exists_of_inside entered with ⟨_, each, rfl⟩
      rw [List.append_nil]
      exact Explores.ofInside
        (checkEachSpan_explores checks textRequired nestingPermitted children base 0 each)

private theorem checkEachSpan_explores (checks : List ElementCheck)
    (textRequired nestingPermitted : Bool) :
    ∀ (elements : List Element) (base : Path) (index : Nat) {span : String}
      {context after : Context} {valid : Bool} {made : Log},
      checkEachSpan textRequired nestingPermitted (runAll checks) span elements context
        = ⟨.ok valid, after, made⟩ →
      ExploresEach "span" (countSpans textRequired nestingPermitted) checks base index span
        elements context valid after made
  | [], base, index, span, context, after, valid, made, runs => by
      rw [checkEachSpan] at runs
      cases runs
      exact ⟨[], .done, .done, .rfl⟩
  | first :: rest, base, index, span, context, after, valid, made, runs => by
      rw [checkEachSpan] at runs
      split at runs
      next own =>
        rcases Run.exists_of_bind runs with ⟨_, _, _, _, here, follows, rfl⟩
        rcases Run.exists_of_bind follows with ⟨_, _, _, _, nested, further, rfl⟩
        rcases Run.exists_of_bind further with ⟨_, _, _, _, each, ends, rfl⟩
        cases ends
        rcases checkSpans_explores checks textRequired nestingPermitted first (base ++ [index])
          nested with ⟨within, name, inside, performsWithin, looks, tour, visits⟩
        rcases checkEachSpan_explores checks textRequired nestingPermitted rest base (index + 1)
          each with ⟨others, performsOthers, tourOthers, visitsOthers⟩
        have performsHere := @performs_runAll "span" (countSpans textRequired nestingPermitted) _ _
          _ _ checks ⟨base ++ [index], first⟩ here
        rw [List.append_nil, Bool.and_assoc]
        refine ExploresEach.take (performsHere.append (performsWithin.append performsOthers))
          (beq_iff_eq.mp own) ?_ ?_ looks tour visits tourOthers visitsOthers
        · rw [looksOf_append, looksOf_append, looksOf_visitsBy, List.nil_append]
        · rw [visitsOf_append, visitsOf_append, visitsOf_visitsBy]
      next other =>
        rcases checkEachSpan_explores checks textRequired nestingPermitted rest base (index + 1)
          runs with ⟨actions, performs, tour, visits⟩
        exact ⟨actions, performs, .skip (fun same => other (beq_iff_eq.mpr same)) tour, visits⟩

end

end

/-! ## Coverage -/

/-- Which places a composite check covers from an element on: those reached through one child or
more, each of a name that is looked for in the element around it. They are in different places,
and each of them is visited by every check once. If the namespace does not change, it is one and
the same name that is looked for everywhere. -/
structure IsCoverage (part : String) (checks : List ElementCheck) (element : Element)
    (context : Context) (actions : List Action) (places : List Place) : Prop where
  looked : (looksOf actions).map (·.place) = ⟨[], element⟩ :: places
  apart : (places.map (·.path)).Nodup
  reached : ∀ place,
    place ∈ places ↔ Relation.TransGen (LeadsTo (looksOf actions)) ⟨[], element⟩ place
  visited : (visitsOf actions).Perm (places.flatMap fun place => checks.map (·, place))
  settled : (∀ check ∈ checks, ∀ inner, (check.run inner).Keeps Context.uri) →
    ∀ place, place ∈ places ↔
      Relation.TransGen (IsChild (Name.qualified context.uri part)) ⟨[], element⟩ place

section

variable {part : String} {count : String → Element → Verdict} {checks : List ElementCheck}
  {actions : List Action} {context after : Context} {valid : Bool} {made : Log}

private theorem Performs.name_eq (performs : Performs part count actions context valid after made)
    (keeps : ∀ visit ∈ visitsOf actions, (visit.1.run visit.2.element).Keeps Context.uri) :
    ∀ look ∈ looksOf actions, look.name = Name.qualified context.uri part := by
  induction performs with
  | done => exact nofun
  | look named _ induction =>
      intro look member
      rcases List.mem_cons.mp member with rfl | member
      · exact named
      · exact induction keeps look member
  | enter _ induction => exact induction keeps
  | leave _ induction => exact induction keeps
  | @visit check place _ context between _ _ _ _ _ runs _ induction =>
      have same := keeps (check, place) List.mem_cons_self context
      rw [runs] at same
      intro look member
      rw [← same]
      exact induction (fun visit member => keeps visit (List.mem_cons_of_mem _ member)) look member

theorem Explores.isCoverage {element : Element}
    (explores : Explores part count checks ⟨[], element⟩ context valid after made) :
    ∃ actions places, Performs part count actions context valid after made ∧
      IsCoverage part checks element context actions places := by
  rcases explores with ⟨actions, name, inside, performs, looks, tour, visits⟩
  have known : ⟨⟨[], element⟩, name⟩ ∈ looksOf actions := looks ▸ List.mem_cons_self
  have reached : ∀ place, place ∈ inside.map (·.place) ↔
      Relation.TransGen (LeadsTo (looksOf actions)) ⟨[], element⟩ place := by
    intro place
    constructor
    · intro member
      rcases List.mem_map.mp member with ⟨look, among, rfl⟩
      exact tour.reached rfl rfl (looks ▸ List.subset_cons_self _ _) known look among
    · intro chain
      -- A child of the element itself is found by the tour, as is a child of what it finds.
      have closed : ∀ parent child, LeadsTo (looksOf actions) parent child →
          child ∈ inside.map (·.place) := by
        rintro parent child ⟨look, member, rfl, isChild⟩
        rw [looks] at member
        rcases List.mem_cons.mp member with rfl | member
        · rcases child with ⟨path, child⟩
          rcases isChild with ⟨tagged, turn, here, rfl⟩
          have found := tour.closed.1 turn child here tagged
          rwa [Nat.zero_add] at found
        · exact tour.closed.2 _ child ⟨look, member, rfl, isChild⟩
      cases chain with
      | single step => exact closed _ _ step
      | tail _ step => exact closed _ _ step
  have distinct := tour.apart.1
  rw [← Function.comp_def Place.path Look.place, ← List.map_map] at distinct
  refine ⟨actions, inside.map (·.place), performs, ?_, distinct, reached, ?_, ?_⟩
  · rw [looks, List.map_cons]
  · rw [List.flatMap_map]
    exact visits
  · intro keeps place
    have names := performs.name_eq fun visit member => by
      rcases List.mem_flatMap.mp (visits.mem_iff.mp member) with ⟨look, -, own⟩
      rcases List.mem_map.mp own with ⟨check, listed, rfl⟩
      exact keeps check listed look.place.element
    rw [reached]
    constructor
    · refine Relation.TransGen.mono (fun parent child leads => ?_) _ _
      rcases leads with ⟨look, member, rfl, isChild⟩
      exact names look member ▸ isChild
    · intro chain
      have goesOn {look : Look} {child : Place} (member : look ∈ looksOf actions)
          (isChild : IsChild (Name.qualified context.uri part) look.place child) :
          LeadsTo (looksOf actions) look.place child :=
        ⟨look, member, rfl, (names look member).symm ▸ isChild⟩
      induction chain with
      | single step => exact .single (goesOn known step)
      | tail _ step further =>
          rcases List.mem_map.mp ((reached _).mpr further) with ⟨look, member, rfl⟩
          exact .tail further (goesOn (looks ▸ List.mem_cons_of_mem _ member) step)

end

/-- Whatever checks are given: where the check of divisions, of nested ones too, comes to a value,
and where the check of spans does, it has run each of the checks once on every division or span
that is reached from the element through divisions or spans alone, and on nothing else. Both come
to a value if the checks that are given do. -/
theorem divisions_and_spans_cover (checks : List ElementCheck) (element : Element)
    (context : Context) :
    (∀ valid after made, (ElementCheck.divisions checks true).run element context
        = ⟨.ok valid, after, made⟩ →
      ∃ actions places, Performs "div" countDivisions actions context valid after made ∧
        IsCoverage "div" checks element context actions places) ∧
    (∀ textRequired nestingPermitted valid after made,
      (ElementCheck.spans checks textRequired nestingPermitted).run element context
        = ⟨.ok valid, after, made⟩ →
      ∃ actions places,
        Performs "span" (countSpans textRequired nestingPermitted) actions context valid after
          made ∧
        IsCoverage "span" checks element context actions places) ∧
    ((∀ check ∈ checks, ∀ inner, (check.run inner).Completes) →
      (∃ valid, ((ElementCheck.divisions checks true).run element context).result = .ok valid) ∧
      ∀ textRequired nestingPermitted, ∃ valid,
        ((ElementCheck.spans checks textRequired nestingPermitted).run element context).result
          = .ok valid) := by
  refine ⟨fun valid after made runs => ?_,
    fun textRequired nestingPermitted valid after made runs => ?_,
    fun completes => ⟨?_, fun textRequired nestingPermitted => ?_⟩⟩
  · rw [ElementCheck.run] at runs
    exact (checkDivisions_explores checks element [] runs).isCoverage
  · rw [ElementCheck.run] at runs
    exact (checkSpans_explores checks textRequired nestingPermitted element [] runs).isCoverage
  · rw [ElementCheck.run]
    exact checkDivisions_completes (runAll_completes_of_mem completes) true element context
  · rw [ElementCheck.run]
    exact checkSpans_completes (runAll_completes_of_mem completes) textRequired nestingPermitted
      element context

def innerDivision : Element := .bare (Name.qualified Vocabulary.core "div")

def outerDivision : Element := { innerDivision with children := [innerDivision] }

def nestedDivisions : Element :=
  { Element.bare (Name.qualified Vocabulary.core "body") with
    children := [outerDivision, .bare (Name.qualified Vocabulary.core "p")] }

theorem divisions_and_spans_cover_nested :
    ∃ (actions : List Action) (places : List Place) (valid : Bool) (after : Context) (made : Log),
      Performs "div" countDivisions actions (.initial false) valid after made ∧
      (visitsOf actions).Perm (places.flatMap fun place => [(.hasId, place), (.untimed, place)]) ∧
      (places.map (·.path)).Nodup ∧
      ⟨[0], outerDivision⟩ ∈ places ∧ ⟨[0, 0], innerDivision⟩ ∈ places ∧
      ∀ place ∈ places, place.element.tag = Name.qualified Vocabulary.core "div" := by
  have checks : ∀ check ∈ [ElementCheck.hasId, .untimed], ∀ inner,
      (check.run inner).Completes ∧ (check.run inner).Keeps Context.uri := by
    simp only [List.forall_mem_cons, List.not_mem_nil, false_imp_iff, implies_true, and_true,
      ElementCheck.run]
    exact ⟨fun _ => ⟨Run.judge_completes _, Run.judge_keeps _⟩,
      fun _ => ⟨Run.judge_completes _, Run.judge_keeps _⟩⟩
  rcases divisions_and_spans_cover [.hasId, .untimed] nestedDivisions (.initial false)
    with ⟨covers, -, completes⟩
  rcases (completes fun check member inner => (checks check member inner).1).1
    with ⟨valid, gives⟩
  rcases covers valid _ _ (by rw [← gives]) with ⟨actions, places, performs, coverage⟩
  have reached := coverage.settled fun check member inner => (checks check member inner).2
  have outer : Relation.TransGen (IsChild (Name.qualified Vocabulary.core "div"))
      ⟨[], nestedDivisions⟩ ⟨[0], outerDivision⟩ := .single ⟨rfl, 0, rfl, rfl⟩
  refine ⟨actions, places, valid, _, _, performs, coverage.visited, coverage.apart,
    (reached _).mpr outer, (reached _).mpr (outer.tail ⟨rfl, 0, rfl, rfl⟩),
    fun place member => ?_⟩
  cases (reached place).mp member with
  | single step => exact step.1
  | tail _ step => exact step.1

end TimedText.Check
