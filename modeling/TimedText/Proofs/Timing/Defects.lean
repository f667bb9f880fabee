import TimedText.Check.Timing
import TimedText.Proofs.Timing.RuleSet
import TimedText.Proofs.Timing.Visits
import TimedText.Proofs.Verdict
/-!
The failures for timing attributes with values that a profile does not permit: one for each
such attribute, at the element that has it. In scripts they are found at all timed elements.
In captions they are found at those up to the first one with a begin or an end that has no
meaning, and then the check fails as a whole.
-/

namespace TimedText

open Timing

namespace Timing

/-! ## What is permitted -/

/-- In captions a begin and an end are offsets, and a duration is prohibited. -/
def captionsPermit (name text : String) : Bool :=
  name != "dur" && Time.isOffset text

/-- In scripts all times are offsets or clock times, in units that have a declared rate. -/
def scriptsPermit (parameters : Time.Parameters) (text : String) : Bool :=
  (Time.isOffset text || Time.isClockTime text)
    && (parameters.declaresFrameRate || !Time.usesFrames text)
    && (parameters.declaresTickRate || !Time.usesTicks text)

def tellsTimes (parameters : Time.Parameters) (element : Element) : Bool :=
  ["begin", "end"].all fun name =>
    (element.attribute? name).all fun text => (parameters.seconds text).isOk

structure Site where
  element : Element
  name : String

def timeNames : List String := ["begin", "end", "dur"]

def unpermittedAt (permits : String → String → Bool) (element : Element) (name : String) :
    List Site :=
  if (element.attribute? name).any fun text => !permits name text then [⟨element, name⟩]
  else []

def unpermitted (permits : String → String → Bool) (elements : List Element) : List Site :=
  elements.flatMap fun element => timeNames.flatMap (unpermittedAt permits element)

end Timing

/-! ## Failures for attributes -/

/-- A failure at the element that has an attribute, with a message on that attribute. -/
structure Finding.FailsAt (finding : Finding) (site : Site) : Prop where
  status : finding.status = .fail
  location : finding.location = Timing.location site.element
  message : site.name.toList <+: finding.message.toList

namespace Log

/-- Among the findings there is a failure for each attribute, and those are in the order of the
attributes. -/
abbrev FailsEach (log : Log) (sites : List Site) : Prop :=
  List.SublistForall₂ (fun site finding => finding.FailsAt site) sites log

variable {log left right : Log} {sites later : List Site}

private theorem FailsEach.after (fails : log.FailsEach sites) (before : Log) :
    FailsEach (before ++ log) sites := by
  induction before with
  | nil => exact fails
  | cons first rest induction => exact .cons_right induction

private theorem FailsEach.append (fails : left.FailsEach sites) (others : right.FailsEach later) :
    FailsEach (left ++ right) (sites ++ later) := by
  induction fails with
  | nil => exact others.after _
  | cons fails rest induction => exact .cons fails induction
  | cons_right rest induction => exact .cons_right induction

private theorem FailsEach.followed (fails : log.FailsEach sites) (rest : Log) :
    FailsEach (log ++ rest) sites := by
  have both : FailsEach (log ++ rest) (sites ++ []) := fails.append .nil
  rwa [List.append_nil] at both

private theorem failsEach_flatMap {α : Type} {members : List α} {found : α → Log}
    {sites : α → List Site}
    (each : ∀ member ∈ members, (found member).FailsEach (sites member)) :
    FailsEach (members.flatMap found) (members.flatMap sites) := by
  induction members with
  | nil => exact .nil
  | cons first rest induction =>
      rcases List.forall_mem_cons.mp each with ⟨here, others⟩
      exact here.append (induction others)

end Log

/-! ## Elements -/

namespace Timing

variable {parameters : Time.Parameters} {element : Element} {name text : String}

private theorem forAttribute_failsEach {permits : String → String → Bool}
    {rule : String → String → Verdict}
    (fails : ∀ text, permits name text = false →
      (rule name text).findings.FailsEach [⟨element, name⟩]) :
    (forAttribute element rule name).findings.FailsEach
      (unpermittedAt permits element name) := by
  rw [forAttribute, unpermittedAt]
  cases element.attribute? name with
  | none => exact .nil
  | some text =>
      cases permitted : permits name text with
      | false => simpa [permitted] using fails text permitted
      | true =>
          have none : (if (some text).any fun text => !permits name text then
              [Site.mk element name] else []) = [] := by simp [permitted]
          rw [none]
          exact .nil

private theorem against_failsEach (code : Code) {message : String}
    (names : ∃ rest, message = toString name ++ rest) :
    (Verdict.against (.fail code (location element) message)).findings.FailsEach
      [⟨element, name⟩] := by
  rcases names with ⟨rest, rfl⟩
  have named : name.toList <+: (toString name ++ rest).toList := by
    rw [String.toList_append]
    exact List.prefix_append name.toList rest.toList
  exact .cons ⟨rfl, rfl, named⟩ .nil

private theorem checkCaptionAttribute_failsEach (illegal : Time.isOffset text = false) :
    (checkCaptionAttribute (location element) name text).findings.FailsEach
      [⟨element, name⟩] := by
  rw [checkCaptionAttribute, illegal]
  exact against_failsEach _ ⟨_, by simp only [String.append_assoc]; rfl⟩

private theorem checkScriptAttribute_failsEach (illegal : scriptsPermit parameters text = false) :
    (checkScriptAttribute parameters (location element) name text).findings.FailsEach
      [⟨element, name⟩] := by
  simp only [scriptsPermit, Bool.and_eq_false_iff, Bool.or_eq_false_iff,
    Bool.not_eq_false'] at illegal
  rw [checkScriptAttribute, Verdict.findings_append, Verdict.findings_append]
  rcases illegal with (⟨offset, clock⟩ | ⟨undeclared, frames⟩) | ⟨undeclared, ticks⟩
  · rw [offset, clock]
    refine Log.FailsEach.followed (Log.FailsEach.followed ?_ _) _
    exact against_failsEach _ ⟨_, by simp only [String.append_assoc]; rfl⟩
  · rw [undeclared, frames]
    refine Log.FailsEach.followed (Log.FailsEach.after ?_ _) _
    exact against_failsEach _ ⟨_, by simp only [String.append_assoc]; rfl⟩
  · rw [undeclared, ticks]
    refine Log.FailsEach.after ?_ _
    exact against_failsEach _ ⟨_, by simp only [String.append_assoc]; rfl⟩

private theorem checkDuration_failsEach (element : Element) (permits : String → String → Bool) :
    (Verdict.when (element.hasAttribute "dur")
      (.against (.fail .ebuttdTimingAttributeConstraint (location element)
        ("dur attribute present, not permitted in EBU-TT-D - "
          ++ "ignoring in time computations.")))).findings.FailsEach
      (unpermittedAt permits element "dur") := by
  rw [unpermittedAt]
  cases present : element.hasAttribute "dur" with
  | false =>
      rw [Element.attribute?_of_absent present]
      exact .nil
  | true =>
      split
      · exact against_failsEach _
          ⟨" attribute present, not permitted in EBU-TT-D - ignoring in time computations.", rfl⟩
      · exact .nil

private theorem checkCaption_failsEach (element : Element) :
    (checkCaption element).findings.FailsEach
      (timeNames.flatMap (unpermittedAt captionsPermit element)) := by
  have offset (name : String) (timed : (name != "dur") = true) :
      (forAttribute element (checkCaptionAttribute (location element)) name).findings.FailsEach
        (unpermittedAt captionsPermit element name) := by
    apply forAttribute_failsEach
    intro text illegal
    rw [captionsPermit, timed, Bool.true_and] at illegal
    exact checkCaptionAttribute_failsEach illegal
  have duration := (checkDuration_failsEach element captionsPermit).after
    (forAttribute element (checkCaptionAttribute (location element)) "dur").findings
  have told := (offset "begin" rfl).append ((offset "end" rfl).append duration)
  rw [checkCaption, Verdict.findings_append, Verdict.forEach_findings]
  simpa [timeNames] using told

private theorem checkScript_failsEach (parameters : Time.Parameters) (element : Element) :
    (checkScript parameters element).findings.FailsEach
      (timeNames.flatMap (unpermittedAt (fun _ => scriptsPermit parameters) element)) := by
  have each : Log.FailsEach
      (timeNames.flatMap fun name => (forAttribute element
        (checkScriptAttribute parameters (location element)) name).findings)
      (timeNames.flatMap (unpermittedAt (fun _ => scriptsPermit parameters) element)) := by
    apply Log.failsEach_flatMap
    intro name _
    apply forAttribute_failsEach
    intro text illegal
    exact checkScriptAttribute_failsEach illegal
  have names : ["begin", "end", "dur", "clipBegin", "clipEnd"]
      = timeNames ++ ["clipBegin", "clipEnd"] := rfl
  rw [checkScript, Verdict.findings_append, Verdict.forEach_findings, names,
    List.flatMap_append]
  exact (each.followed _).followed _

/-! ## Resolutions -/

section

variable {τ : Type} [Quantity τ] {permits : String → String → Bool}

private theorem resolve_failsEach (rules : Rules τ)
    (fails : ∀ element, (rules.check element).findings.FailsEach
      (timeNames.flatMap (unpermittedAt permits element))) (path : Path) (body : Element) :
    (resolve rules path body).findings.FailsEach
      (unpermitted permits (upToFirst rules.stopsAt (timedWalk rules.kinds body))) := by
  rw [(resolve_visits rules path body).findings]
  apply Log.failsEach_flatMap
  intro element member
  -- What an element is checked for comes before what its attributes are read for.
  have own : ∃ rest, rules.findingsAt element = (rules.check element).findings ++ rest :=
    ⟨_, rfl⟩
  rcases own with ⟨rest, own⟩
  rw [own]
  exact (fails element).followed rest

end

private theorem captionRules_value_isOk (parameters : Time.Parameters) (element : Element)
    (name : String) : ((captionRules parameters).value element name).result.isOk
      = (element.attribute? name).all fun text => (parameters.seconds text).isOk := by
  dsimp only [captionRules]
  cases element.attribute? name with
  | none => rfl
  | some text =>
      dsimp only
      rw [Option.all_some]
      cases parameters.seconds text with
      | ok seconds => rfl
      | error fault => rfl

private theorem scriptRules_value_isOk (parameters : Time.Parameters) (element : Element)
    (name : String) : ((scriptRules parameters).value element name).result.isOk = true := by
  dsimp only [scriptRules]
  cases element.attribute? name with
  | none => rfl
  | some text =>
      dsimp only
      cases parameters.seconds text with
      | ok seconds => rfl
      | error fault => rfl

private theorem captionRules_stopsAt (parameters : Time.Parameters) :
    (captionRules parameters).stopsAt = fun element => !tellsTimes parameters element := by
  funext element
  rw [Rules.stopsAt_eq, captionRules_value_isOk, captionRules_value_isOk]
  simp [tellsTimes, captionRules]

private theorem scriptRules_stopsAt (parameters : Time.Parameters) (element : Element) :
    (scriptRules parameters).stopsAt element = false := by
  rw [Rules.stopsAt_eq, scriptRules_value_isOk, scriptRules_value_isOk,
    scriptRules_value_isOk, Bool.or_true]
  rfl

end Timing

/-! ## Checks -/

namespace Attempt

variable {α β : Type} {first : Attempt α} {next : α → Attempt β} {sites : List Site}

private theorem exists_error {attempt : Attempt α} (stops : attempt.result.isOk = false) :
    ∃ fault, attempt.result = .error fault := by
  cases result : attempt.result with
  | error fault => exact ⟨fault, rfl⟩
  | ok value =>
      rw [result] at stops
      cases stops

private theorem bind_failsEach (fails : first.findings.FailsEach sites) (next : α → Attempt β) :
    (first >>= next).findings.FailsEach sites := by
  cases result : first.result with
  | error fault =>
      rw [bind_of_error result]
      exact fails
  | ok value =>
      rw [bind_of_ok result]
      exact fails.followed _

private theorem bind_failsEach_of_ok {value : α} (gives : first.result = .ok value)
    (fails : (next value).findings.FailsEach sites) :
    (first >>= next).findings.FailsEach sites := by
  rw [bind_of_ok gives]
  exact fails.after _

end Attempt

namespace Check

private theorem orTimingFault_failsEach {attempt : Attempt Bool} {sites : List Site}
    (fails : attempt.findings.FailsEach sites) :
    (orTimingFault attempt).findings.FailsEach sites := by
  rw [orTimingFault]
  split
  · exact fails
  · exact fails.followed _

theorem timedBody?_of_first {uri : String} {root body : Element} {rest : List Element}
    (children : root.children = body :: rest)
    (named : (body.tag == Name.qualified uri "body") = true) :
    timedBody? uri root = some ([0], body) := by
  have first : (root.placedChildren []).find? (fun placed =>
      placed.2.tag == Name.qualified uri "body") = some ([0], body) := by
    rw [Element.placedChildren, children]
    exact List.find?_cons_of_pos named
  rw [timedBody?]
  dsimp only
  rw [first, Option.some_or]

variable {context : Context} {root : Element} {parameters : Time.Parameters} {path : Path}
  {body : Element}

theorem checkScriptTiming_failsEach {uri : String} (segment : Segment Float)
    (usable : (parametersOf root uri).result = .ok parameters)
    (timed : timedBody? uri root = some (path, body)) :
    (checkScriptTiming segment uri root).findings.FailsEach
      (unpermitted (fun _ => scriptsPermit parameters)
        (timedWalk (scriptRules parameters).kinds body)) := by
  have resolves := resolve_failsEach (scriptRules parameters)
    (checkScript_failsEach parameters) path body
  rw [upToFirst_of_none fun element _ => scriptRules_stopsAt parameters element] at resolves
  have timecodes : (Attempt.judge (checkTimecodes root uri parameters)).result = .ok _ := rfl
  apply orTimingFault_failsEach
  apply Attempt.bind_failsEach_of_ok usable
  apply Attempt.bind_failsEach_of_ok timecodes
  rw [timed]
  exact Attempt.bind_failsEach resolves _

theorem checkCaptionTiming_failsEach (segment : Segment Float)
    (usable : (parametersOf root context.uri).result = .ok parameters)
    (timed : timedBody? context.uri root = some (path, body)) :
    (checkCaptionTiming segment context root).findings.FailsEach
      (unpermitted captionsPermit
        (upToFirst (fun element => !tellsTimes parameters element)
          (timedWalk (captionRules parameters).kinds body))) := by
  have resolves := resolve_failsEach (captionRules parameters)
    checkCaption_failsEach path body
  rw [captionRules_stopsAt] at resolves
  apply orTimingFault_failsEach
  apply Attempt.bind_failsEach_of_ok usable
  rw [timed]
  exact Attempt.bind_failsEach resolves _

def FailsInTiming (findings : Log) : Prop :=
  ∃ finding ∈ findings, finding.status = .fail ∧ finding.code = .ttmlDocumentTiming ∧
    finding.location = "body element or descendants"

theorem checkCaptionTiming_failsInTiming (segment : Segment Float)
    (usable : (parametersOf root context.uri).result = .ok parameters)
    (timed : timedBody? context.uri root = some (path, body)) {element : Element}
    (member : element ∈ timedWalk (captionRules parameters).kinds body)
    (untold : tellsTimes parameters element = false) :
    FailsInTiming (checkCaptionTiming segment context root).findings := by
  have stops : (timedWalk (captionRules parameters).kinds body).any
      (captionRules parameters).stopsAt = true := by
    rw [captionRules_stopsAt]
    exact List.any_eq_true.mpr ⟨element, member, by rw [untold]; rfl⟩
  have completes := (resolve_visits (captionRules parameters) path body).completes
  rw [stops] at completes
  rcases Attempt.exists_error completes with ⟨fault, resolves⟩
  have faults : (captionTiming segment context root).result = .error fault := by
    rw [captionTiming, Attempt.bind_of_ok usable, timed]
    dsimp only
    rw [Attempt.bind_of_error resolves]
  rw [checkCaptionTiming, orTimingFault, faults]
  exact ⟨_, List.mem_append_right _ List.mem_cons_self, rfl, rfl, rfl⟩

/-- Each attribute of a timed element with a value that is not permitted has a failure of its
own there: in scripts of every timed element, in captions of those up to the first one with a
begin or an end that cannot be converted. If there is such an element, the check of captions
also fails as a whole. -/
theorem unpermitted_times_fail (segment : Segment Float)
    (usable : (parametersOf root context.uri).result = .ok parameters)
    (timed : timedBody? context.uri root = some (path, body)) :
    (checkScriptTiming segment context.uri root).findings.FailsEach
        (unpermitted (fun _ => scriptsPermit parameters)
          (timedWalk (scriptRules parameters).kinds body)) ∧
      (checkCaptionTiming segment context root).findings.FailsEach
        (unpermitted captionsPermit
          (upToFirst (fun element => !tellsTimes parameters element)
            (timedWalk (captionRules parameters).kinds body))) ∧
      ∀ element ∈ timedWalk (captionRules parameters).kinds body,
        tellsTimes parameters element = false →
          FailsInTiming (checkCaptionTiming segment context root).findings :=
  ⟨checkScriptTiming_failsEach segment usable timed,
    checkCaptionTiming_failsEach segment usable timed,
    fun _ member untold => checkCaptionTiming_failsInTiming segment usable timed member untold⟩

def neverParagraph : Element :=
  { Element.bare (Name.qualified Vocabulary.core "p") with attributes := [("begin", "never")] }

def laterParagraph : Element :=
  { Element.bare (Name.qualified Vocabulary.core "p") with
    attributes := [(Name.qualified Vocabulary.xml "id", "b"), ("end", "later")] }

def untimelyBody : Element :=
  { Element.bare (Name.qualified Vocabulary.core "body") with
    children := [neverParagraph, laterParagraph] }

def untimelyDocument : Element :=
  { Element.bare (Name.qualified Vocabulary.core "tt") with children := [untimelyBody] }

theorem timedBody?_untimely :
    timedBody? (Context.initial false).uri untimelyDocument = some ([0], untimelyBody) :=
  timedBody?_of_first rfl (by decide +kernel)

theorem unpermitted_times_fail_untimely :
    let scripts := unpermitted (fun _ => scriptsPermit .undeclared)
      (timedWalk (scriptRules .undeclared).kinds untimelyBody)
    let captions := unpermitted captionsPermit
      (upToFirst (fun element => !tellsTimes .undeclared element)
        (timedWalk (captionRules .undeclared).kinds untimelyBody))
    scripts.map Site.name = ["begin", "end"] ∧
      (checkScriptTiming .whole (Context.initial false).uri untimelyDocument).findings.FailsEach
        scripts ∧
      captions.map Site.name = ["begin"] ∧
      (checkCaptionTiming .whole (.initial false) untimelyDocument).findings.FailsEach
        captions ∧
      FailsInTiming (checkCaptionTiming .whole (.initial false) untimelyDocument).findings := by
  intro scripts captions
  have usable : (parametersOf untimelyDocument (Context.initial false).uri).result
      = .ok .undeclared := rfl
  rcases unpermitted_times_fail .whole usable timedBody?_untimely with
    ⟨scriptsFail, captionsFail, fails⟩
  have member : neverParagraph ∈
      timedWalk (captionRules .undeclared).kinds untimelyBody :=
    mem_timedWalk_iff.mpr ⟨[0], _, .inside
      (List.mem_filter.mpr ⟨List.mem_cons_self, by decide +kernel⟩) (.here _)⟩
  exact ⟨by decide +kernel, scriptsFail, by decide +kernel, captionsFail,
    fails _ member (by decide +kernel)⟩

/-- In captions an element with a value that is not permitted may have no finding at all, where
an element before it has a value without a meaning. -/
theorem captions_hide_times :
    (parametersOf untimelyDocument (Context.initial false).uri).result = .ok .undeclared ∧
      timedBody? (Context.initial false).uri untimelyDocument = some ([0], untimelyBody) ∧
      laterParagraph ∈ timedWalk (captionRules .undeclared).kinds untimelyBody ∧
      laterParagraph.attribute? "end" = some "later" ∧
      captionsPermit "end" "later" = false ∧
      ∀ finding ∈ (checkCaptionTiming .whole (.initial false) untimelyDocument).findings,
        finding.location ≠ location laterParagraph := by
  have member : laterParagraph ∈
      timedWalk (captionRules .undeclared).kinds untimelyBody :=
    mem_timedWalk_iff.mpr ⟨[1], _, .inside
      (List.mem_filter.mpr ⟨List.mem_cons_of_mem _ List.mem_cons_self, by decide +kernel⟩)
      (.here _)⟩
  exact ⟨rfl, timedBody?_untimely, member, by decide +kernel, by decide +kernel,
    by decide +kernel⟩

end Check

end TimedText
