import TimedText.Proofs.Markup.Construction
import TimedText.Proofs.Markup.Heading
import TimedText.Proofs.Markup.RenamedText
/-!
Documents with their prefixes renamed. A renamed prefix stands for what the prefix stands
for wherever the prefix is used, and so the document is the same.
-/

namespace TimedText.Markup

section

variable {rename : String → String} {prefixes : List String}
  (renames : IsRenaming rename prefixes)

/-! ## Scopes -/

/-- Each known prefix stands, after it is renamed, for what it stands for. -/
private structure Scope.Carries (rename : String → String) (prefixes : List String)
    (scope changed : Scope) : Prop where
  default : changed.default = scope.default
  uri? : ∀ before, Known prefixes before → changed.uri? (rename before) = scope.uri? before

private theorem known_of_declared {key : List Char} {declared : String}
    (known : KeyKnown prefixes key) (declares : declaredPrefix? key = some declared) :
    Known prefixes declared := by
  rw [declaredPrefix?_eq] at declares
  cases parts : prefixAndPart? key with
  | none =>
      rw [parts] at declares
      dsimp only at declares
      split at declares
      · cases declares
        exact .inr (by decide)
      · cases declares
  | some pair =>
      rcases pair with ⟨before, part⟩
      rw [parts] at declares
      dsimp only at declares
      split at declares
      next own =>
        cases declares
        exact known.declared (own ▸ parts)
      next => cases declares

private def renamedPair (rename : String → String) (pair : List Char × String) :
    List Char × String :=
  (renamedKey rename pair.1, pair.2)

include renames

namespace Scope.Carries

variable {scope changed : Scope} (carries : Scope.Carries rename prefixes scope changed)

omit renames in
private theorem outermost (renames : IsRenaming rename prefixes) :
    Scope.Carries rename prefixes .outermost .outermost where
  default := rfl
  uri? before known := by
    have same : rename before = "xml" ↔ before = "xml" :=
      renames.eq_reserved_iff known (by decide)
    simp only [Scope.outermost, same]

include carries

private theorem declare {declared : String} (known : Known prefixes declared) (uri : String) :
    Scope.Carries rename prefixes (scope.declare declared uri)
      (changed.declare (rename declared) uri) := by
  have default : rename declared = "" ↔ declared = "" :=
    renames.eq_reserved_iff known (by decide)
  have reserved : rename declared = "xml" ↔ declared = "xml" :=
    renames.eq_reserved_iff known (by decide)
  simp only [Scope.declare, default, reserved]
  split
  next => exact ⟨rfl, carries.uri?⟩
  next =>
    split
    next => exact carries
    next =>
      refine ⟨carries.default, fun before used => ?_⟩
      have same : rename before = rename declared ↔ before = declared :=
        ⟨renames.eq_of_eq used known, congrArg rename⟩
      simp only [same, carries.uri? before used]

private theorem within {attributes : List (List Char × String)}
    (known : ∀ pair ∈ attributes, KeyKnown prefixes pair.1) :
    Scope.Carries rename prefixes (scope.within attributes)
      (changed.within (attributes.map (renamedPair rename))) := by
  induction attributes generalizing scope changed with
  | nil => exact carries
  | cons pair rest induction =>
      rcases List.forall_mem_cons.mp known with ⟨own, others⟩
      have next : Scope.Carries rename prefixes (scope.within [pair])
          (changed.within [renamedPair rename pair]) := by
        simp only [Scope.within, List.foldl_cons, List.foldl_nil, renamedPair,
          declaredPrefix?_renamedKey renames own]
        cases declares : declaredPrefix? pair.1 with
        | none => exact carries
        | some declared =>
            exact carries.declare renames (known_of_declared own declares) pair.2
      exact induction next others

private theorem resolve {before part name : String} (known : Known prefixes before)
    (resolves : scope.resolve before part = .ok name) :
    changed.resolve (rename before) part = .ok name := by
  have default : rename before = "" ↔ before = "" :=
    renames.eq_reserved_iff known (by decide)
  rw [Scope.resolve] at resolves ⊢
  simp only [default, carries.default, carries.uri? before known]
  split at resolves
  next unprefixed => rwa [if_pos unprefixed]
  next prefixed =>
    rw [if_neg prefixed]
    split at resolves
    next => exact resolves
    next => cases resolves

private theorem elementName {written : List Char} {name : String}
    (known : NameKnown prefixes written) (resolves : scope.elementName written = .ok name) :
    changed.elementName (renamedName rename written) = .ok name := by
  rw [Scope.elementName, prefixAndPart?_renamedName renames known]
  rw [Scope.elementName] at resolves
  cases parts : prefixAndPart? written with
  | none =>
      rw [parts] at resolves
      have same : renamedName rename written = written := by rw [renamedName, parts]
      have kept := carries.resolve renames (.inr (by decide)) resolves
      rw [renames.kept "" (by decide)] at kept
      rw [same]
      exact kept
  | some pair =>
      rw [parts] at resolves
      exact carries.resolve renames (known _ _ parts) resolves

private theorem attributeName {key : List Char} {name : String} (known : KeyKnown prefixes key)
    (plain : declaredPrefix? key = none) (resolves : scope.attributeName key = .ok name) :
    changed.attributeName (renamedKey rename key) = .ok name := by
  rw [Scope.attributeName, prefixAndPart?_renamedKey renames known]
  rw [Scope.attributeName] at resolves
  cases parts : prefixAndPart? key with
  | none =>
      rw [parts] at resolves
      have same : renamedKey rename key = key := by rw [renamedKey, parts]
      rw [same]
      exact resolves
  | some pair =>
      rcases pair with ⟨before, part⟩
      rw [parts] at resolves
      have other : before ≠ declaring := by
        rintro rfl
        rw [declaredPrefix?_eq, parts] at plain
        cases plain
      dsimp only [Option.map_some]
      rw [if_neg other]
      exact carries.resolve renames (known.used parts other) resolves

private theorem named {attributes : List (List Char × String)} {names : List (String × String)}
    (known : ∀ pair ∈ attributes,
      KeyKnown prefixes pair.1 ∧ declaredPrefix? pair.1 = none)
    (resolves : scope.named attributes = .ok names) :
    changed.named (attributes.map (renamedPair rename)) = .ok names := by
  refine Scope.named_eq_ok_iff.mpr (List.forall₂_map_left_iff.mpr ?_)
  have each := (List.forall₂_and_left _ _).mpr
    ⟨known, Scope.named_eq_ok_iff.mp resolves⟩
  refine each.imp ?_
  rintro pair name ⟨⟨own, plain⟩, resolved, value⟩
  exact ⟨carries.attributeName renames own plain resolved, value⟩

end Scope.Carries

/-! ## Start tags -/

omit renames in
private theorem StartTag.keyKnown {tag : List Char} {start : StartTag}
    (known : TagKnown prefixes tag) (reads : StartTag.read tag = .ok start) :
    ∀ pair ∈ start.attributes, KeyKnown prefixes pair.1 := by
  intro own member
  have written := List.mem_map_of_mem (f := Prod.fst) member
  rw [StartTag.keys_of_read reads] at written
  rcases List.mem_map.mp written with ⟨pair, read, same⟩
  rw [← same]
  exact known.keys pair read

private theorem StartTag.read_of_renamed {tag other : List Char} {start : StartTag}
    (known : TagKnown prefixes tag) (tags : TagRenamed rename tag other)
    (reads : StartTag.read tag = .ok start) :
    StartTag.read other
      = .ok ⟨renamedName rename start.name, start.attributes.map (renamedPair rename)⟩ := by
  rcases StartTag.read_eq_ok_iff.mp reads with ⟨sound, name, means⟩
  refine StartTag.read_eq_ok_iff.mpr ?_
  rw [attributesOf_of_renamed renames known sound tags]
  refine ⟨rfl, ?_, ?_⟩
  · rw [tags.name, name]
  · refine List.forall₂_map_left_iff.mpr (List.forall₂_map_right_iff.mpr (means.imp ?_))
    rintro pair own ⟨same, expanded⟩
    exact ⟨congrArg (renamedKey rename) same, expanded⟩

private theorem plainAttributes_renamed {name : List Char} {attributes : List (List Char × String)}
    (known : ∀ pair ∈ attributes, KeyKnown prefixes pair.1) :
    StartTag.plainAttributes ⟨name, attributes.map (renamedPair rename)⟩
      = (StartTag.plainAttributes ⟨name, attributes⟩).map (renamedPair rename) := by
  rw [StartTag.plainAttributes, StartTag.plainAttributes, List.filter_map]
  congr 1
  refine List.filter_congr fun pair member => ?_
  rw [Function.comp_apply, renamedPair, declaredPrefix?_renamedKey renames (known pair member),
    Option.isNone_map]

private theorem Heading.read_of_renamed {scope changed : Scope}
    (carries : Scope.Carries rename prefixes scope changed) {tag other : List Char}
    {heading : Heading} (known : TagKnown prefixes tag) (tags : TagRenamed rename tag other)
    (reads : Heading.read id scope tag = .ok heading) :
    ∃ inner, Heading.read id changed other
        = .ok ⟨heading.name, heading.attributes, inner⟩ ∧
      Scope.Carries rename prefixes heading.scope inner := by
  rcases Heading.read_eq_ok_iff.mp reads with ⟨start, own, inside, resolves, names⟩
  have keys := StartTag.keyKnown known own
  have inner := carries.within renames keys
  rw [← inside] at inner
  refine ⟨_, Heading.read_eq_ok_iff.mpr
    ⟨_, StartTag.read_of_renamed renames known tags own, rfl, ?_, ?_⟩, inner⟩
  · have nameKnown : NameKnown prefixes start.name := by
      rw [(StartTag.read_eq_ok_iff.mp own).2.1]
      exact known.name
    exact inner.elementName renames nameKnown resolves
  · rw [plainAttributes_renamed renames keys]
    refine inner.named renames (fun pair member => ?_) names
    rcases List.mem_filter.mp member with ⟨member, plain⟩
    exact ⟨keys pair member, Option.isNone_iff_eq_none.mp plain⟩

/-! ## Fragments -/

omit renames in
private theorem forall₂_append_left {α β : Type} {related : α → β → Prop} {front rest : List α}
    {others : List β} (each : List.Forall₂ related (front ++ rest) others) :
    ∃ first second, others = first ++ second ∧ List.Forall₂ related front first ∧
      List.Forall₂ related rest second := by
  refine ⟨others.take front.length, others.drop front.length,
    (List.take_append_drop _ others).symm, ?_, ?_⟩
  · exact (List.forall₂_take_append others front rest each.flip).flip
  · exact (List.forall₂_drop_append others front rest each.flip).flip

private inductive FragmentRenamed (rename : String → String) : Fragment → Fragment → Prop
  | done : FragmentRenamed rename .done .done
  | plain {following changed : Fragment} (leaf : Leaf)
      (after : FragmentRenamed rename following changed) :
      FragmentRenamed rename (.plain leaf following) (.plain leaf changed)
  | single {tag other : List Char} {following changed : Fragment}
      (tags : TagRenamed rename tag other) (after : FragmentRenamed rename following changed) :
      FragmentRenamed rename (.single tag following) (.single other changed)
  | nested {tag other : List Char} {inside changedInside following changed : Fragment}
      (tags : TagRenamed rename tag other)
      (within : FragmentRenamed rename inside changedInside)
      (after : FragmentRenamed rename following changed) :
      FragmentRenamed rename (.nested tag inside following)
        (.nested other changedInside changed)

namespace FragmentRenamed

variable {fragment changed : Fragment}

omit renames in
private theorem of_events {others : List Event}
    (each : List.Forall₂ (EventRenamed rename) fragment.events others) :
    ∃ changed, others = changed.events ∧ FragmentRenamed rename fragment changed := by
  induction fragment generalizing others with
  | done =>
      cases each
      exact ⟨.done, rfl, .done⟩
  | plain leaf following induction =>
      rcases List.forall₂_cons_left_iff.mp each with ⟨event, rest, own, others, rfl⟩
      rcases induction others with ⟨changed, rfl, after⟩
      have same : event = leaf.event := by
        cases leaf <;>
          cases own
        all_goals rfl
      exact ⟨.plain leaf changed, by rw [same]; rfl, .plain leaf after⟩
  | single tag following induction =>
      rcases List.forall₂_cons_left_iff.mp each with ⟨event, rest, own, others, rfl⟩
      rcases induction others with ⟨changed, rfl, after⟩
      cases own with
      | empty tags => exact ⟨.single _ changed, rfl, .single tags after⟩
      | other untagged => exact absurd rfl (untagged tag).2
  | nested tag inside following insideInduction induction =>
      rcases List.forall₂_cons_left_iff.mp each with ⟨event, rest, own, more, rfl⟩
      rcases forall₂_append_left more with ⟨first, second, rfl, inner, ending⟩
      rcases List.forall₂_cons_left_iff.mp ending with ⟨last, rest, ends, others, rfl⟩
      rcases insideInduction inner with ⟨changedInside, rfl, within⟩
      rcases induction others with ⟨changed, rfl, after⟩
      cases ends
      cases own with
      | start tags => exact ⟨.nested _ changedInside changed, rfl, .nested tags within after⟩
      | other untagged => exact absurd rfl (untagged tag).1

private theorem content (related : FragmentRenamed rename fragment changed) {scope other : Scope}
    {content : Content} (carries : Scope.Carries rename prefixes scope other)
    (known : ∀ event ∈ fragment.events, event.prefixes ⊆ prefixes)
    (described : fragment.content id scope = .ok content) :
    changed.content id other = .ok content := by
  induction related generalizing scope other content with
  | done => exact described
  | plain leaf after induction =>
      rcases exists_of_bind described with ⟨added, own, described⟩
      rcases exists_of_bind described with ⟨further, following, described⟩
      have others := (List.forall_mem_cons.mp known).2
      exact bind_of_ok own (bind_of_ok (induction carries others following) described)
  | single tags after induction =>
      rcases exists_of_bind described with ⟨heading, begins, described⟩
      rcases exists_of_bind described with ⟨further, following, described⟩
      rcases List.forall_mem_cons.mp known with ⟨own, others⟩
      rcases Heading.read_of_renamed renames carries (tagKnown_of_subset own) tags begins with
        ⟨inner, changedBegins, -⟩
      exact bind_of_ok changedBegins
        (bind_of_ok (induction carries others following) described)
  | nested tags within after withinInduction induction =>
      rcases exists_of_bind described with ⟨heading, begins, described⟩
      rcases exists_of_bind described with ⟨own, holds, described⟩
      rcases exists_of_bind described with ⟨further, following, described⟩
      rcases List.forall_mem_cons.mp known with ⟨tagged, others⟩
      rcases List.forall_mem_append.mp others with ⟨inside, others⟩
      rcases Heading.read_of_renamed renames carries (tagKnown_of_subset tagged) tags begins
        with ⟨inner, changedBegins, innerCarries⟩
      have outside := (List.forall_mem_cons.mp others).2
      exact bind_of_ok changedBegins
        (bind_of_ok (withinInduction innerCarries inside holds)
          (bind_of_ok (induction carries outside following) described))

private theorem root (related : FragmentRenamed rename fragment changed) {found : Option Element}
    {root : Element} (known : ∀ event ∈ fragment.events, event.prefixes ⊆ prefixes)
    (described : fragment.root id found = .ok root) :
    changed.root id found = .ok root := by
  have outer := Scope.Carries.outermost renames
  induction related generalizing found with
  | done => exact described
  | plain leaf after induction =>
      rcases exists_of_bind described with ⟨added, own, described⟩
      refine bind_of_ok own ?_
      split at described
      next blank =>
        rw [if_pos blank]
        exact induction (List.forall_mem_cons.mp known).2 described
      next => split at described <;> cases described
  | single tags after induction =>
      cases found with
      | some found => cases described
      | none =>
          rcases exists_of_bind described with ⟨heading, begins, described⟩
          rcases List.forall_mem_cons.mp known with ⟨own, others⟩
          rcases Heading.read_of_renamed renames outer (tagKnown_of_subset own) tags begins
            with ⟨inner, changedBegins, -⟩
          exact bind_of_ok changedBegins (induction others described)
  | nested tags within after withinInduction induction =>
      cases found with
      | some found => cases described
      | none =>
          rcases exists_of_bind described with ⟨heading, begins, described⟩
          rcases exists_of_bind described with ⟨own, holds, described⟩
          rcases List.forall_mem_cons.mp known with ⟨tagged, others⟩
          rcases List.forall_mem_append.mp others with ⟨inside, others⟩
          rcases Heading.read_of_renamed renames outer (tagKnown_of_subset tagged) tags begins
            with ⟨inner, changedBegins, innerCarries⟩
          exact bind_of_ok changedBegins
            (bind_of_ok (within.content renames innerCarries inside holds)
              (induction (List.forall_mem_cons.mp others).2 described))

end FragmentRenamed

/-! ## Documents -/

namespace Construction

theorem built_of_renamed {events others : List Event} {root : Element}
    (known : ∀ event ∈ events, event.prefixes ⊆ prefixes)
    (each : List.Forall₂ (EventRenamed rename) events others)
    (builds : built events = .ok root) : built others = .ok root := by
  rcases built_nested builds with ⟨fragment, rfl⟩
  rcases FragmentRenamed.of_events each with ⟨changed, rfl, related⟩
  refine (follow_root changed none).trans (related.root renames known ?_)
  exact (follow_root fragment none).symm.trans builds

omit renames in
private theorem begin_sound {construction : Construction} {tag : List Char} {frame : Frame}
    (begins : construction.begin tag = .ok frame) : (attributesOf true tag).flaw = none := by
  rw [begin] at begins
  split at begins
  · cases begins
  · rcases exists_of_bind begins with ⟨start, reads, -⟩
    exact (StartTag.read_eq_ok_iff.mp reads).1

omit renames in
theorem sound_of_follow {events : List Event} {construction last : Construction}
    (follows : construction.follow events = .ok last) : ∀ event ∈ events, event.Sound := by
  induction events generalizing construction with
  | nil => exact nofun
  | cons event rest induction =>
      rw [follow, List.foldlM_cons] at follows
      rcases exists_of_bind follows with ⟨grown, step, follows⟩
      refine List.forall_mem_cons.mpr ⟨?_, induction follows⟩
      cases event with
      | start tag =>
          rcases exists_of_bind step with ⟨frame, begins, -⟩
          exact begin_sound begins
      | empty tag =>
          rcases exists_of_bind step with ⟨frame, begins, -⟩
          exact begin_sound begins
      | _ => trivial

end Construction

omit renames in
theorem foldl_precedesRoot {events others : List Event}
    (each : List.Forall₂ (EventRenamed rename) events others) (prolog : Prolog) :
    (others.takeWhile Prolog.precedesRoot).foldl Prolog.afterEvent prolog
      = (events.takeWhile Prolog.precedesRoot).foldl Prolog.afterEvent prolog := by
  induction each generalizing prolog with
  | nil => rfl
  | cons own more induction =>
      cases own with
      | start tags => rfl
      | empty tags => rfl
      | other untagged =>
          rw [List.takeWhile_cons, List.takeWhile_cons]
          split
          · exact induction _
          · rfl

omit renames in
/-- What is read from a document does not depend on its prefixes. Any text that has the
markup of the document with the prefixes renamed is read as the same document, and to write
over the prefixes makes such a text. -/
theorem read_renamed {text : String} {document : Document}
    (reads : Document.read text = .ok document)
    (renames : IsRenaming rename (prefixesOf text)) :
    (∀ other, IsRenamed rename text other → Document.read other = .ok document) ∧
      (IsWritten rename (prefixesOf text) →
        IsRenamed rename text (renamed rename text)) := by
  rcases Construction.read_eq_ok_iff.mp reads with ⟨whole, builds, prolog⟩
  have known : ∀ event ∈ (transcribe text.toList).events.map Prod.fst,
      event.prefixes ⊆ prefixesOf text :=
    fun event member before used => List.mem_flatMap.mpr ⟨event, member, used⟩
  constructor
  · intro other same
    refine Construction.read_eq_ok_iff.mpr ⟨same.whole, ?_, ?_⟩
    · exact Construction.built_of_renamed renames known same.events builds
    · exact (foldl_precedesRoot same.events .empty).trans prolog
  · intro writes
    rcases exists_of_bind builds with ⟨last, follows, -⟩
    have sound := Construction.sound_of_follow follows
    exact isRenamed_renamed renames writes whole fun event member =>
      ⟨known event member, sound event member⟩

end

/-! ### Exchanged prefixes -/

def prefixedText : String :=
  "<a:tt xmlns:a=\"u\" xmlns=\"v\"><p xmlns:b='w' b:x=\"a:\" xml:lang=\"en\"/></a:tt>"

def exchangedText : String :=
  "<b:tt xmlns:b=\"u\" xmlns=\"v\"><p xmlns:a='w' a:x=\"a:\" xml:lang=\"en\"/></b:tt>"

def exchange (before : String) : String :=
  if before = "a" then "b" else if before = "b" then "a" else before

theorem read_renamed_exchange :
    ∃ document, Document.read prefixedText = .ok document ∧
      IsRenaming exchange (prefixesOf prefixedText) ∧
      IsWritten exchange (prefixesOf prefixedText) ∧
      renamed exchange prefixedText = exchangedText ∧
      IsRenamed exchange prefixedText exchangedText ∧
      Document.read exchangedText = .ok document := by
  have prefixes : prefixesOf prefixedText = ["a", "a", "b", "b", "xml"] := by decide +kernel
  have succeeds : (Document.read prefixedText).toOption.isSome = true := by decide +kernel
  have spelled : renamed exchange prefixedText = exchangedText := by decide +kernel
  have renames : IsRenaming exchange (prefixesOf prefixedText) := by
    rw [prefixes]
    exact ⟨by decide, by decide, by decide, by decide⟩
  have writes : IsWritten exchange (prefixesOf prefixedText) := by
    rw [prefixes]
    intro before member other
    have single {holds : Char → Prop} {letter : Char} (own : holds letter) :
        ∀ character ∈ [letter], holds character :=
      List.forall_mem_singleton.mpr own
    have listed : before = "a" ∨ before = "b" ∨ before = "xml" := by simpa using member
    rcases listed with rfl | rfl | rfl
    · exact ⟨single rfl, by decide, single rfl⟩
    · exact ⟨single rfl, by decide, single rfl⟩
    · exact absurd rfl other
  cases reads : Document.read prefixedText with
  | error error =>
      rw [reads] at succeeds
      cases succeeds
  | ok document =>
      have same := (read_renamed reads renames).2 writes
      rw [spelled] at same
      exact ⟨document, rfl, renames, writes, spelled, same,
        (read_renamed reads renames).1 exchangedText same⟩

end TimedText.Markup
