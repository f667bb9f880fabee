import TimedText.Markup.Document
import TimedText.Proofs.Markup.DefaultNamespace
/-!
The construction of a tree from events, the open elements standing on a stack, against
the tree that well nested events describe. They differ for attributes whose names begin
with a colon: the construction puts these into the default namespace.
-/

namespace TimedText.Markup

/-! ## Bindings as scopes -/

def Bindings.scope (bindings : Bindings) : Scope :=
  bindings.foldr (fun (declared, uri) scope => scope.declare declared uri) .outermost

private theorem scope_default (bindings : Bindings) :
    bindings.scope.default
      = ((bindings.find? fun binding => binding.1 == "").map Prod.snd).getD "" := by
  induction bindings with
  | nil => rfl
  | cons binding rest induction =>
      change (Scope.declare (Bindings.scope rest) binding.1 binding.2).default = _
      rw [Scope.declare, List.find?_cons]
      by_cases default : binding.1 = ""
      · rw [if_pos default, default]
        rfl
      · rw [if_neg default, beq_eq_false_iff_ne.mpr default, ← induction]
        split <;> rfl

private theorem scope_uri? (bindings : Bindings) {before : String} (prefixed : before ≠ "") :
    bindings.scope.uri? before
      = if before = "xml" then some Vocabulary.xml
        else (bindings.find? fun binding => binding.1 == before).map Prod.snd := by
  induction bindings with
  | nil => rfl
  | cons binding rest induction =>
      change (Scope.declare (Bindings.scope rest) binding.1 binding.2).uri? before = _
      rw [Scope.declare, List.find?_cons]
      by_cases same : binding.1 = before
      · subst same
        rw [if_neg prefixed, beq_self_eq_true]
        split
        next reserved => rw [induction, if_pos reserved]
        next other => exact if_pos rfl
      · rw [beq_eq_false_iff_ne.mpr same, ← induction]
        repeat' split
        · rfl
        · rfl
        · exact if_neg (Ne.symm same)

private theorem qualify_eq (bindings : Bindings) (before part : String) :
    qualify bindings before part = bindings.scope.resolve before part := by
  rw [qualify, Scope.resolve]
  by_cases unprefixed : before = ""
  · subst unprefixed
    rw [if_neg (by decide), if_pos rfl, scope_default]
    cases bindings.find? fun binding => binding.1 == "" <;> rfl
  · rw [if_neg unprefixed, scope_uri? bindings unprefixed]
    by_cases reserved : before = "xml"
    · rw [if_pos reserved, if_pos reserved]
    · rw [if_neg reserved, if_neg reserved]
      cases bindings.find? fun binding => binding.1 == before with
      | some binding => rfl
      | none => exact if_neg (by simpa using unprefixed)

private theorem elementName_eq (bindings : Bindings) (written : List Char) :
    elementName bindings written = bindings.scope.elementName written := by
  rw [elementName, Scope.elementName]
  cases prefixAndPart? written <;> exact qualify_eq _ _ _

private theorem attributeName_eq (bindings : Bindings) (written : List Char) :
    attributeName bindings written = bindings.scope.attributeName written := by
  rw [attributeName, Scope.attributeName]
  cases prefixAndPart? written with
  | none => rfl
  | some parts => exact qualify_eq _ _ _

private theorem scope_declarations (tag : StartTag) (bindings : Bindings) :
    Bindings.scope (tag.declarations ++ bindings) = bindings.scope.within tag.attributes := by
  rw [StartTag.declarations, Bindings.scope, List.foldr_append, List.foldr_reverse,
    List.foldl_filterMap]
  change _ = tag.attributes.foldl _ bindings.scope
  congr 1
  funext scope ⟨key, value⟩
  dsimp only
  cases declaredPrefix? key <;> rfl

/-! ## Beginning an element -/

theorem begin_eq {construction : Construction}
    (takes : (construction.frames.isEmpty && construction.root.isSome) = false)
    (tag : List Char) :
    (∃ flaw, construction.begin tag = .error flaw ∧
        Heading.read id construction.bindings.scope tag = .error flaw) ∨
      ∃ heading bindings,
        construction.begin tag = .ok ⟨heading.name, heading.attributes, [], none, bindings⟩ ∧
        Heading.read id construction.bindings.scope tag = .ok heading ∧
        Bindings.scope bindings = heading.scope := by
  rw [Construction.begin, takes, if_neg Bool.false_ne_true, Heading.read]
  cases StartTag.read tag with
  | error flaw => exact .inl ⟨flaw, rfl, rfl⟩
  | ok tag =>
      have scope := scope_declarations tag construction.bindings
      have names : tag.qualifiedAttributes (tag.declarations ++ construction.bindings)
          = (construction.bindings.scope.within tag.attributes).named
            (tag.attributes.filter fun pair => (declaredPrefix? pair.1).isNone) := by
        simp only [StartTag.qualifiedAttributes, Scope.named, attributeName_eq, scope]
      dsimp only [bind, Except.bind, pure, Except.pure, id]
      rw [elementName_eq, scope, ← names]
      cases (construction.bindings.scope.within tag.attributes).elementName tag.name with
      | error flaw => exact .inl ⟨flaw, rfl, rfl⟩
      | ok name =>
          cases tag.qualifiedAttributes (tag.declarations ++ construction.bindings) with
          | error flaw => exact .inl ⟨flaw, rfl, rfl⟩
          | ok attributes => exact .inr ⟨_, _, rfl, rfl, scope⟩

/-! ## Filling an element -/

namespace Frame

private def extended (frame : Frame) (content : Content) : Frame :=
  let told := content.text.elim frame frame.addText
  { told with children := content.children.reverse ++ told.children }

variable {frame : Frame} {content : Content}

private theorem addText_addText (first second : String) :
    (frame.addText first).addText second = frame.addText (first ++ second) := by
  cases frame with
  | mk tag attributes children text bindings =>
      cases children <;> simp [addText, String.append_assoc]

private theorem extended_afterData (added : Option String) :
    (added.elim frame frame.addText).extended content
      = frame.extended (content.afterData added) := by
  cases added with
  | none => rfl
  | some added =>
      cases content with
      | mk text children =>
          cases text with
          | none => simp [extended, Content.afterData]
          | some text => simp [extended, Content.afterData, addText_addText]

private theorem extended_afterElement (heading : Heading) (own : Content) :
    (frame.addChild (heading.element own)).extended content
      = frame.extended (content.afterElement (heading.element own)) := by
  cases content with
  | mk text children =>
      cases text with
      | none => simp [extended, Content.afterElement, addChild, Heading.element]
      | some text => simp [extended, Content.afterElement, addChild, addText, Heading.element]

private theorem element_extended (bindings : Bindings) (heading : Heading) (own : Content) :
    (extended ⟨heading.name, heading.attributes, [], none, bindings⟩ own).element
      = heading.element own := by
  cases own with
  | mk text children =>
      cases text <;> simp [extended, element, addText, Heading.element]

private theorem bindings_addText (added : String) :
    (frame.addText added).bindings = frame.bindings := by
  unfold addText
  split <;> rfl

end Frame

/-! ## Following a fragment -/

namespace Construction

/-- The construction after events, their places left aside. -/
def follow (construction : Construction) (events : List Event) : Except Flaw Construction :=
  events.foldlM afterEvent construction

variable {frame : Frame} {outer : List Frame} {root : Option Element}

private theorem afterEvent_leaf (leaf : Leaf) :
    Construction.afterEvent ⟨frame :: outer, root⟩ leaf.event
      = leaf.characterData.map fun added =>
          ⟨added.elim frame frame.addText :: outer, root⟩ := by
  cases leaf with
  | reference name =>
      rw [Leaf.event, afterEvent, Leaf.characterData]
      cases meaning? name <;> rfl
  | _ => rfl

/-- Inside an element, a fragment puts into it what it describes, and leaves the elements
around it alone. -/
private def Fills (fragment : Fragment) : Prop :=
  ∀ frame outer root, follow ⟨frame :: outer, root⟩ fragment.events
    = (fragment.content id frame.bindings.scope).map fun content =>
        ⟨frame.extended content :: outer, root⟩

section

variable {construction : Construction}
  (takes : (construction.frames.isEmpty && construction.root.isSome) = false)
  (tag : List Char) (rest : List Event)

include takes

private theorem follow_single :
    construction.follow (.empty tag :: rest) = (do
      let heading ← Heading.read id construction.bindings.scope tag
      let grown ← construction.add (heading.element .empty)
      grown.follow rest) := by
  rw [follow, List.foldlM_cons, afterEvent]
  rcases begin_eq takes tag with
    ⟨flaw, fails, read⟩ | ⟨heading, bindings, begins, read, -⟩
  · rw [fails, read]
    rfl
  · rw [begins, read]
    rfl

private theorem follow_nested {inside : Fragment} (fills : Fills inside) :
    construction.follow (.start tag :: (inside.events ++ .finish :: rest)) = (do
      let heading ← Heading.read id construction.bindings.scope tag
      let own ← inside.content id heading.scope
      let grown ← construction.add (heading.element own)
      grown.follow rest) := by
  rw [follow, List.foldlM_cons, afterEvent]
  rcases begin_eq takes tag with
    ⟨flaw, fails, read⟩ | ⟨heading, bindings, begins, read, inner⟩
  · rw [fails, read]
    rfl
  · have filled := fills ⟨heading.name, heading.attributes, [], none, bindings⟩
      construction.frames construction.root
    rw [inner] at filled
    rw [begins, read]
    change List.foldlM _ _ (inside.events ++ .finish :: rest) = _
    rw [List.foldlM_append]
    change follow _ inside.events >>= _ = inside.content id heading.scope >>= _
    rw [filled]
    cases inside.content id heading.scope with
    | error flaw => rfl
    | ok own =>
        have ended := Frame.element_extended bindings heading own
        change _ = construction.add (heading.element own) >>= _
        rw [← ended]
        rfl

end

private theorem map_eq_map_bind {first : Except Flaw Content} {next : Content → Content}
    {left right : Content → Construction}
    (same : ∀ content, left content = right (next content)) :
    first.map left = (first >>= fun content => pure (next content)).map right := by
  cases first with
  | error flaw => rfl
  | ok content => exact congrArg Except.ok (same content)

private theorem fills (fragment : Fragment) : Fills fragment := by
  induction fragment with
  | done => exact fun _ _ _ => rfl
  | plain leaf following induction =>
      intro frame outer root
      rw [Fragment.events, follow, List.foldlM_cons, afterEvent_leaf, Fragment.content]
      cases leaf.characterData with
      | error flaw => rfl
      | ok added =>
          have same : (added.elim frame frame.addText).bindings = frame.bindings := by
            cases added with
            | none => rfl
            | some added => exact Frame.bindings_addText added
          refine (induction _ outer root).trans ?_
          rw [same]
          exact map_eq_map_bind fun content => by rw [Frame.extended_afterData]
  | single tag following induction =>
      intro frame outer root
      rw [Fragment.events, follow_single rfl, Fragment.content]
      change Heading.read id frame.bindings.scope tag >>= _ = _
      cases Heading.read id frame.bindings.scope tag with
      | error flaw => rfl
      | ok heading =>
          refine (induction (frame.addChild (heading.element .empty)) outer root).trans ?_
          exact map_eq_map_bind fun content => by rw [Frame.extended_afterElement]
  | nested tag inside following insideFills induction =>
      intro frame outer root
      rw [Fragment.events, follow_nested rfl tag _ insideFills, Fragment.content]
      change Heading.read id frame.bindings.scope tag >>= _ = _
      cases Heading.read id frame.bindings.scope tag with
      | error flaw => rfl
      | ok heading =>
          change inside.content id heading.scope >>= _
            = Except.map _ (inside.content id heading.scope >>= _)
          cases inside.content id heading.scope with
          | error flaw => rfl
          | ok own =>
              refine (induction (frame.addChild (heading.element own)) outer root).trans ?_
              exact map_eq_map_bind fun content => by rw [Frame.extended_afterElement]

/-! ## Whole documents -/

def outcome (construction : Construction) : Except Flaw Element :=
  match construction.frames, construction.root with
  | _ :: _, _ => .error .unclosedElement
  | [], none => .error .noRoot
  | [], some root => .ok root

def built (events : List Event) : Except Flaw Element := empty.follow events >>= outcome

private theorem afterEvents_follow (construction : Construction)
    (events : List (Event × List Char)) :
    (construction.afterEvents events).mapError Failure.flaw
      = construction.follow (events.map Prod.fst) := by
  induction events generalizing construction with
  | nil => rfl
  | cons event rest induction =>
      rw [afterEvents, List.map_cons, follow, List.foldlM_cons]
      cases construction.afterEvent event.1 with
      | error flaw => rfl
      | ok next => exact induction next

theorem read_eq_ok_iff {text : String} {document : Document} :
    Document.read text = .ok document ↔
      (transcribe text.toList).failure = none ∧
      built ((transcribe text.toList).events.map Prod.fst) = .ok document.root ∧
      Prolog.ofEvents ((transcribe text.toList).events.map Prod.fst) = document.prolog := by
  have follows := afterEvents_follow empty (transcribe text.toList).events
  rw [Document.read, built, ← follows]
  cases empty.afterEvents (transcribe text.toList).events with
  | error failure => exact iff_of_false nofun (fun ⟨_, builds, _⟩ => nomatch builds)
  | ok construction =>
      rcases construction with ⟨frames, root⟩
      rcases document with ⟨element, prolog⟩
      cases (transcribe text.toList).failure with
      | some failure => exact iff_of_false nofun (fun ⟨whole, _⟩ => nomatch whole)
      | none =>
          cases frames with
          | cons frame outer => exact iff_of_false nofun (fun ⟨_, builds, _⟩ => nomatch builds)
          | nil =>
              cases root with
              | none => exact iff_of_false nofun (fun ⟨_, builds, _⟩ => nomatch builds)
              | some root =>
                  change Except.ok _ = Except.ok _ ↔ _ ∧ Except.ok _ = Except.ok _ ∧ _
                  simp

private theorem afterEvent_leaf_outside (leaf : Leaf) (found : Option Element) :
    Construction.afterEvent ⟨[], found⟩ leaf.event
      = leaf.characterData >>= fun added =>
          if added.all Text.allBlank then .ok ⟨[], found⟩
          else if found.isSome then .error .contentAfterRoot
          else .error .textBeforeRoot := by
  cases leaf with
  | reference name =>
      rw [Leaf.event, afterEvent, Leaf.characterData]
      cases meaning? name <;> rfl
  | _ => rfl

/-- Outside all elements, a fragment gives what it describes as a document. -/
theorem follow_root (fragment : Fragment) (found : Option Element) :
    follow ⟨[], found⟩ fragment.events >>= outcome = fragment.root id found := by
  induction fragment generalizing found with
  | done => cases found <;> rfl
  | plain leaf following induction =>
      rw [Fragment.events, follow, List.foldlM_cons, afterEvent_leaf_outside, Fragment.root]
      cases leaf.characterData with
      | error flaw => rfl
      | ok added =>
          change ((if added.all Text.allBlank = true then _ else _) >>= _) >>= outcome
            = if added.all Text.allBlank = true then _ else _
          by_cases blank : added.all Text.allBlank = true
          · rw [if_pos blank, if_pos blank]
            exact induction found
          · rw [if_neg blank, if_neg blank]
            cases found <;> rfl
  | single tag following induction =>
      cases found with
      | some found => rfl
      | none =>
          rw [Fragment.events, follow_single rfl, Fragment.root]
          change (Heading.read id .outermost tag >>= _) >>= outcome = _
          cases Heading.read id .outermost tag with
          | error flaw => rfl
          | ok heading => exact induction (some (heading.element .empty))
  | nested tag inside following insideInduction induction =>
      cases found with
      | some found => rfl
      | none =>
          rw [Fragment.events, follow_nested rfl tag _ (fills inside), Fragment.root]
          change (Heading.read id .outermost tag >>= _) >>= outcome = _
          cases Heading.read id .outermost tag with
          | error flaw => rfl
          | ok heading =>
              change (inside.content id heading.scope >>= _) >>= outcome
                = inside.content id heading.scope >>= _
              cases inside.content id heading.scope with
              | error flaw => rfl
              | ok own => exact induction (some (heading.element own))

/-! ## Well nested events -/

section

variable {construction grown : Construction}

private theorem length_addText {added : String} (adds : construction.addText added = .ok grown) :
    grown.frames.length = construction.frames.length := by
  unfold addText at adds
  split at adds
  next frame outer open_ =>
    cases adds
    rw [open_]
    rfl
  next closed =>
    split at adds
    · cases adds
      rfl
    · split at adds <;> cases adds

private theorem length_add {element : Element} (adds : construction.add element = .ok grown) :
    grown.frames.length = construction.frames.length := by
  unfold add at adds
  split at adds
  next parent outer open_ =>
    cases adds
    rw [open_]
    rfl
  next closed =>
    cases adds
    rfl
  next => cases adds

private theorem length_afterEvent_leaf {leaf : Leaf}
    (step : construction.afterEvent leaf.event = .ok grown) :
    grown.frames.length = construction.frames.length := by
  cases leaf with
  | text characters => exact length_addText step
  | literal characters => exact length_addText step
  | reference name =>
      rw [Leaf.event, afterEvent] at step
      split at step
      · exact length_addText step
      · cases step
  | _ =>
      cases step
      rfl

end

/-- After events that leave no element open, there is a fragment for each element that
was open before them, and one more. -/
private theorem follow_closed {events : List Event} {construction last : Construction}
    (follows : construction.follow events = .ok last) (closed : last.frames = []) :
    ∃ (first : Fragment) (others : List Fragment),
      others.length = construction.frames.length ∧
      events = first.events ++ others.flatMap fun other => .finish :: other.events := by
  induction events generalizing construction with
  | nil =>
      cases follows
      exact ⟨.done, [], by rw [closed]; rfl, rfl⟩
  | cons event rest induction =>
      rw [follow, List.foldlM_cons] at follows
      rcases exists_of_bind follows with ⟨grown, step, follows⟩
      rcases induction follows with ⟨first, others, length, rfl⟩
      have plainly (leaf : Leaf) (same : event = leaf.event) :
          ∃ (begun : Fragment) (outer : List Fragment),
            outer.length = construction.frames.length ∧
            event :: (first.events ++ others.flatMap fun other => .finish :: other.events)
              = begun.events ++ outer.flatMap fun other => .finish :: other.events := by
        subst same
        exact ⟨.plain leaf first, others, length.trans (length_afterEvent_leaf step), rfl⟩
      cases event with
      | start tag =>
          rcases exists_of_bind step with ⟨frame, begins, step⟩
          cases step
          cases others with
          | nil => cases length
          | cons second others =>
              refine ⟨.nested tag first second, others, Nat.succ.inj length, ?_⟩
              simp [Fragment.events]
      | empty tag =>
          rcases exists_of_bind step with ⟨frame, begins, step⟩
          exact ⟨.single tag first, others, length.trans (length_add step), rfl⟩
      | finish =>
          rw [afterEvent] at step
          split at step
          next frame outer open_ =>
            refine ⟨.done, first :: others, ?_, rfl⟩
            rw [open_, List.length_cons, length, length_add step, List.length_cons]
          next => cases step
      | text characters => exact plainly (.text characters) rfl
      | literal characters => exact plainly (.literal characters) rfl
      | reference name => exact plainly (.reference name) rfl
      | declaration content => exact plainly (.declaration content) rfl
      | docType content => exact plainly (.docType content) rfl
      | comment => exact plainly .comment rfl
      | instruction => exact plainly .instruction rfl

theorem built_nested {events : List Event} {root : Element}
    (builds : built events = .ok root) :
    ∃ fragment : Fragment, events = fragment.events := by
  rcases exists_of_bind builds with ⟨last, follows, closes⟩
  have closed : last.frames = [] := by
    unfold outcome at closes
    split at closes
    · cases closes
    · cases closes
    next closed _ => exact closed
  rcases follow_closed follows closed with ⟨fragment, others, length, same⟩
  cases List.eq_nil_of_length_eq_zero length
  exact ⟨fragment, same.trans (List.append_nil _)⟩

/-- Only well nested events make a document, and it is what they describe by recursion
over their nesting, but for attributes within reach of a default namespace. Its character
data is all that stands inside its root, in order. -/
theorem built_eq_document_iff (events : List Event) :
    (∀ root, built events = .ok root → ∃ fragment : Fragment, events = fragment.events) ∧
      ∀ fragment : Fragment, events = fragment.events →
        built events = fragment.root id none ∧
        (built events = fragment.document ↔
          ∀ root, fragment.document = .ok root → fragment.KeepsApart .outermost) ∧
        ∀ root, built events = .ok root → root.textContent = fragment.innerCharacterData := by
  refine ⟨fun root => built_nested, ?_⟩
  rintro fragment rfl
  have described : built fragment.events = fragment.root id none := follow_root fragment none
  refine ⟨described, ?_, fun root builds => ?_⟩
  · rw [described]
    exact fragment.root_alike.eq_iff
  · rw [Fragment.root_characterData (described.symm.trans builds)]
    exact String.empty_append

def colonedTag : List Char := "tt xmlns=\"u\" :a=\"1\"".toList

theorem built_eq_document_iff_coloned :
    built (Fragment.single colonedTag .done).events
      ≠ (Fragment.single colonedTag .done).document := by
  intro same
  have apart := ((built_eq_document_iff _).2 (.single colonedTag .done) rfl).2.1.mp same
  have succeeds : (Fragment.single colonedTag .done).document.toOption.isSome = true := by
    decide +kernel
  have read : (StartTag.read colonedTag).toOption
      = some ⟨"tt".toList, [("xmlns".toList, "u"), (":a".toList, "1")]⟩ := by
    decide +kernel
  cases document : (Fragment.single colonedTag .done).document with
  | error flaw =>
      rw [document] at succeeds
      cases succeeds
  | ok root =>
      cases start : StartTag.read colonedTag with
      | error flaw =>
          rw [start] at read
          cases read
      | ok tag =>
          rw [start] at read
          cases read
          rcases (apart root document).1 _ start with noDefault | noColon
          · revert noDefault
            decide
          · exact noColon _ (List.mem_cons_of_mem _ List.mem_cons_self) rfl

end Construction

end TimedText.Markup
