import TimedText.Proofs.Quantity
import TimedText.Proofs.Timing.RuleSet
import TimedText.Timing.Resolution
/-!
Lines of timed elements, each inside the one before it, and what a line sets for
its last element: the instant that its begins add up to, and the bounds that its
ends and durations give. This is what the frames of a resolution keep track of.
-/

namespace TimedText.Timing

/-! ## Lines -/

def timedChildren (kinds : List String) (element : Element) : List (Element × Nat) :=
  element.children.zipIdx.filter fun placed => kinds.contains placed.1.localPart

/-- A timed element inside another one, or that element itself: the steps of the
path from the one to the other, and the elements on it, with both of them. -/
inductive Lineage (kinds : List String) :
    Element → Path → List Element → Element → Prop
  | here (element : Element) : Lineage kinds element [] [element] element
  | inside {element child inner : Element} {index : Nat} {steps : Path}
      {line : List Element} (timed : (child, index) ∈ timedChildren kinds element)
      (further : Lineage kinds child steps line inner) :
      Lineage kinds element (index :: steps) (element :: line) inner

variable {τ : Type} {rules : Rules τ} {line : List Element} {element : Element}

/-! ## What a line sets -/

/-- Something on the line sets when its elements begin, be it of use or not. -/
def SetsBegin (line : List Element) : Prop :=
  ∃ element ∈ line, element.hasAttribute "begin" = true

private theorem setsBegin_concat :
    SetsBegin (line ++ [element]) ↔
      SetsBegin line ∨ element.hasAttribute "begin" = true := by
  simp [SetsBegin, or_and_right, exists_or]

namespace Rules

section

variable (rules)

def seconds? (element : Element) (name : String) : Option τ :=
  match (rules.value element name).result with
  | .ok (seconds, _) => seconds
  | .error _ => none

def duration? (element : Element) : Option τ :=
  if rules.usesDuration then rules.seconds? element "dur" else none

def times (element : Element) : List τ :=
  [rules.seconds? element "begin", rules.seconds? element "end",
    rules.duration? element].filterMap id

def SetsEnd (line : List Element) : Prop :=
  ∃ element ∈ line,
    element.hasAttribute "end" = true ∨ (rules.duration? element).isSome = true

end

theorem seconds?_of_ok {name : String} {seconds : Option τ} {usable : Bool}
    (gives : (rules.value element name).result = .ok (seconds, usable)) :
    rules.seconds? element name = seconds := by
  rw [seconds?, gives]

theorem mem_times {seconds : τ} :
    seconds ∈ rules.times element ↔
      rules.seconds? element "begin" = some seconds ∨
        rules.seconds? element "end" = some seconds ∨
        rules.duration? element = some seconds := by
  simp [times, eq_comm]

private theorem setsEnd_concat :
    rules.SetsEnd (line ++ [element]) ↔
      (rules.SetsEnd line ∨ element.hasAttribute "end" = true) ∨
        (rules.duration? element).isSome = true := by
  simp [SetsEnd, or_and_right, exists_or, or_assoc]

variable [Quantity τ] (rules)

/-- The instant that the begins along a line add up to. -/
def epoch (line : List Element) : τ :=
  line.foldl (fun epoch element =>
    Quantity.add epoch ((rules.seconds? element "begin").getD Quantity.zero))
    Quantity.zero

/-- The bounds along a line: an end counts from the begin of the element around,
a duration from that of its own element. -/
inductive Bound (line : List Element) : τ → Prop
  | ending {above : List Element} {element : Element} {seconds : τ}
      (onLine : above ++ [element] <+: line)
      (usable : rules.seconds? element "end" = some seconds) :
      Bound line (Quantity.add (rules.epoch above) seconds)
  | duration {above : List Element} {element : Element} {seconds : τ}
      (onLine : above ++ [element] <+: line)
      (usable : rules.duration? element = some seconds) :
      Bound line (Quantity.add (rules.epoch (above ++ [element])) seconds)

end Rules

variable [Quantity τ] {rules : Rules τ}

/-! ## Frames -/

def narrow (bound : Option τ) (epoch : τ) (seconds : Option τ) : Option τ :=
  seconds.elim bound fun seconds => some (within bound (Quantity.add epoch seconds))

def Rules.frameInside (rules : Rules τ) (frame : Frame τ) (element : Element) :
    Frame τ :=
  let beginning :=
    Quantity.add frame.epoch ((rules.seconds? element "begin").getD Quantity.zero)
  let lasts := rules.duration? element
  { epoch := beginning
    bound := narrow (narrow frame.bound frame.epoch (rules.seconds? element "end"))
      beginning lasts
    set := {
      begins := frame.set.begins || element.hasAttribute "begin"
      lasts := frame.set.lasts
      ends := frame.set.ends || element.hasAttribute "end" || lasts.isSome } }

theorem ownFrame_ok {rules : Rules τ} {frame own : Frame τ} {element : Element}
    {usable : Bool} (gives : (ownFrame rules frame element).result = .ok (usable, own)) :
    own = rules.frameInside frame element := by
  rw [ownFrame] at gives
  rcases Attempt.ok_of_bind gives with ⟨legal, -, gives⟩
  rcases Attempt.ok_of_bind gives with ⟨⟨begins, beginUsable⟩, beginGives, gives⟩
  rcases Attempt.ok_of_bind gives with ⟨⟨ends, endUsable⟩, endGives, gives⟩
  have seconds := And.intro (Rules.seconds?_of_ok beginGives) (Rules.seconds?_of_ok endGives)
  dsimp only at gives
  split at gives
  next uses =>
    rcases Attempt.ok_of_bind gives with ⟨⟨lasts, durationUsable⟩, durationGives, gives⟩
    cases gives
    simp only [Rules.frameInside, narrow, Rules.duration?, if_pos uses, seconds,
      Rules.seconds?_of_ok durationGives]
  next unused =>
    cases gives
    simp only [Rules.frameInside, narrow, Rules.duration?, if_neg unused, seconds]

/-! ## Frames along a line -/

def Frame.start : Frame τ := ⟨Quantity.zero, none, .none⟩

/-- The frame keeps track of what a line sets. -/
structure Frame.Describes (rules : Rules τ) (frame : Frame τ) (line : List Element) :
    Prop where
  epoch : frame.epoch = rules.epoch line
  bound : Quantity.EarliestOf (rules.Bound line) frame.bound
  begins : frame.set.begins = true ↔ SetsBegin line
  ends : frame.set.ends = true ↔ rules.SetsEnd line

private theorem Rules.epoch_concat :
    rules.epoch (line ++ [element]) = Quantity.add (rules.epoch line)
      ((rules.seconds? element "begin").getD Quantity.zero) := by
  rw [epoch, List.foldl_append]
  rfl

private theorem Rules.bound_concat {bound : τ} :
    rules.Bound (line ++ [element]) bound ↔
      (rules.Bound line bound ∨ ∃ seconds, rules.seconds? element "end" = some seconds ∧
        bound = Quantity.add (rules.epoch line) seconds) ∨
      ∃ seconds, rules.duration? element = some seconds ∧
        bound = Quantity.add (rules.epoch (line ++ [element])) seconds := by
  constructor
  · rintro (⟨onLine, usable⟩ | ⟨onLine, usable⟩)
    · rcases List.prefix_concat_iff.mp onLine with same | onLine
      · rcases List.append_singleton_inj.mp same with ⟨rfl, rfl⟩
        exact .inl (.inr ⟨_, usable, rfl⟩)
      · exact .inl (.inl (.ending onLine usable))
    · rcases List.prefix_concat_iff.mp onLine with same | onLine
      · rcases List.append_singleton_inj.mp same with ⟨rfl, rfl⟩
        exact .inr ⟨_, usable, rfl⟩
      · exact .inl (.inl (.duration onLine usable))
  · rintro ((bound | ⟨seconds, usable, rfl⟩) | ⟨seconds, usable, rfl⟩)
    · cases bound with
      | ending onLine usable =>
          exact .ending (onLine.trans (List.prefix_append _ _)) usable
      | duration onLine usable =>
          exact .duration (onLine.trans (List.prefix_append _ _)) usable
    · exact .ending (List.prefix_refl _) usable
    · exact .duration (List.prefix_refl _) usable

private theorem Frame.start_describes : Frame.start.Describes rules [] where
  epoch := rfl
  bound := by
    rintro other (⟨onLine, -⟩ | ⟨onLine, -⟩)
    · simp at onLine
    · simp at onLine
  begins := by simp [start, Presence.none, SetsBegin]
  ends := by simp [start, Presence.none, Rules.SetsEnd]

section

variable [Quantity.Ordered τ]

private theorem narrow_earliest {candidates : τ → Prop} {bound : Option τ}
    (earliest : Quantity.EarliestOf candidates bound) (epoch : τ) (seconds : Option τ) :
    Quantity.EarliestOf
      (fun other => candidates other ∨
        ∃ given, seconds = some given ∧ other = Quantity.add epoch given)
      (narrow bound epoch seconds) := by
  cases seconds with
  | none => simpa [narrow] using earliest
  | some given =>
      cases bound with
      | none =>
          refine (Quantity.earliest_singleton (Quantity.add epoch given)).congr ?_
          intro other
          simp [earliest other]
      | some instant =>
          refine (Quantity.Earliest.smaller earliest (Quantity.add epoch given)).congr ?_
          intro other
          simp

private theorem Frame.Describes.inside {frame : Frame τ} (describes : frame.Describes rules line)
    (element : Element) :
    (rules.frameInside frame element).Describes rules (line ++ [element]) := by
  have epoch : (rules.frameInside frame element).epoch =
      rules.epoch (line ++ [element]) := by
    rw [Rules.epoch_concat, ← describes.epoch]
    rfl
  refine ⟨epoch, ?_, ?_, ?_⟩
  · have earliest := narrow_earliest
      (narrow_earliest describes.bound frame.epoch (rules.seconds? element "end"))
      (rules.frameInside frame element).epoch (rules.duration? element)
    refine earliest.congr fun other => ?_
    rw [Rules.bound_concat, epoch, describes.epoch]
  · rw [setsBegin_concat, ← describes.begins]
    simp [Rules.frameInside]
  · rw [Rules.setsEnd_concat, ← describes.ends]
    simp [Rules.frameInside]

private theorem Frame.Describes.along {frame : Frame τ} {above : List Element}
    (describes : frame.Describes rules above) (line : List Element) :
    (line.foldl rules.frameInside frame).Describes rules (above ++ line) := by
  induction line generalizing frame above with
  | nil => simpa using describes
  | cons element below induction => simpa using induction (describes.inside element)

theorem Frame.foldl_describes (rules : Rules τ) (line : List Element) :
    (line.foldl rules.frameInside Frame.start).Describes rules line :=
  Frame.start_describes.along line

end

end TimedText.Timing
