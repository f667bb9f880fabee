import TimedText.Proofs.Catalogue
import TimedText.Proofs.Number.Reading
import TimedText.Style.Computed
/-!
The forms of computed values. Whatever is specified at whatever depth, a font size that
is computed is a readable number of percent of the height, a line height such a number
or the word for the usual one, and a line padding a length in cells.
-/

namespace TimedText.Style

open Number

/-! ## Heights -/

/-- A number as it is written to six places, in percent of the height. -/
def IsHeight (text : String) : Prop := ∃ size : Float, text = fixedText 6 size ++ "rh"

private theorem cellHeight_isHeight {cellResolution : Option String} {height : String}
    (computes : cellHeight cellResolution = .ok height) : IsHeight height := by
  rw [cellHeight] at computes
  cases rows : rowsOf cellResolution with
  | error fault =>
      rw [rows] at computes
      cases computes
  | ok rows' =>
      rw [rows] at computes
      cases computes
      exact ⟨_, rfl⟩

private theorem numeralAndUnit?_height {size : Float} {numeral : Numeral} {unit : String}
    (cut : numeralAndUnit? (fixedText 6 size ++ "rh") = some (numeral, unit)) :
    unit = "rh" := by
  rcases fixedText_cases 6 size with word | ⟨written, isWritten, same | same⟩
  · have words : ∀ word ∈ ["NaN", "inf", "-inf"],
        numeralAndUnit? (word ++ "rh") = none := by decide
    rw [words _ word] at cut
    cases cut
  · have taken : Numeral.take? (written.chars ++ ['r', 'h']) = some (written, ['r', 'h']) :=
      Numeral.take?_chars_append isWritten (by rintro _ ⟨⟩; decide)
    rw [same, numeralAndUnit?, String.toList_append, String.toList_ofList,
      show "rh".toList = ['r', 'h'] from rfl, taken] at cut
    dsimp only at cut
    split at cut
    · cases cut
      rfl
    · cases cut
  · rw [same, numeralAndUnit?, String.toList_append, String.toList_ofList,
      List.cons_append] at cut
    cases cut

private theorem percentOf_isHeight {specified basis value : String} (height : IsHeight basis)
    (computes : percentOf specified basis = .ok value) : IsHeight value := by
  rcases height with ⟨size, rfl⟩
  rw [percentOf] at computes
  split at computes
  next => cases computes
  next percentage =>
    split at computes
    next => cases computes
    next numeral unit cut =>
      cases computes
      rw [numeralAndUnit?_height cut]
      exact ⟨_, rfl⟩

/-! ## Values of properties -/

structure IsCanonical (name value : String) : Prop where
  fontSize : name = "fontSize" → IsHeight value
  lineHeight : name = "lineHeight" → value = "normal" ∨ IsHeight value
  linePadding : name = "linePadding" → isCellLength value = true

structure Property.IsCoherent (property : Property) : Prop where
  fontSize : property.name = "fontSize" ↔ property.rule = .fontSize
  lineHeight : property.name = "lineHeight" ↔ property.rule = .lineHeight
  usual : property.rule = .lineHeight → property.initial = "normal"
  linePadding : property.name = "linePadding" → property.rule = .inherited ∧
    property.accepts = isCellLength ∧ property.initial = "0c"

theorem properties_coherent : ∀ property ∈ properties, property.IsCoherent := by
  have fontSize : ∀ property ∈ properties,
      property.name = "fontSize" ↔ property.rule = .fontSize := by decide
  have lineHeight : ∀ property ∈ properties,
      property.name = "lineHeight" ↔ property.rule = .lineHeight := by decide
  have usual : ∀ property ∈ properties,
      property.rule = .lineHeight → property.initial = "normal" := by decide
  -- Whether two tests of values are the same cannot be decided, but which entries of the
  -- table have a name can.
  have linePadding : properties.filter (fun property => property.name == "linePadding")
      = [⟨.fixed Vocabulary.broadcastStyling, "linePadding", ["p"], isCellLength, "0c",
          .inherited⟩] := rfl
  intro property member
  refine ⟨fontSize property member, lineHeight property member, usual property member,
    fun named => ?_⟩
  have only : property ∈ properties.filter fun property => property.name == "linePadding" :=
    List.mem_filter.mpr ⟨member, beq_iff_eq.mpr named⟩
  rw [linePadding] at only
  cases List.mem_singleton.mp only
  exact ⟨rfl, rfl, rfl⟩

theorem eq_some_of_present {value : Option String} {text : String}
    (here : present value = some text) : value = some text :=
  (Option.filter_eq_some_iff.mp here).1

section

variable {setting : Setting} {specified parent : Option String} {value : String}

private theorem computeFontSize_of_basis {basis : String} (height : IsHeight basis)
    (computes : computeFontSize setting specified (some basis) = .ok value) :
    IsHeight value := by
  cases specified with
  | none =>
      cases computes
      exact height
  | some text =>
      change (if isPercentage text = true then percentOf text basis else throw _) = _
        at computes
      split at computes
      · exact percentOf_isHeight height computes
      · cases computes

theorem computeFontSize_of_cellHeight {basis : String}
    (cell : cellHeight setting.cellResolution = .ok basis) :
    computeFontSize setting specified none
      = computeFontSize setting specified (some basis) := by
  change (cellHeight setting.cellResolution >>= _) = _
  rw [cell]
  rfl

private theorem computeFontSize_isHeight (inherited : ∀ text ∈ parent, IsHeight text)
    (computes : computeFontSize setting specified parent = .ok value) : IsHeight value := by
  cases parent with
  | some basis => exact computeFontSize_of_basis (inherited basis rfl) computes
  | none =>
      cases cell : cellHeight setting.cellResolution with
      | error fault =>
          rw [computeFontSize, cell] at computes
          cases computes
      | ok basis =>
          rw [computeFontSize_of_cellHeight cell] at computes
          exact computeFontSize_of_basis (cellHeight_isHeight cell) computes

private theorem computeLineHeight_canonical
    (known : ∀ size ∈ setting.fontSize, IsHeight size)
    (inherited : ∀ text ∈ parent, text = "normal" ∨ IsHeight text)
    (computes : computeLineHeight setting specified parent "normal" = .ok value) :
    value = "normal" ∨ IsHeight value := by
  cases specified with
  | none =>
      cases computes
      cases parent with
      | none => exact .inl rfl
      | some text => exact inherited text rfl
  | some text =>
      rw [computeLineHeight] at computes
      split at computes
      next usual =>
        cases computes
        exact .inl (by simpa using usual)
      next percentage =>
        split at computes
        next size sized => exact .inr (percentOf_isHeight (known size sized) computes)
        next => cases computes

private theorem compute_canonical {property : Property} (coherent : property.IsCoherent)
    (known : ∀ size ∈ setting.fontSize, IsHeight size)
    (accepted : ∀ text ∈ present specified, property.accepts text = true)
    (inherited : ∀ text ∈ parent, IsCanonical property.name text)
    (computes : property.compute setting specified parent = .ok value) :
    IsCanonical property.name value := by
  have handedDown {text : String} (here : text ∈ present parent) :
      IsCanonical property.name text := inherited text (eq_some_of_present here)
  rw [Property.compute] at computes
  constructor
  · intro named
    rw [coherent.fontSize.mp named] at computes
    exact computeFontSize_isHeight (fun text here => (handedDown here).fontSize named) computes
  · intro named
    have rule := coherent.lineHeight.mp named
    rw [rule, coherent.usual rule] at computes
    exact computeLineHeight_canonical known
      (fun text here => (handedDown here).lineHeight named) computes
  · intro named
    rcases coherent.linePadding named with ⟨rule, accepts, initial⟩
    rw [rule] at computes
    cases computes
    cases specified : present specified with
    | some text =>
        rw [← accepts]
        exact accepted text specified
    | none =>
        cases parent : present parent with
        | some text => exact (handedDown parent).linePadding named
        | none =>
            rw [initial]
            decide

end

/-! ## Computation -/

def Computed.IsCanonical (computed : Computed) : Prop :=
  ∀ name value, computed.find? name = some value → Style.IsCanonical name value

private structure Computation.IsCanonical (computation : Computation) : Prop where
  computed : Computed.IsCanonical computation.computed
  known : ∀ size ∈ computation.setting.fontSize, IsHeight size

theorem empty_canonical : Computed.IsCanonical .empty := nofun

private theorem Computation.IsCanonical.add_canonical {uri : String} {specified : Specified}
    {parent : Computed} {status : Status} {computation : Computation} {property : Property}
    (coherent : property.IsCoherent) (inherited : Computed.IsCanonical parent)
    (canonical : computation.IsCanonical) :
    (computation.add uri specified parent status property).IsCanonical := by
  rw [add]
  dsimp only
  split
  next value computes =>
    rw [Property.computeChecked] at computes
    split at computes
    next => cases computes
    next accepted =>
      have own : Style.IsCanonical property.name value := by
        refine compute_canonical coherent canonical.known ?_ (fun text => inherited _ text)
          computes
        intro text here
        rw [here] at accepted
        simpa using accepted
      constructor
      · intro name found here
        rw [Catalogue.find?_insert] at here
        split at here
        next same =>
          cases here
          exact same ▸ own
        next => exact canonical.computed name found here
      · intro size sized
        cases rule : property.rule with
        | fontSize =>
            rw [Property.settle, rule] at sized
            cases sized
            exact own.fontSize (coherent.fontSize.mpr rule)
        | _ =>
            rw [Property.settle, rule] at sized
            exact canonical.known size sized
  next => exact ⟨canonical.computed, canonical.known⟩

theorem computeAll_canonical {uri : String} {specified : Specified} {parent : Computed}
    {setting : Setting} {status : Status} (inherited : Computed.IsCanonical parent)
    (unsized : setting.fontSize = none) :
    Computed.IsCanonical (computeAll uri specified parent setting status).computed := by
  have folded :
      Computation.IsCanonical (computeAll uri specified parent setting status) := by
    rw [computeAll]
    apply List.foldlRecOn (motive := Computation.IsCanonical)
    · exact ⟨empty_canonical, by rw [unsized]; nofun⟩
    · intro computation canonical property member
      exact canonical.add_canonical (properties_coherent property member) inherited
  exact folded.computed

end TimedText.Style
