import TimedText.Proofs.Timing.Timeline
/-!
Intervals that have an instant in common. Whether each begins before the other ends is told
by their edges alone. It means that they have an instant in common exactly if neither of
them is empty.
-/

namespace TimedText.Timing.Interval

variable {τ : Type} [Quantity τ]

/-- The instant is in the interval, to which its ending does not belong. -/
structure Holds (interval : Interval τ) (instant : τ) : Prop where
  begun : Quantity.lessOrEqual interval.beginning instant = true
  unended : ∀ ending, interval.ending = some ending →
    Quantity.less instant ending = true

def IsEmpty (interval : Interval τ) : Prop :=
  ∀ instant, ¬interval.Holds instant

def Meets (first second : Interval τ) : Prop :=
  ∃ instant, first.Holds instant ∧ second.Holds instant

/-- Each interval begins before the other ends. -/
structure Crosses (first second : Interval τ) : Prop where
  before : ∀ ending, second.ending = some ending →
    Quantity.less first.beginning ending = true
  after : ∀ ending, first.ending = some ending →
    Quantity.less second.beginning ending = true

variable {first second interval : Interval τ} {instant : τ}

private theorem Crosses.symm (crosses : first.Crosses second) : second.Crosses first :=
  ⟨crosses.after, crosses.before⟩

private theorem Meets.notEmpty (meets : first.Meets second) : ¬first.IsEmpty ∧ ¬second.IsEmpty := by
  rcases meets with ⟨instant, inFirst, inSecond⟩
  exact ⟨fun empty => empty instant inFirst, fun empty => empty instant inSecond⟩

variable [Quantity.Ordered τ]

private theorem Holds.beginning (holds : interval.Holds instant) :
    interval.Holds interval.beginning where
  begun := (Quantity.Ordered.defined holds.begun).1
  unended ending ends :=
    Quantity.Ordered.less_of_le_of_less holds.begun (holds.unended ending ends)

theorem isEmpty_iff {beginning ending : τ} (begins : Quantity.IsDefined beginning)
    (ends : Quantity.IsDefined ending) :
    (Interval.mk beginning (some ending)).IsEmpty ↔
      Quantity.lessOrEqual ending beginning = true := by
  rw [← not_iff_not, ← Quantity.Ordered.less_iff_not_le begins ends, IsEmpty, not_forall_not]
  constructor
  · rintro ⟨instant, holds⟩
    exact holds.beginning.unended ending rfl
  · intro before
    exact ⟨beginning, begins, fun last ends => Option.some.inj ends ▸ before⟩

private theorem Meets.crosses (meets : first.Meets second) : first.Crosses second := by
  rcases meets with ⟨instant, inFirst, inSecond⟩
  constructor
  · intro ending ends
    exact Quantity.Ordered.less_of_le_of_less inFirst.begun (inSecond.unended ending ends)
  · intro ending ends
    exact Quantity.Ordered.less_of_le_of_less inSecond.begun (inFirst.unended ending ends)

private theorem Crosses.meets_of_le (crosses : first.Crosses second) (occupied : ¬first.IsEmpty)
    (le : Quantity.lessOrEqual second.beginning first.beginning = true) :
    first.Meets second := by
  rcases not_forall_not.mp occupied with ⟨instant, inFirst⟩
  exact ⟨first.beginning, inFirst.beginning, le, crosses.before⟩

theorem meets_iff :
    first.Meets second ↔ first.Crosses second ∧ ¬first.IsEmpty ∧ ¬second.IsEmpty := by
  constructor
  · exact fun meets => ⟨meets.crosses, meets.notEmpty⟩
  · rintro ⟨crosses, firstOccupied, secondOccupied⟩
    rcases not_forall_not.mp firstOccupied with ⟨_, inFirst⟩
    rcases not_forall_not.mp secondOccupied with ⟨_, inSecond⟩
    -- The later of the two beginnings is in both intervals.
    rcases Quantity.Ordered.total inFirst.beginning.begun inSecond.beginning.begun
      with firstEarlier | secondEarlier
    · rcases crosses.symm.meets_of_le secondOccupied firstEarlier
        with ⟨instant, inSecond, inFirst⟩
      exact ⟨instant, inFirst, inSecond⟩
    · exact crosses.meets_of_le firstOccupied secondEarlier

end TimedText.Timing.Interval
