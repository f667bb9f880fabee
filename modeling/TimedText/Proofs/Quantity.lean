import Mathlib.Algebra.Order.Field.Rat
import TimedText.Number.Quantity
/-!
The laws of quantities. Quantities compare as places on a line do, except that
some may be undefined: these compare with none, not even with themselves, and
give way to any other. What has been counted up from zero grows by whatever is
added. Exact numbers obey these laws, and so do floating-point numbers.
-/

namespace TimedText.Quantity

variable {τ : Type} [Quantity τ]

/-- The quantity compares with itself, and so has a place among the others. -/
def IsDefined (quantity : τ) : Prop :=
  lessOrEqual quantity quantity = true

instance (quantity : τ) : Decidable (IsDefined quantity) :=
  inferInstanceAs (Decidable (lessOrEqual quantity quantity = true))

/-- The laws of comparing, of the smaller and the greater of two, and of filing. -/
class Ordered (τ : Type) [Quantity τ] : Prop where
  trans {first second third : τ} :
    lessOrEqual first second → lessOrEqual second third → lessOrEqual first third
  total {left right : τ} : IsDefined left → IsDefined right →
    lessOrEqual left right ∨ lessOrEqual right left
  defined {left right : τ} : lessOrEqual left right →
    IsDefined left ∧ IsDefined right
  less_iff {left right : τ} : less left right ↔
    IsDefined left ∧ IsDefined right ∧ ¬lessOrEqual right left
  smaller_mem (left right : τ) : smaller left right = left ∨ smaller left right = right
  smaller_le_left {left : τ} (right : τ) : IsDefined left →
    lessOrEqual (smaller left right) left
  smaller_le_right (left : τ) {right : τ} : IsDefined right →
    lessOrEqual (smaller left right) right
  greater_mem (left right : τ) : greater left right = left ∨ greater left right = right
  left_le_greater {left : τ} (right : τ) : IsDefined left →
    lessOrEqual left (greater left right)
  right_le_greater (left : τ) {right : τ} : IsDefined right →
    lessOrEqual right (greater left right)
  bounding_of_defined {quantity : τ} : IsDefined quantity →
    bounding quantity = quantity
  bounding_le {quantity other : τ} : ¬IsDefined quantity → IsDefined other →
    lessOrEqual (bounding quantity) other
  filedBefore_irrefl (quantity : τ) : ¬filedBefore quantity quantity
  filedBefore_trans {first second third : τ} : filedBefore first second →
    filedBefore second third → filedBefore first third
  eq_of_not_filedBefore {left right : τ} : ¬filedBefore left right →
    ¬filedBefore right left → left = right
  filedBefore_of_less {left right : τ} : less left right → filedBefore left right

theorem Ordered.less_iff_not_le [Ordered τ] {left right : τ} (leftDefined : IsDefined left)
    (rightDefined : IsDefined right) : less left right ↔ ¬lessOrEqual right left :=
  less_iff.trans ⟨fun both => both.2.2, fun notLe => ⟨leftDefined, rightDefined, notLe⟩⟩

theorem Ordered.less_of_le_of_less [Ordered τ] {first second third : τ}
    (le : lessOrEqual first second) (before : less second third) : less first third := by
  rcases less_iff.mp before with ⟨-, thirdDefined, notLe⟩
  refine less_iff.mpr ⟨(defined le).1, thirdDefined, fun reversed => ?_⟩
  exact notLe (trans reversed le)

theorem Ordered.less_of_less_of_le [Ordered τ] {first second third : τ}
    (before : less first second) (le : lessOrEqual second third) : less first third := by
  rcases less_iff.mp before with ⟨firstDefined, -, notLe⟩
  refine less_iff.mpr ⟨firstDefined, (defined le).2, fun reversed => ?_⟩
  exact notLe (trans le reversed)

/-- The law of adding: a sum is not below what it was counted up from. -/
class Cumulative (τ : Type) [Quantity τ] : Prop extends Ordered τ where
  zero_defined : IsDefined (zero : τ)
  le_add {sum more : τ} : lessOrEqual zero sum → lessOrEqual zero more →
    lessOrEqual sum (add sum more)

/-! ## The earliest and the latest -/

structure Earliest (candidates : τ → Prop) (instant : τ) : Prop where
  isCandidate : candidates instant
  first : ∀ other, candidates other → IsDefined other → lessOrEqual instant other

/-- The earliest of some instants, or nothing if there are none. -/
def EarliestOf (candidates : τ → Prop) : Option τ → Prop
  | none => ∀ other, ¬candidates other
  | some instant => Earliest candidates instant

/-- An instant not before any of some. It is one of them, unless it stands below
all others: so it does if none of them is defined. -/
structure Latest (candidates : τ → Prop) (instant : τ) : Prop where
  last : ∀ other, candidates other → IsDefined other → lessOrEqual other instant
  isCandidate : candidates instant ∨
    ∀ other, IsDefined other → lessOrEqual instant other

section

variable {candidates : τ → Prop} {instant : τ}

theorem Earliest.congr {same : τ → Prop} (earliest : Earliest candidates instant)
    (equal : ∀ other, same other ↔ candidates other) : Earliest same instant where
  isCandidate := (equal instant).mpr earliest.isCandidate
  first other candidate := earliest.first other ((equal other).mp candidate)

theorem Latest.congr {same : τ → Prop} (latest : Latest candidates instant)
    (equal : ∀ other, same other ↔ candidates other) : Latest same instant where
  last other candidate := latest.last other ((equal other).mp candidate)
  isCandidate := latest.isCandidate.imp_left (equal instant).mpr

theorem EarliestOf.congr {same : τ → Prop} {instant : Option τ}
    (earliest : EarliestOf candidates instant)
    (equal : ∀ other, same other ↔ candidates other) : EarliestOf same instant := by
  cases instant with
  | none => exact fun other candidate => earliest other ((equal other).mp candidate)
  | some instant => exact Earliest.congr earliest equal

theorem earliest_singleton (instant : τ) : Earliest (· = instant) instant where
  isCandidate := rfl
  first := by
    rintro other rfl defined
    exact defined

variable [Ordered τ]

theorem Earliest.smaller (earliest : Earliest candidates instant) (more : τ) :
    Earliest (fun other => candidates other ∨ other = more)
      (Quantity.smaller instant more) where
  isCandidate := by
    rcases Ordered.smaller_mem instant more with same | same
    · exact .inl (same.symm ▸ earliest.isCandidate)
    · exact .inr same
  first := by
    rintro other (candidate | rfl) defined
    · have le := earliest.first other candidate defined
      exact Ordered.trans (Ordered.smaller_le_left more (Ordered.defined le).1) le
    · exact Ordered.smaller_le_right instant defined

theorem foldl_smaller_earliest (first : τ) (rest : List τ) :
    Earliest (· ∈ first :: rest) (rest.foldl Quantity.smaller first) := by
  -- The instants that were looked at so far take the place of the first one.
  suffices general : ∀ {candidates : τ → Prop} {instant : τ},
      Earliest candidates instant →
        Earliest (fun other => candidates other ∨ other ∈ rest)
          (rest.foldl Quantity.smaller instant) by
    refine (general (earliest_singleton first)).congr fun other => ?_
    exact List.mem_cons
  induction rest with
  | nil =>
      intro candidates instant earliest
      exact earliest.congr fun other => by simp
  | cons next rest induction =>
      intro candidates instant earliest
      refine (induction (earliest.smaller next)).congr fun other => ?_
      rw [List.mem_cons, or_assoc]

theorem latest_bounding (instant : τ) : Latest (· = instant) (bounding instant) where
  last := by
    rintro other rfl defined
    rw [Ordered.bounding_of_defined defined]
    exact defined
  isCandidate := by
    by_cases defined : IsDefined instant
    · exact .inl (Ordered.bounding_of_defined defined)
    · exact .inr fun other => Ordered.bounding_le defined

theorem Latest.greater (latest : Latest candidates instant) (more : τ) :
    Latest (fun other => other = more ∨ candidates other)
      (Quantity.greater (bounding more) instant) where
  last := by
    rintro other (rfl | candidate) defined
    · rw [Ordered.bounding_of_defined defined]
      exact Ordered.left_le_greater instant defined
    · have le := latest.last other candidate defined
      exact Ordered.trans le (Ordered.right_le_greater _ (Ordered.defined le).2)
  isCandidate := by
    rcases Ordered.greater_mem (bounding more) instant with same | same
    · rw [same]
      by_cases defined : IsDefined more
      · exact .inl (.inl (Ordered.bounding_of_defined defined))
      · exact .inr fun other => Ordered.bounding_le defined
    · rw [same]
      exact latest.isCandidate.imp .inr id

end

/-! ## Exact numbers -/

instance : Quantity ℚ where
  zero := 0
  add := (· + ·)
  subtract := (· - ·)
  decimal digits places := digits / 10 ^ places
  less left right := left < right
  lessOrEqual left right := left ≤ right
  smaller := min
  greater := max
  bounding := id
  filedBefore left right := left < right
  text := toString
  clockText := toString

private theorem Rational.isDefined (number : ℚ) : IsDefined number :=
  decide_eq_true (le_refl number)

instance : Cumulative ℚ where
  trans := by
    simp only [lessOrEqual, decide_eq_true_eq]
    exact le_trans
  total := by
    intro left right _ _
    simpa only [lessOrEqual, decide_eq_true_eq] using le_total left right
  defined := fun _ => ⟨Rational.isDefined _, Rational.isDefined _⟩
  less_iff := by
    intro left right
    simp [less, lessOrEqual, Rational.isDefined]
  smaller_mem := min_choice
  smaller_le_left := fun right _ => decide_eq_true (min_le_left _ right)
  smaller_le_right := fun left _ _ => decide_eq_true (min_le_right left _)
  greater_mem := max_choice
  left_le_greater := fun right _ => decide_eq_true (le_max_left _ right)
  right_le_greater := fun left _ _ => decide_eq_true (le_max_right left _)
  bounding_of_defined := fun _ => rfl
  bounding_le := fun undefined _ => absurd (Rational.isDefined _) undefined
  filedBefore_irrefl := by simp [filedBefore]
  filedBefore_trans := by
    simp only [filedBefore, decide_eq_true_eq]
    exact lt_trans
  eq_of_not_filedBefore := by
    simp only [filedBefore, decide_eq_true_eq, not_lt]
    exact fun left right => le_antisymm right left
  filedBefore_of_less := id
  zero_defined := Rational.isDefined 0
  le_add := by
    intro sum more _ positive
    simpa [lessOrEqual, zero, add] using positive

end TimedText.Quantity
