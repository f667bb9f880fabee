import Mathlib.Data.List.TakeDrop
import TimedText.Proofs.Markup.Fragment
/-!
Attributes and the default namespace. It is not known where attributes are named, so an
attribute whose written name begins with a colon is in no namespace. A description that
keeps the default namespace for attributes fails in the same way, and succeeds with the
same result exactly where no such attribute is in reach of a default namespace.
-/

namespace TimedText.Markup

/-! ## Two attempts side by side -/

/-- Two attempts that fail with the same flaw, or succeed with results that are related. -/
inductive Alike {α β : Type} (related : α → β → Prop) : Except Flaw α → Except Flaw β → Prop
  | failed (flaw : Flaw) : Alike related (.error flaw) (.error flaw)
  | done {left : α} {right : β} (holds : related left right) :
      Alike related (.ok left) (.ok right)

namespace Alike

variable {α β γ δ : Type} {related : α → β → Prop} {following : γ → δ → Prop}

private theorem bind {left : Except Flaw α} {right : Except Flaw β} {next : α → Except Flaw γ}
    {other : β → Except Flaw δ} (first : Alike related left right)
    (step : ∀ {value result}, related value result →
      Alike following (next value) (other result)) :
    Alike following (left >>= next) (right >>= other) := by
  cases first with
  | failed flaw => exact .failed flaw
  | done holds => exact step holds

private theorem self (attempt : Except Flaw α) :
    Alike (fun left right => left = right ∧ attempt = .ok left) attempt attempt := by
  cases attempt with
  | error flaw => exact .failed flaw
  | ok value => exact .done ⟨rfl, rfl⟩

private theorem imp {left : Except Flaw α} {right : Except Flaw β} {weaker : α → β → Prop}
    (alike : Alike related left right)
    (implies : ∀ {value result}, related value result → weaker value result) :
    Alike weaker left right := by
  cases alike with
  | failed flaw => exact .failed flaw
  | done holds => exact .done (implies holds)

theorem eq_iff {left right : Except Flaw α} {same : Prop}
    (alike : Alike (fun first second => first = second ↔ same) left right) :
    left = right ↔ ∀ result, right = .ok result → same := by
  cases alike with
  | failed flaw => exact iff_of_true rfl fun result impossible => nomatch impossible
  | done holds =>
      constructor
      · intro equal result _
        exact holds.mp (Except.ok.inj equal)
      · exact fun all => congrArg Except.ok (holds.mpr (all _ rfl))

end Alike

/-! ## Names -/

private theorem prefixAndPart?_colon (rest : List Char) :
    prefixAndPart? (':' :: rest) = some ("", String.ofList rest) := by
  rw [prefixAndPart?, List.span_eq_takeWhile_dropWhile]
  rfl

private theorem prefix_ne_empty {written : List Char} {before part : String}
    (parts : prefixAndPart? written = some (before, part)) (other : written.head? ≠ some ':') :
    before ≠ "" := by
  rw [prefixAndPart?, List.span_eq_takeWhile_dropWhile] at parts
  cases written with
  | nil => cases parts
  | cons first rest =>
      have kept : (first != ':') = true := by simpa using other
      rw [List.takeWhile_cons, if_pos kept, List.dropWhile_cons, if_pos kept] at parts
      cases further : rest.dropWhile (· != ':') with
      | nil => simp [further] at parts
      | cons colon part =>
          simp only [further, Option.some.injEq, Prod.mk.injEq] at parts
          rw [← parts.1]
          simp

section

variable (scope : Scope)

private theorem attributeName_colon (rest : List Char) :
    scope.attributeName (':' :: rest)
      = .ok (Name.qualified scope.default (String.ofList rest)) := by
  rw [Scope.attributeName, prefixAndPart?_colon]
  rfl

private theorem attributeName_forAttributes {written : List Char}
    (other : written.head? ≠ some ':') :
    scope.forAttributes.attributeName written = scope.attributeName written := by
  rw [Scope.attributeName, Scope.attributeName]
  cases parts : prefixAndPart? written with
  | none => rfl
  | some pair =>
      have prefixed := prefix_ne_empty parts other
      dsimp only
      rw [Scope.resolve, Scope.resolve, if_neg prefixed, if_neg prefixed]
      rfl

end

/-! ## Start tags -/

/-- No attribute of a start tag is in reach of the default namespace, but for its
prefix. -/
def StartTag.KeepsApart (tag : StartTag) (scope : Scope) : Prop :=
  scope.default = "" ∨ ∀ pair ∈ tag.attributes, pair.1.head? ≠ some ':'

private theorem attributeName_alike (scope : Scope) (written : List Char) :
    Alike (fun left right => left = right ↔ scope.default = "" ∨ written.head? ≠ some ':')
      (scope.attributeName written) (scope.forAttributes.attributeName written) := by
  by_cases colon : written.head? = some ':'
  · rcases List.head?_eq_some_iff.mp colon with ⟨rest, rfl⟩
    rw [attributeName_colon, attributeName_colon]
    refine .done ?_
    simp [Scope.forAttributes, Name.qualified]
  · rw [attributeName_forAttributes scope colon]
    cases scope.attributeName written with
    | error flaw => exact .failed flaw
    | ok name => exact .done (iff_of_true rfl (.inr colon))

private theorem named_cons (scope : Scope) (pair : List Char × String)
    (rest : List (List Char × String)) :
    scope.named (pair :: rest)
      = scope.attributeName pair.1 >>= fun name =>
          scope.named rest >>= fun others => pure ((name, pair.2) :: others) := by
  rcases pair with ⟨key, value⟩
  rw [Scope.named, List.mapM_cons]
  dsimp only
  cases scope.attributeName key <;> rfl

private theorem named_alike (scope : Scope) (pairs : List (List Char × String)) :
    Alike (fun left right =>
        left = right ↔ scope.default = "" ∨ ∀ pair ∈ pairs, pair.1.head? ≠ some ':')
      (scope.named pairs) (scope.forAttributes.named pairs) := by
  induction pairs with
  | nil => exact .done (by simp)
  | cons pair rest induction =>
      rw [named_cons, named_cons]
      refine (attributeName_alike scope pair.1).bind fun first => ?_
      refine induction.bind fun others => .done ?_
      rw [List.cons_eq_cons, Prod.mk.injEq, first, others, List.forall_mem_cons, or_and_left]
      simp only [and_true]

private theorem declaredPrefix?_colon {key : List Char} (colon : key.head? = some ':') :
    (declaredPrefix? key).isNone = true := by
  rcases List.head?_eq_some_iff.mp colon with ⟨rest, rfl⟩
  rfl

private theorem read_alike (outer : Scope) (tag : List Char) :
    Alike (fun left right => ∃ start, StartTag.read tag = .ok start ∧
        left.name = right.name ∧ left.scope = outer.within start.attributes ∧
        right.scope = outer.within start.attributes ∧
        (left.attributes = right.attributes ↔
          start.KeepsApart (outer.within start.attributes)))
      (Heading.read id outer tag) (Heading.read Scope.forAttributes outer tag) := by
  refine (Alike.self (StartTag.read tag)).bind ?_
  rintro start _ ⟨rfl, read⟩
  refine (Alike.self ((outer.within start.attributes).elementName start.name)).bind ?_
  rintro name _ ⟨rfl, -⟩
  refine (named_alike _ _).bind fun same => .done ⟨start, read, rfl, rfl, rfl, same.trans ?_⟩
  apply or_congr_right
  constructor
  · intro none pair member colon
    exact none pair (List.mem_filter.mpr ⟨member, declaredPrefix?_colon colon⟩) colon
  · exact fun none pair member => none pair (List.mem_filter.mp member).1

/-! ## Fragments -/

namespace Fragment

def KeepsApart (scope : Scope) : Fragment → Prop
  | .done => True
  | .plain _ following => following.KeepsApart scope
  | .single tag following =>
    (∀ start, StartTag.read tag = .ok start →
        start.KeepsApart (scope.within start.attributes)) ∧
      following.KeepsApart scope
  | .nested tag inside following =>
    (∀ start, StartTag.read tag = .ok start →
        start.KeepsApart (scope.within start.attributes) ∧
          inside.KeepsApart (scope.within start.attributes)) ∧
      following.KeepsApart scope

private theorem content_alike (fragment : Fragment) (scope : Scope) :
    Alike (fun left right => left.text = right.text ∧
        (left.children = right.children ↔ fragment.KeepsApart scope))
      (fragment.content id scope) (fragment.content Scope.forAttributes scope) := by
  induction fragment generalizing scope with
  | done => exact .done ⟨rfl, iff_of_true rfl trivial⟩
  | plain leaf following induction =>
      refine (Alike.self leaf.characterData).bind ?_
      rintro added _ ⟨rfl, -⟩
      refine (induction scope).bind fun same => .done ?_
      cases added with
      | none => exact same
      | some added =>
          refine ⟨?_, same.2⟩
          rw [Content.afterData, Content.afterData, same.1]
  | single tag following induction =>
      refine (read_alike scope tag).bind ?_
      rintro left right ⟨start, read, name, -, -, attributes⟩
      refine (induction scope).bind fun same => .done ⟨rfl, ?_⟩
      simp [Content.afterElement, Heading.element, name, same, attributes, KeepsApart, read]
  | nested tag inside following insideInduction induction =>
      refine (read_alike scope tag).bind ?_
      rintro left right ⟨start, read, name, leftScope, rightScope, attributes⟩
      rw [leftScope, rightScope]
      refine (insideInduction _).bind fun inner => ?_
      refine (induction scope).bind fun same => .done ⟨rfl, ?_⟩
      simp [Content.afterElement, Heading.element, name, same, inner, attributes, KeepsApart, read]

private theorem root_some_alike (fragment : Fragment) (first second : Element) :
    Alike (fun left right => left = first ∧ right = second ∧ ∀ scope, fragment.KeepsApart scope)
      (fragment.root id (some first)) (fragment.root Scope.forAttributes (some second)) := by
  induction fragment with
  | done => exact .done ⟨rfl, rfl, fun _ => trivial⟩
  | plain leaf following induction =>
      refine (Alike.self leaf.characterData).bind ?_
      rintro added _ ⟨rfl, -⟩
      split
      next blank => exact induction
      next notBlank => exact .failed _
  | single tag following => exact .failed _
  | nested tag inside following => exact .failed _

theorem root_alike (fragment : Fragment) :
    Alike (fun left right => left = right ↔ fragment.KeepsApart .outermost)
      (fragment.root id none) fragment.document := by
  rw [document]
  induction fragment with
  | done => exact .failed _
  | plain leaf following induction =>
      refine (Alike.self leaf.characterData).bind ?_
      rintro added _ ⟨rfl, -⟩
      split
      next blank => exact induction
      next notBlank => exact .failed _
  | single tag following =>
      refine (read_alike .outermost tag).bind ?_
      rintro left right ⟨start, read, name, -, -, attributes⟩
      refine (root_some_alike following _ _).imp ?_
      rintro _ _ ⟨rfl, rfl, apart⟩
      simp [Heading.element, name, attributes, KeepsApart, read, apart]
  | nested tag inside following =>
      refine (read_alike .outermost tag).bind ?_
      rintro left right ⟨start, read, name, leftScope, rightScope, attributes⟩
      rw [leftScope, rightScope]
      refine (content_alike inside _).bind fun inner => ?_
      refine (root_some_alike following _ _).imp ?_
      rintro _ _ ⟨rfl, rfl, apart⟩
      simp [Heading.element, name, inner, attributes, KeepsApart, read, apart]

end Fragment

end TimedText.Markup
