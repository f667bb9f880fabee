import TimedText.Catalogue
import TimedText.Finding.Verdict
import TimedText.Markup.Element
import TimedText.Style.Property
/-!
The cascade of style references. A style element refers to others, and these to
others again; all attributes found that way are merged, the first definition of
each counting. An element's own attributes come before those it refers to, and
earlier references before later ones.

A reference to an element that is being resolved closes a cycle. It is not
followed, and each element that closes one is reported once. What has been
merged in one resolution is not merged again.
-/

namespace TimedText.Style

/-- The values that are specified for attributes, by qualified name. -/
abbrev Specified := Catalogue String

def references (element : Element) : List String :=
  Text.words ((element.attribute? referenceName).getD "")

def addMissing (specified : Specified) (pair : String × String) : Specified :=
  if pair.1 == referenceName || specified.contains pair.1 then specified
  else specified.insert pair.1 pair.2

def merge (specified : Specified) (pairs : List (String × String)) : Specified :=
  pairs.foldl addMissing specified

/-! ## Resolution -/

/-- The state of a resolution: what has been merged, the ids that are done with,
the ids that were reported as closing a cycle, whether a cycle was met, and the
findings. -/
structure Cascade where
  merged : Specified
  done : List String
  reported : List String
  valid : Bool
  findings : Log

namespace Cascade

def starting (reported : List String) : Cascade :=
  ⟨.empty, [], reported, true, []⟩

def addStyle (cascade : Cascade) (style : Element) : Cascade :=
  { cascade with merged := merge cascade.merged style.attributes }

def closeCycle (cascade : Cascade) (reference : String) : Cascade :=
  if cascade.reported.contains reference then { cascade with valid := false }
  else
    { cascade with
      valid := false
      reported := reference :: cascade.reported
      findings := cascade.findings ++
        [.fail .ttmlStylingReferentialChained "style element"
          s!"Cyclic style ref to {reference} found"] }

def finish (cascade : Cascade) (reference : String) : Cascade :=
  { cascade with done := reference :: cascade.done }

end Cascade

def untouched (styles : Catalogue Element) (chain : List String) : Nat :=
  styles.keys.countP fun id => !chain.contains id

private theorem countP_lt {holds still : String → Bool} {members : List String}
    {member : String} (within : member ∈ members) (held : holds member = true)
    (gone : still member = false)
    (implies : ∀ other, still other = true → holds other = true) :
    members.countP still < members.countP holds := by
  induction members with
  | nil => cases within
  | cons first rest induction =>
    have monotone := List.countP_mono_left fun other (_ : other ∈ rest) =>
      implies other
    rw [List.countP_cons, List.countP_cons]
    rcases List.mem_cons.mp within with same | within
    · subst same
      rw [if_neg (by simp [gone]), if_pos held]
      omega
    · have smaller := induction within
      by_cases keeps : still first = true
      · rw [if_pos keeps, if_pos (implies first keeps)]
        omega
      · rw [if_neg keeps]
        omega

theorem untouched_cons_lt {styles : Catalogue Element}
    {chain : List String} {id : String} {style : Element}
    (found : styles.find? id = some style) (fresh : ¬chain.contains id = true) :
    untouched styles (id :: chain) < untouched styles chain := by
  have filed := Catalogue.mem_keys_iff_find?.mpr ⟨style, found⟩
  refine countP_lt filed (by simpa using fresh) (by simp) ?_
  intro other outside
  simp only [List.contains_cons, Bool.not_or, Bool.and_eq_true] at outside
  exact outside.2

/-- Follows references in turn. `chain` holds the ids that are being
resolved. -/
def follow (styles : Catalogue Element) (chain : List String) (cascade : Cascade) :
    List String → Cascade
  | [] => cascade
  | reference :: rest =>
    if closes : chain.contains reference = true then
      follow styles chain (cascade.closeCycle reference) rest
    else if cascade.done.contains reference then
      follow styles chain cascade rest
    else
      match found : styles.find? reference with
      | none => follow styles chain cascade rest
      | some style =>
        have := untouched_cons_lt found closes
        let inner :=
          follow styles (reference :: chain) (cascade.addStyle style) (references style)
        follow styles chain (inner.finish reference) rest
termination_by pending => (untouched styles chain, pending.length)

def resolveFrom (styles : Catalogue Element) (reported : List String) (id : String)
    (style : Element) : Cascade :=
  follow styles [id] ((Cascade.starting reported).addStyle style) (references style)

def resolveOne (styles : Catalogue Element) (id : String) (style : Element) :
    Cascade :=
  resolveFrom styles [] id style

structure ResolvedStyles where
  sets : Catalogue Specified
  verdict : Verdict

def resolveEach (styles : Catalogue Element) (reported : List String) :
    List (String × Element) → List (String × Specified) × Verdict
  | [] => ([], .silent)
  | (id, style) :: rest =>
    let cascade := resolveFrom styles reported id style
    let (others, verdict) := resolveEach styles cascade.reported rest
    ((id, cascade.merged) :: others,
      Verdict.both ⟨cascade.valid, cascade.findings⟩ verdict)

def resolveAll (styles : Catalogue Element) : ResolvedStyles :=
  let (sets, verdict) := resolveEach styles [] styles.entries
  ⟨.ofList sets, verdict⟩

/-! ## Content and regions -/

def ownValues (uri : String) (element : Element) : List (String × String) :=
  properties.filterMap fun property =>
    let name := property.qualifiedName uri
    if name == referenceName then none
    else (element.attribute? name).map fun value => (name, value)

/-- The values that are specified for an element: its own, and then those of the
styles it refers to. -/
def specifiedFor (uri : String) (resolved : Catalogue Specified)
    (element : Element) : Specified :=
  (references element).foldl
    (fun specified reference =>
      match resolved.find? reference with
      | some values => merge specified values.entries
      | none => specified)
    (.ofList (ownValues uri element))

def checkApplicability (kind : String) (specified : Specified) : Verdict :=
  Verdict.forEach specified.keys fun name =>
    .when (!isApplicable (Name.localPart name) kind)
      (.against (.fail .ttmlStylingAttributeApplicability s!"{kind} element"
        (s!"Specified style attribute {name} is not applicable "
          ++ s!"to element type {kind}")))

end TimedText.Style
