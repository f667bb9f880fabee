import TimedText.Check.Context
import TimedText.Check.StyleReference
/-!
Checks of region references and of regions. A content element is shown in the
region that it names, or else in that of the element around it. An element that
names another region than the one in effect around it is dropped. Every
paragraph has to be shown somewhere. Regions that content is shown in have to
meet the layout constraints; others only should.
-/

namespace TimedText.Check

open Style Timing

/-! ## Use of regions -/

inductive RegionUse where
  /-- The element names the region that is in effect for it. -/
  | named (region : String)
  /-- The element names another region than the one in effect around it. -/
  | dropped (region : String)
  /-- A paragraph is shown in a region. -/
  | shown (path : Path) (region : String)
  /-- A paragraph is in no region. -/
  | unplaced
deriving DecidableEq, Repr

def ownRegion? (element : Element) : Option String :=
  ((element.attribute? "region").map Text.trim).filter fun region =>
    !region.isEmpty

/-- The region in effect for an element, what it does by naming one, and whether
it is dropped. -/
def effectiveRegion (inherited : Option String) (element : Element) :
    Option String × List RegionUse × Bool :=
  match ownRegion? element, inherited with
  | some own, some around =>
    if own != around then (inherited, [.dropped own], true)
    else (some own, [.named own], false)
  | some own, none => (some own, [.named own], false)
  | none, _ => (inherited, [], false)

def paragraphUse (path : Path) : Option String → RegionUse
  | some region => .shown path region
  | none => .unplaced

mutual
/-- What becomes of an element at a path and of all that it contains, a region
being in effect around it. -/
def regionUses (inherited : Option String) (path : Path) :
    Element → List RegionUse
  | ⟨tag, attributes, children, text, tail⟩ =>
    let element : Element := ⟨tag, attributes, children, text, tail⟩
    let (effective, own, dropped) := effectiveRegion inherited element
    let paragraph :=
      if element.localPart == "p" && !dropped then [paragraphUse path effective]
      else []
    own ++ paragraph ++ regionUsesOfAll effective path 0 children

def regionUsesOfAll (inherited : Option String) (path : Path) (index : Nat) :
    List Element → List RegionUse
  | [] => []
  | first :: rest =>
    regionUses inherited (path ++ [index]) first
      ++ regionUsesOfAll inherited path (index + 1) rest
end

def tally (words : List String) : Catalogue Nat :=
  words.foldl (fun counts word => counts.insert word ((counts.find? word).getD 0 + 1))
    .empty

def namedRegions (uses : List RegionUse) : Catalogue Nat :=
  tally (uses.filterMap fun usage => if let .named region := usage then some region else none)

def droppedRegions (uses : List RegionUse) : Catalogue Nat :=
  tally (uses.filterMap fun usage =>
    if let .dropped region := usage then some region else none)

def placementOf (uses : List RegionUse) : Placement :=
  uses.filterMap fun usage =>
    if let .shown path region := usage then some (path, region) else none

/-! ## Layout of a region -/

def requiredOfRegion (uri : String) : List String :=
  ["origin", "extent", "displayAlign", "overflow"].map
    (Name.relative uri stylingFollowing)

def regionFinding (status : Status) (code : Code) (location message : String) :
    Verdict :=
  .against ⟨status, code, location, message⟩

def checkRegionSpecified (status : Status) (uri location : String)
    (specified : Specified) : Verdict :=
  let required := requiredOfRegion uri
  let missing := required.filter fun name => !specified.contains name
  let others := specified.keys.filter fun name =>
    name != referenceName && !required.contains name
      && (propertyQualified? uri name).isSome
  (Verdict.forEach missing fun name =>
    regionFinding status .ebuttdRegionAttributesConstraint location
      s!"Required style attribute {name} missing from region element")
  ++ Verdict.forEach others fun name =>
    .remark (.warn .bbcRegionAttributesConstraint location
      (s!"Non-required style attribute {name} present on region element - "
        ++ "presentation may differ from expectation"))

def roundToThousandths (number : Float) : Float :=
  Number.roundHalfAway (number * 1000) / 1000

/-- The part of the height and width at each edge that stays free, in
percent. -/
def safeMargin : Float := 5

def checkRegionEdges (status : Status) (location : String) (origin extent : Float × Float) :
    Verdict :=
  let left := roundToThousandths origin.1
  let top := roundToThousandths origin.2
  let right := roundToThousandths (origin.1 + extent.1)
  let bottom := roundToThousandths (origin.2 + extent.2)
  let beyond (edge : String) (position : Float) : Verdict :=
    .when (Number.less 100 position)
      (regionFinding status .ebuttdRegionPositionConstraint location
        s!"Region {edge} edge {Number.secondsText position}% goes beyond 100%")
  let outside :=
    Number.less left safeMargin || Number.less (100 - safeMargin) right
      || Number.less top safeMargin || Number.less (100 - safeMargin) bottom
  beyond "right" right ++ beyond "bottom" bottom
    ++ Verdict.when outside
      (regionFinding status .bbcRegionPositionConstraint location
        ("Region extends out of BBC-defined permitted area "
          ++ "(90% height and width)"))

def checkRegionPosition (status : Status) (location : String) (computed : Computed) :
    Verdict :=
  let pair? (name : String) : Option (Float × Float) :=
    (computed.find? name).bind pairValue?
  match pair? "origin", pair? "extent" with
  | some origin, some extent => checkRegionEdges status location origin extent
  | _, _ =>
    regionFinding status .ebuttdRegionPositionConstraint location
      "Not got computed values for both origin and extent"

def checkRegionComputed (status : Status) (location : String) (computed : Computed) :
    Verdict :=
  let background := (computed.find? "backgroundColor").getD ""
  let overflow := (computed.find? "overflow").getD ""
  Verdict.when (!(Colour.read? background).any (·.isTransparent))
      (regionFinding status .bbcRegionBackgroundColorConstraint location
        (s!"backgroundColor value {background} is non-transparent "
          ++ "and does not meet BBC requirements"))
    ++ checkRegionPosition status location computed
    ++ Verdict.when (overflow != "visible")
      (regionFinding status .bbcRegionOverflowConstraint location
        s!"Region overflow {overflow} not visible (BBC requirement)")

/-! ## Regions of a document -/

structure RegionSurvey where
  uri : String
  specified : Catalogue Specified
  named : Catalogue Nat
  dropped : Catalogue Nat

/-- The verdict on one region, and its computed style. A region in which nothing
is shown gives warnings only. -/
def checkRegion (survey : RegionSurvey) (id : String) (region : Element) :
    Verdict × Computed :=
  let location := s!"region element xml:id {id}"
  let used := survey.named.contains id
  let status : Status := if used then .fail else .warn
  let unreferenced :=
    Verdict.when (!used && !survey.dropped.contains id)
      (.remark (.warn .ttmlElementRegion location "Unreferenced region element"))
  let pruned :=
    (survey.dropped.find? id).elim .silent fun count =>
      Verdict.remark (.warn .ttmlLayoutRegionAssociation location
        (s!"{count} elements pruned because their ancestor references "
          ++ "a different region element"))
  let specified := specifiedFor survey.uri survey.specified region
  let computation := computeAll survey.uri specified .empty ⟨none, none⟩ status
  let layout :=
    checkRegionSpecified status survey.uri location specified
      ++ computation.verdict
      ++ checkRegionComputed status location computation.computed
  (unreferenced ++ pruned ++ ⟨!used || layout.valid, layout.findings⟩,
    computation.computed)

def checkMissingRegions (regions : Catalogue Element) (kind : String)
    (counts : Catalogue Nat) : Verdict :=
  Verdict.forEach (counts.entries.filter fun (id, _) => !regions.contains id)
    fun (id, count) =>
      .against (.fail .ttmlLayoutRegionAssociation s!"{count} element(s)"
        s!"{kind} region {id} does not point to a region element")

def checkRegions (uri : String) (specified : Catalogue Specified)
    (regions : Catalogue Element) (uses : List RegionUse) :
    Verdict × Catalogue Computed :=
  let named := namedRegions uses
  let dropped := droppedRegions uses
  let unplaced := uses.countP (· = .unplaced)
  let looked := regions.entries.map fun (id, region) =>
    (id, checkRegion ⟨uri, specified, named, dropped⟩ id region)
  let verdict :=
    Verdict.all (looked.map fun (_, verdict, _) => verdict)
      ++ checkMissingRegions regions "Referenced" named
      ++ checkMissingRegions regions "Dropped referenced" dropped
      ++ Verdict.when (0 < unplaced)
        (.against (.fail .ttmlLayoutRegionAssociation s!"{unplaced} p element(s)"
          "Elements not associated with a region"))
  (verdict.affirm (.pass .ttmlLayoutRegionAssociation "document"
      "Region references and attributes checked"),
    .ofList (looked.map fun (id, _, computed) => (id, computed)))

def checkRegionReferences (root : Element) : Run Bool := do
  let context ← Run.context
  let tag := Name.qualified context.uri "body"
  let bodies := (root.placedChildren []).filter fun (_, child) => child.tag == tag
  match bodies with
  | [(path, body)] =>
    let uses := regionUses none path body
    Run.change fun context => { context with placement := some (placementOf uses) }
    match context.regions with
    | none =>
      Run.judge (.against (.skip .ttmlElementRegion "document"
        ("regionRefsCheck not checking region elements - "
          ++ "no context[id_to_region_map]")))
    | some regions =>
      let (verdict, styles) :=
        checkRegions context.uri (context.specified.getD .empty) regions uses
      Run.change fun context => { context with regionStyles := some styles }
      Run.judge verdict
  | _ =>
    Run.judge (.against (.fail .ttmlElementBody (childLocation root tag)
      (s!"Found {bodies.length} body elements, expected 1; "
        ++ "skipping region reference checks")))

end TimedText.Check
