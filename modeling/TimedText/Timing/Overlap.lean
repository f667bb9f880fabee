import TimedText.Attempt
import TimedText.Style.Computed
import TimedText.Timing.Timeline
/-!
Overlaps: two subtitles in different regions must not be on screen together
where their regions cover each other.
-/

namespace TimedText.Timing

variable {τ : Type} [Quantity τ]

/-- The edges of a region in percent of the root container. -/
structure Edges (τ : Type) where
  left : τ
  right : τ
  top : τ
  bottom : τ

def pairValue? (text : String) : Option (τ × τ) :=
  let value (numeral : Number.Numeral) : τ :=
    let fraction := numeral.fraction.getD []
    Quantity.decimal (Text.digitsValue 10 (numeral.whole ++ fraction)) fraction.length
  (Style.readPair? text).map fun (first, second) => (value first, value second)

/-- The edges of a region, from its computed origin and extent. A region without
these fills the root container. -/
def Edges.of (style : Style.Computed) : Except Fault (Edges τ) :=
  let origin := style.find? "origin"
  let extent := style.find? "extent"
  match pairValue? (origin.getD "0% 0%"), pairValue? (extent.getD "100% 100%") with
  | some (left, top), some (width, height) =>
    .ok ⟨left, Quantity.add left width, top, Quantity.add top height⟩
  | _, _ =>
    .error (.validation
      ("Cannot decode either origin " ++ origin.getD "None" ++ " or extent "
        ++ extent.getD "None" ++ " or both"))

/-- Whether two regions cover each other; touching edges do not. -/
def Edges.cover (first second : Edges τ) : Bool :=
  Quantity.less second.left first.right && Quantity.less first.left second.right
    && Quantity.less first.top second.bottom && Quantity.less second.top first.bottom

abbrev Regions (τ : Type) := List (String × Edges τ)

def regionsOf (styles : Catalogue Style.Computed) : Except Fault (Regions τ) :=
  styles.entries.mapM fun (id, style) => do
    let edges ← Edges.of style
    return (id, edges)

def Regions.cover (regions : Regions τ) (first second : String) : Bool :=
  regions.any fun (one, edges) =>
    one == first && regions.any fun (other, others) =>
      other == second && edges.cover others

/-- Whether a region covers any region at all, itself included. -/
def Regions.coversAny (regions : Regions τ) (id : String) : Bool :=
  regions.any fun (one, edges) =>
    one == id && regions.any fun (_, others) => edges.cover others

structure Placed (τ : Type) where
  entry : Entry τ
  region : String

/-- The regions in which elements are shown, by path. -/
abbrev Placement := List (Path × String)

def Placement.regionAt? (placement : Placement) (path : Path) : Option String :=
  (placement.find? fun pair => pair.1 == path).map Prod.snd

def Moment.placed (regions : Regions τ) (placement : Placement)
    (moment : Moment τ) : List (Placed τ) :=
  moment.entries.filterMap fun entry =>
    if entry.localPart == "p" then
      (Placement.regionAt? placement entry.path).bind fun region =>
        if regions.coversAny region then some ⟨entry, region⟩ else none
    else none

def Placed.describe (placed : Placed τ) : String :=
  s!"<{placed.entry.tag}> xml:id={placed.entry.xmlIdOrOmitted} "
    ++ s!"region={placed.region}"

def checkPlaced (regions : Regions τ) (first later : Placed τ) : Verdict :=
  .when (first.region != later.region && regions.cover first.region later.region)
    (.against (.fail .ebuttdOverlappingRegionConstraint
      s!"{first.describe} and {later.describe}"
      "Elements overlap spatially and temporally"))

abbrev Instant (τ : Type) := τ × List (Placed τ)

def Placed.lastsUntil (placed : Placed τ) (instant : τ) : Bool :=
  !placed.entry.ending.any fun ending => Quantity.lessOrEqual ending instant

def checkInstants (regions : Regions τ) : List (Instant τ) → Verdict
  | [] => .silent
  | (_, placed) :: later =>
    (Verdict.forEach placed fun first =>
      Verdict.forEach later fun (instant, others) =>
        .when (first.lastsUntil instant)
          (Verdict.forEach others (checkPlaced regions first)))
      ++ checkInstants regions later

def checkOverlaps (timeline : Timeline τ) (placement : Placement)
    (styles : Catalogue Style.Computed) : Attempt Bool := do
  let regions : Regions τ ← Attempt.ofExcept (regionsOf styles)
  Attempt.judge (checkInstants regions (timeline.map fun moment =>
    (moment.instant, moment.placed regions placement)))

end TimedText.Timing
