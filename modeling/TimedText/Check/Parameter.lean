import TimedText.Check.Context
/-!
Checks of the root element and of the parameters it gives.
-/

namespace TimedText.Check

def parameterFollowing : String := "#parameter"

def attributeLocation (element : Element) (name : String) : String :=
  s!"{element.tag} {name} attribute"

def checkAbsent (required : Bool) (code : Code) (location name : String) : Verdict :=
  if required then
    .against (.fail code location s!"Required {name} attribute absent")
  else .remark (.warn code location s!"{name} attribute absent")

/-! ## Root -/

def checkRoot (root : Element) : Verdict :=
  let uri := root.uri?.getD ""
  let namespaceVerdict : Verdict :=
    if uri == Vocabulary.core then
      .remark (.pass .xmlTtNamespace root.tag
        s!"Root element has expected namespace \"{uri}\"")
    else
      .against (.fail .xmlTtNamespace root.tag
        s!"Root element has unexpected namespace \"{uri}\"")
  let nameVerdict : Verdict :=
    if root.localPart == "tt" then
      .remark (.pass .xmlRootElement root.tag "Root element has expected tag <tt>")
    else
      .against (.fail .xmlRootElement root.tag
        s!"Root element has unexpected tag <{root.localPart}>")
  namespaceVerdict ++ nameVerdict

def fileRoot (root : Element) : Run Bool := do
  Run.change fun context => { context with rootUri := some (root.uri?.getD "") }
  Run.judge (checkRoot root)

/-! ## Time base -/

def checkTimeBase (allowed : List String) (required : Bool) (uri : String)
    (root : Element) : Verdict :=
  let name := Name.relative uri parameterFollowing "timeBase"
  let location := attributeLocation root name
  let value? := root.attribute? name
  if required && value?.isNone then
    checkAbsent true .ebuttdParameterTimeBase location "timeBase"
  else
    let value := value?.getD "media"
    if allowed.contains value then
      .remark (.pass .ebuttdParameterTimeBase location "timeBase checked")
    else
      .against (.fail .ebuttdParameterTimeBase location
        s!"timeBase {value} not in the allowed set {Text.quotedList allowed}")

/-! ## Active area -/

/-- A numeral in decimal digits of any script. -/
structure AnyNumeral where
  whole : List Char
  fraction : Option (List Char)

namespace AnyNumeral

def take? (characters : List Char) : Option (AnyNumeral × List Char) :=
  let whole := characters.takeWhile Text.isDecimalDigit
  let rest := characters.dropWhile Text.isDecimalDigit
  if whole.isEmpty then none
  else
    match rest with
    | '.' :: afterPoint =>
      let fraction := afterPoint.takeWhile Text.isDecimalDigit
      if fraction.isEmpty then some (⟨whole, none⟩, rest)
      else some (⟨whole, some fraction⟩, afterPoint.dropWhile Text.isDecimalDigit)
    | _ => some (⟨whole, none⟩, rest)

/-- The value, which only numerals in ASCII digits have. -/
def value? (numeral : AnyNumeral) : Option Float :=
  let fraction := numeral.fraction.getD []
  if (numeral.whole ++ fraction).all Text.isDigit then
    some (Number.ofDecimal (Text.digitsValue 10 (numeral.whole ++ fraction))
      fraction.length)
  else none

end AnyNumeral

def anyPercentage? (word : List Char) : Option AnyNumeral :=
  match AnyNumeral.take? word with
  | some (numeral, ['%']) => some numeral
  | _ => none

def activeArea? (text : String) : Option (List AnyNumeral) :=
  let words := Style.wordsWithin text.toList
  if words.length = 4 then words.mapM anyPercentage? else none

def AnyNumeral.exceedsHundred (numeral : AnyNumeral) : Bool :=
  numeral.value?.any fun value => Number.less 100 value

def checkActiveArea (required : Bool) (root : Element) : Verdict :=
  let name := Name.qualified Vocabulary.internetParameter "activeArea"
  let location := attributeLocation root name
  match root.attribute? name with
  | none => checkAbsent required .imscParameterActiveArea location "activeArea"
  | some value =>
    match activeArea? value with
    | none =>
      .against (.fail .imscParameterActiveArea location
        s!"activeArea {value} does not match syntax requirements")
    | some numerals =>
      if numerals.any (·.exceedsHundred) then
        .against (.fail .imscParameterActiveArea location
          s!"activeArea {value} has at least one component >100%")
      else
        .remark (.pass .imscParameterActiveArea location "activeArea checked")

/-! ## Cell resolution -/

def defaultCellResolution : String := "32 15"

def cellCounts? (text : String) : Option (List Char × List Char) :=
  match Style.wordsWithin text.toList with
  | [columns, rows] =>
    if columns.all Text.isDecimalDigit && rows.all Text.isDecimalDigit then
      some (columns, rows)
    else none
  | _ => none

def isZero (digits : List Char) : Bool :=
  digits.all (· == '0')

def checkCellCounts (location value : String) : Verdict :=
  match cellCounts? value with
  | none =>
    .against (.fail .ttmlParameterCellResolution location
      s!"cellResolution {value} does not match syntax requirements")
  | some (columns, rows) =>
    .when (isZero columns || isZero rows)
      (.against (.fail .ttmlParameterCellResolution location
        s!"cellResolution {value} has at least one component == 0"))

def checkCellResolution (required : Bool) (uri : String) (root : Element) :
    Verdict :=
  let name := Name.relative uri parameterFollowing "cellResolution"
  let location := attributeLocation root name
  let verdict : Verdict :=
    match root.attribute? name with
    | some value => checkCellCounts location value
    | none =>
      checkAbsent required .ttmlParameterCellResolution location "cellResolution"
        ++ Verdict.remark (.info .ttmlParameterCellResolution location
          s!"using default cellResolution value {defaultCellResolution}")
  verdict.affirm
    (.pass .ttmlParameterCellResolution location "cellResolution checked")

def fileCellResolution (required : Bool) (root : Element) : Run Bool := do
  let context ← Run.context
  let verdict := checkCellResolution required context.uri root
  let name := Name.relative context.uri parameterFollowing "cellResolution"
  let effective :=
    if verdict.valid then (root.attribute? name).getD defaultCellResolution
    else defaultCellResolution
  Run.change fun context => { context with cellResolution := some effective }
  Run.judge verdict

/-! ## Content profiles -/

/-- The verdict on the content profiles: one of those that are accepted, unless
any is, and none of those that are denied. -/
def checkContentProfiles (accepted denied : List String) (required : Bool)
    (uri : String) (root : Element) : Verdict :=
  let name := Name.relative uri parameterFollowing "contentProfiles"
  let location := attributeLocation root name
  let code := Code.ttmlParameterContentProfiles
  match root.attribute? name with
  | none => checkAbsent required code location "contentProfiles"
  | some value =>
    let profiles := Text.words value
    if profiles.isEmpty then
      .against (.fail code location "contentProfiles attribute is empty")
    else
      let prohibited :=
        Verdict.forEach (profiles.filter denied.contains) fun profile =>
          .against (.fail code location s!"contentProfiles {profile} is prohibited")
      let acceptable := accepted.isEmpty || profiles.any accepted.contains
      let listed :=
        Verdict.when (!acceptable)
          (.against (.fail code location
            (s!"contentProfiles {value} does not contain any of the "
              ++ s!"required profiles {Text.quotedList accepted}")))
      (prohibited ++ listed).affirm
        (.pass code location "contentProfiles checked")

end TimedText.Check
