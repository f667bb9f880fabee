import TimedText.Check.Context
/-!
Checks of what stands in the head of a document: the copyright notice and the
agents, of whom none may be played by itself.
-/

namespace TimedText.Check

def checkCopyright (required : Bool) (uri : String) (head : Element) : Verdict :=
  let tag := Name.relative uri "#metadata" "copyright"
  let location := childLocation head tag
  match (head.childrenNamed tag).length with
  | 0 =>
    if required then
      .against (.fail .ttmlMetadataCopyright location
        "Required copyright element absent")
    else
      .remark (.warn .ttmlMetadataCopyright location "copyright element absent")
  | 1 => .remark (.pass .ttmlMetadataCopyright location "Copyright element found")
  | count =>
    .remark (.warn .ttmlMetadataCopyright location
      s!"{count} copyright elements found, expected 1")

def selfReferences (agent : Element) (id : String) : List Element :=
  (agent.descendantsNamed (Name.qualified Vocabulary.metadata "actor")).filter
    fun actor => actor.attribute? "agent" == some id

def checkAgent (agent : Element) : Verdict :=
  match agent.xmlId? with
  | none => .silent
  | some id =>
    Verdict.forEach (selfReferences agent id) fun _ =>
      .against (.fail .ttmlMetadataActorReference
        s!"ttm:agent element with xml:id={id}"
        ("ttm:actor element found with agent pointing to "
          ++ "ancestor ttm:agent element"))

def checkActors (head : Element) : Verdict :=
  (Verdict.forEach
    (head.descendantsNamed (Name.qualified Vocabulary.metadata "agent"))
    checkAgent).affirm
      (.pass .ttmlMetadataActorReference s!"{head.tag} element"
        "No ttm:actor elements found referencing ancestor ttm:agent")

end TimedText.Check
