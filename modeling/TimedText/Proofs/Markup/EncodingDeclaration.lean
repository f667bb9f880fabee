import Mathlib.Data.List.Chain
import TimedText.Proofs.Markup.Grammar
import TimedText.Proofs.Markup.RenamedText
/-!
Documents that declare an encoding. What stands in quotes is read as it is, as long as it does
not end the declaration.
-/

namespace TimedText.Markup

def spelled (quote : Char) (key value : List Char) : List Char :=
  ' ' :: (key ++ '=' :: quote :: (value ++ [quote]))

def encodingDeclaration (quote : Char) (encoding : List Char) : List Char :=
  'x' :: 'm' :: 'l' :: (spelled quote "version".toList "1.0".toList
    ++ spelled quote "encoding".toList encoding)

/-- Neighbours that do not end a declaration. -/
def GoesOn (first second : Char) : Prop := ¬(first = '?' ∧ second = '>')

instance : DecidableRel GoesOn := fun first second =>
  inferInstanceAs (Decidable ¬(first = '?' ∧ second = '>'))

private theorem Spells.spelled {quote : Char} {key value rest : List Char} {others : List Attribute}
    (isKey : IsKey key) (quotes : isQuote quote = true) (inside : quote ∉ value)
    (following : Spells others rest) :
    Spells (⟨key, value⟩ :: others) (spelled quote key value ++ rest) := by
  have blank : AllSpace [' '] := List.forall_mem_singleton.mpr rfl
  have assigns : Assigns value ([] ++ '=' :: ([] ++ quote :: (value ++ [quote]))) :=
    .intro nofun nofun quotes inside
  have spells := Spells.more blank isKey assigns following
  simpa [Markup.spelled] using spells

private theorem ofContent_encodingDeclaration {quote : Char} {encoding : List Char}
    (quotes : isQuote quote = true) (inside : quote ∉ encoding) :
    Declaration.ofContent (encodingDeclaration quote encoding)
      = ⟨"1.0", some (String.ofList encoding)⟩ := by
  have versionKey : IsKey "version".toList := .intro rfl (List.all_eq_true.mp rfl)
  have encodingKey : IsKey "encoding".toList := .intro rfl (List.all_eq_true.mp rfl)
  have unquoted : quote ∉ "1.0".toList := by
    rcases eq_of_isQuote quotes with rfl | rfl <;> decide
  have spells := Spells.spelled versionKey quotes unquoted
    (.spelled encodingKey quotes inside (.done (List.forall_mem_nil _)))
  have reads : attributesOf false (encodingDeclaration quote encoding)
      = ⟨[⟨"version".toList, "1.0".toList⟩, ⟨"encoding".toList, encoding⟩], none⟩ := by
    rw [List.append_nil] at spells
    apply spells.reads
    change ["version".toList, "encoding".toList].Nodup
    decide
  rw [Declaration.ofContent, reads]
  rfl

private theorem foldlM_markStep (read characters : List Char)
    (goesOn : (read.reverse ++ characters).IsChain GoesOn) :
    characters.foldlM (markStep ['?'] 0) read = some (characters.reverse ++ read) := by
  induction characters generalizing read with
  | nil => rfl
  | cons first rest induction =>
      have next : markStep ['?'] 0 read first = some (first :: read) := by
        rw [markStep, if_neg]
        intro ends
        simp only [Bool.and_eq_true, beq_iff_eq, List.isPrefixOf_iff_prefix] at ends
        rcases ends with ⟨⟨rfl, before, rfl⟩, -⟩
        have neighbours : ['?', '>'] <:+: (['?'] ++ before).reverse ++ '>' :: rest :=
          ⟨before.reverse, rest, by simp⟩
        have pair : ['?', '>'].IsChain GoesOn := goesOn.infix neighbours
        exact List.isChain_pair.mp pair ⟨rfl, rfl⟩
      rw [List.reverse_cons, List.append_assoc, List.singleton_append, List.foldlM_cons, next]
      apply induction
      rwa [List.reverse_cons, List.append_assoc, List.singleton_append]

private theorem isChain_encodingDeclaration {quote : Char} {encoding : List Char}
    (quotes : isQuote quote = true) (goesOn : encoding.IsChain GoesOn) :
    ('?' :: (encodingDeclaration quote encoding ++ ['?'])).IsChain GoesOn := by
  have quoteGoesOn (other : Char) : GoesOn quote other ∧ GoesOn other quote := by
    rcases eq_of_isQuote quotes with rfl | rfl <;> simp [GoesOn]
  have begins : ('?' :: 'x' :: 'm' :: 'l' :: (spelled quote "version".toList "1.0".toList
      ++ ' ' :: ("encoding".toList ++ ['='])) ++ [quote]).IsChain GoesOn := by
    rcases eq_of_isQuote quotes with rfl | rfl <;> decide
  have last : [quote, '?'].IsChain GoesOn := List.isChain_pair.mpr (quoteGoesOn '?').1
  have within : (encoding ++ [quote, '?']).IsChain GoesOn := goesOn.append last (by
    rintro before _ _ ⟨⟩
    exact (quoteGoesOn before).2)
  have ends : ([quote] ++ (encoding ++ [quote, '?'])).IsChain GoesOn :=
    within.cons fun next _ => (quoteGoesOn next).1
  have whole := begins.append_overlap ends (List.cons_ne_nil _ _)
  simpa [encodingDeclaration, Markup.spelled] using whole

private theorem holds_encodingDeclaration {quote : Char} {encoding : List Char}
    (quotes : isQuote quote = true) (goesOn : encoding.IsChain GoesOn) :
    Construct.instruction.Holds ('?' :: (encodingDeclaration quote encoding ++ ['?'])) := by
  intro rest
  have leads := foldlM_markStep [] _ (isChain_encodingDeclaration quotes goesOn)
  refine Text.cut_eq_some_iff.mpr ⟨_, '>', leads, ?_, rfl⟩
  simp [markStep]

private theorem event_encodingDeclaration (opened : List (List Char)) (quote : Char)
    (encoding : List Char) :
    Construct.instruction.event opened ('?' :: (encodingDeclaration quote encoding ++ ['?']))
      = .ok (.declaration (encodingDeclaration quote encoding)) := by
  have inside : (encodingDeclaration quote encoding ++ ['?']).dropLast
      = encodingDeclaration quote encoding := List.dropLast_concat
  rw [Construct.event, instructionEvent, List.drop_one, List.tail_cons]
  split
  next none => exact absurd none (List.append_ne_nil_of_right_ne_nil _ (List.cons_ne_nil _ _))
  next =>
    dsimp only
    rw [inside]
    rfl

def declaringDocument (quote : Char) (encoding : List Char) : List Char :=
  '<' :: ('?' :: (encodingDeclaration quote encoding ++ ['?']) ++ ['>']) ++ "<tt/>".toList

theorem scan_declaringDocument {quote : Char} {encoding : List Char}
    (quotes : isQuote quote = true) (inside : quote ∉ encoding)
    (goesOn : encoding.IsChain GoesOn) :
    (Prolog.scan (String.ofList (declaringDocument quote encoding))).declaration
      = some ⟨"1.0", some (String.ofList encoding)⟩ := by
  let content := encodingDeclaration quote encoding
  have declares : Tells [] "<tt/>".toList.head? (.declaration content)
      ('<' :: ('?' :: (content ++ ['?']) ++ ['>'])) :=
    .markup rfl (holds_encodingDeclaration quotes goesOn)
      (event_encodingDeclaration [] quote encoding)
  have begins : Tells [] ([] : List Char).head? (.empty "tt".toList)
      ('<' :: ("tt/".toList ++ ['>'])) :=
    .markup rfl (fun rest => Construct.cut_tagStep_iff.mpr rfl rest) rfl
  have ends : Prolog.ofEvents ((transcribeFrom [] (declaringDocument quote encoding)).events.map
      Prod.fst) = Prolog.empty.afterEvent (.declaration content) := by
    have root := transcribeFrom_of_tells begins
    rw [List.append_nil] at root
    change Prolog.ofEvents ((transcribeFrom [] (_ ++ "<tt/>".toList)).events.map Prod.fst) = _
    rw [transcribeFrom_of_tells declares]
    change Prolog.ofEvents (_ :: (transcribeFrom [] ('<' :: ("tt/".toList ++ ['>']))).events.map
      Prod.fst) = _
    rw [root]
    rfl
  have unmarked : withoutMark (declaringDocument quote encoding)
      = declaringDocument quote encoding := rfl
  rw [Prolog.scan, String.toList_ofList, transcribe, unmarked, ends, Prolog.afterEvent,
    ofContent_encodingDeclaration quotes inside]

end TimedText.Markup
