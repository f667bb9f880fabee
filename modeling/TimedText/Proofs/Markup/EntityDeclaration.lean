import TimedText.Check.Bytes
import TimedText.Proofs.Text.Cut
import TimedText.Proofs.Text.Language
import TimedText.Proofs.Text.Utf8
import TimedText.Proofs.Verdict
/-!
Declarations of entities. The scan of what stands before the root element finds every entity that
a document type declares, but each document type replaces what was found in the one before it. So
the check of the structure only knows the entities of the last one.
-/

namespace TimedText.Markup

open Text
open scoped Computability

/-! ## Declarations -/

def parameterMark : Language Char := 1 + oneOf (· == '%') * someOf isBlank

def entityOpening : Language Char := {"<!ENTITY".toList} * (someOf isBlank * parameterMark)

/-- A text breaks off before the name of an entity or within it. -/
def BreaksOff (characters : List Char) : Prop :=
  ∃ before, ∃ opening ∈ entityOpening, ∃ begun ∈ (oneOf isEntityNameCharacter)∗,
    characters = before ++ (opening ++ begun)

/-- What is read as the name of an entity goes on until the first blank or closing bracket. -/
structure IsTaken (name rest : List Char) : Prop where
  own : name ∈ someOf isEntityNameCharacter
  stops : ∀ next ∈ rest.head?, isEntityNameCharacter next = false

/-- After some characters of a document type an entity of a name is declared. -/
def WritesAfter (before content name : List Char) : Prop :=
  ∃ opening ∈ entityOpening, ∃ rest, content = before ++ (opening ++ (name ++ rest)) ∧
    IsTaken name rest ∧ name.head? ≠ some '%'

/-- Somewhere in a document type, be it in a comment or in a literal, an entity of a name is
declared. -/
def WritesEntity (content name : List Char) : Prop := ∃ before, WritesAfter before content name

/-- A document type holds the beginning of a declaration, up to the name. -/
def HoldsEntity (content : List Char) : Prop :=
  ∃ before, ∃ opening ∈ entityOpening, ∃ first rest,
    content = before ++ (opening ++ first :: rest) ∧ isEntityNameCharacter first = true

section

variable {characters name rest opening content before : List Char}

private theorem mem_entityOpening_iff :
    opening ∈ entityOpening ↔
      ∃ gap ∈ someOf isBlank, ∃ mark ∈ parameterMark,
        opening = "<!ENTITY".toList ++ (gap ++ mark) := by
  rw [entityOpening, Language.mem_mul]
  constructor
  · rintro ⟨_, rfl, _, ⟨gap, blank, mark, marks, rfl⟩, rfl⟩
    exact ⟨gap, blank, mark, marks, rfl⟩
  · rintro ⟨gap, blank, mark, marks, rfl⟩
    exact ⟨_, rfl, _, ⟨gap, blank, mark, marks, rfl⟩, rfl⟩

private theorem not_isBlank_of_isEntityNameCharacter {character : Char}
    (own : isEntityNameCharacter character = true) : isBlank character = false := by
  rw [isEntityNameCharacter, Bool.and_eq_true, Bool.not_eq_true'] at own
  exact own.1

private theorem IsTaken.exists_first (taken : IsTaken name rest) :
    ∃ first others, name = first :: others ∧ isEntityNameCharacter first = true := by
  rcases mem_someOf_iff.mp taken.own with ⟨begun, own⟩
  cases name with
  | nil => exact absurd rfl begun
  | cons first others => exact ⟨first, others, rfl, own first List.mem_cons_self⟩

private theorem takeEntityName?_eq_some_iff :
    takeEntityName? characters = some (name, rest) ↔
      characters = name ++ rest ∧ IsTaken name rest := by
  rw [takeEntityName?]
  constructor
  · intro found
    split at found
    next => cases found
    next begun =>
      cases found
      exact ⟨List.takeWhile_append_dropWhile.symm,
        mem_someOf_iff.mpr ⟨begun, fun _ => List.mem_takeWhile_imp⟩, head?_dropWhile⟩
  · rintro ⟨rfl, taken⟩
    rcases mem_someOf_iff.mp taken.own with ⟨begun, own⟩
    rw [takeWhile_append_stop own taken.stops, dropWhile_append_stop own taken.stops]
    split
    next => exact absurd rfl begun
    next => rfl

private theorem afterBlanks?_eq_some_iff :
    afterBlanks? characters = some rest ↔
      ∃ gap ∈ someOf isBlank, characters = gap ++ rest ∧
        ∀ next ∈ rest.head?, isBlank next = false := by
  rw [afterBlanks?, Option.ite_none_right_eq_some, Option.some.injEq]
  constructor
  · rintro ⟨blank, rfl⟩
    refine ⟨characters.takeWhile isBlank, mem_someOf_iff.mpr ⟨?_, fun _ =>
      List.mem_takeWhile_imp⟩, List.takeWhile_append_dropWhile.symm, head?_dropWhile⟩
    cases characters with
    | nil => cases blank
    | cons first others =>
        have own : isBlank first = true := blank
        rw [List.takeWhile_cons_of_pos own]
        exact List.cons_ne_nil _ _
  · rintro ⟨gap, blank, rfl, stops⟩
    rcases mem_someOf_iff.mp blank with ⟨begun, all⟩
    refine ⟨?_, dropWhile_append_stop all stops⟩
    cases gap with
    | nil => exact absurd rfl begun
    | cons first others => exact all first List.mem_cons_self

private theorem afterEntityKeyword?_eq_some_iff :
    afterEntityKeyword? characters = some rest ↔
      ∃ gap ∈ someOf isBlank, characters = "<!ENTITY".toList ++ (gap ++ rest) ∧
        ∀ next ∈ rest.head?, isBlank next = false := by
  rw [afterEntityKeyword?, Option.ite_none_right_eq_some, afterBlanks?_eq_some_iff,
    List.isPrefixOf_iff_prefix]
  constructor
  · rintro ⟨⟨after, rfl⟩, gap, blank, same, stops⟩
    exact ⟨gap, blank, congrArg _ same, stops⟩
  · rintro ⟨gap, blank, rfl, stops⟩
    exact ⟨⟨_, rfl⟩, gap, blank, rfl, stops⟩

private theorem declaredEntity?_marked {mark : List Char} (marks : mark ∈ parameterMark)
    (taken : IsTaken name rest) (plain : name.head? ≠ some '%') :
    declaredEntity? (mark ++ (name ++ rest)) = some (name, rest) := by
  have takes := takeEntityName?_eq_some_iff.mpr ⟨rfl, taken⟩
  rcases taken.exists_first with ⟨first, others, rfl, own⟩
  unfold declaredEntity?
  rcases mem_marked_iff.mp marks with rfl | ⟨gap, blank, rfl⟩
  · rw [List.nil_append, takes]
    split
    next percent =>
      rw [List.cons_append, List.cons.injEq] at percent
      exact absurd (congrArg some percent.1) plain
    next => rfl
  · have blanks :
        afterBlanks? (gap ++ (first :: others ++ rest)) = some (first :: others ++ rest) :=
      afterBlanks?_eq_some_iff.mpr ⟨gap, blank, rfl, by
        rintro _ ⟨⟩
        exact not_isBlank_of_isEntityNameCharacter own⟩
    change ((afterBlanks? (gap ++ (first :: others ++ rest))).bind takeEntityName?).or _ = _
    rw [blanks, Option.bind_some, takes]
    rfl

private theorem exists_mark_of_declaredEntity?
    (found : declaredEntity? characters = some (name, rest)) :
    ∃ mark ∈ parameterMark, characters = mark ++ (name ++ rest) ∧ IsTaken name rest := by
  unfold declaredEntity? at found
  rcases Option.or_eq_some_iff.mp found with parameter | ⟨-, plain⟩
  · split at parameter
    next following =>
      rcases Option.bind_eq_some_iff.mp parameter with ⟨named, blanks, takes⟩
      rcases afterBlanks?_eq_some_iff.mp blanks with ⟨gap, blank, rfl, -⟩
      rcases takeEntityName?_eq_some_iff.mp takes with ⟨rfl, taken⟩
      exact ⟨_, mem_marked_iff.mpr (.inr ⟨gap, blank, rfl⟩), rfl, taken⟩
    next => cases parameter
  · rcases takeEntityName?_eq_some_iff.mp plain with ⟨rfl, taken⟩
    exact ⟨[], mem_marked_iff.mpr (.inl rfl), rfl, taken⟩

/-! ## Reading declarations -/

private def takeEntity? (characters : List Char) : Option (List Char × List Char) :=
  (afterEntityKeyword? characters).bind declaredEntity?

private theorem entityNames_cons_of_none {character : Char}
    (none : takeEntity? (character :: rest) = none) :
    entityNames (character :: rest) = entityNames rest := by
  rw [entityNames]
  split
  next => rfl
  next named keyword =>
    rw [takeEntity?, keyword, Option.bind_some] at none
    rw [none]

private theorem entityNames_of_takeEntity? (takes : takeEntity? characters = some (name, rest)) :
    entityNames characters = String.ofList name :: entityNames rest := by
  rcases Option.bind_eq_some_iff.mp takes with ⟨named, keyword, declared⟩
  cases characters with
  | nil => cases keyword
  | cons first others =>
      rw [entityNames, keyword]
      dsimp only
      rw [declared]

private theorem afterEntityKeyword?_opening {first : Char} (opens : opening ∈ entityOpening)
    (own : isEntityNameCharacter first = true) (rest : List Char) :
    ∃ mark ∈ parameterMark,
      afterEntityKeyword? (opening ++ first :: rest) = some (mark ++ first :: rest) := by
  rcases mem_entityOpening_iff.mp opens with ⟨gap, blank, mark, marks, rfl⟩
  refine ⟨mark, marks, afterEntityKeyword?_eq_some_iff.mpr ⟨gap, blank, by simp, ?_⟩⟩
  rcases mem_marked_iff.mp marks with rfl | ⟨_, -, rfl⟩
  · rintro _ ⟨⟩
    exact not_isBlank_of_isEntityNameCharacter own
  · rintro _ ⟨⟩
    decide

private theorem takeEntity?_opening (opens : opening ∈ entityOpening) (taken : IsTaken name rest)
    (plain : name.head? ≠ some '%') :
    takeEntity? (opening ++ (name ++ rest)) = some (name, rest) := by
  rcases taken.exists_first with ⟨first, others, rfl, own⟩
  rcases afterEntityKeyword?_opening opens own (others ++ rest) with ⟨mark, marks, keyword⟩
  exact Option.bind_eq_some_iff.mpr ⟨_, keyword, declaredEntity?_marked marks taken plain⟩

private theorem takeEntity?_ne_none {first : Char} (opens : opening ∈ entityOpening)
    (own : isEntityNameCharacter first = true) (rest : List Char) :
    takeEntity? (opening ++ first :: rest) ≠ none := by
  have named {first : Char} {rest : List Char} (own : isEntityNameCharacter first = true) :
      declaredEntity? (first :: rest) ≠ none := by
    have begun : (first :: rest).takeWhile isEntityNameCharacter ≠ [] := by
      rw [List.takeWhile_cons_of_pos own]
      exact List.cons_ne_nil _ _
    have takes := takeEntityName?_eq_some_iff.mpr ⟨List.takeWhile_append_dropWhile.symm,
      mem_someOf_iff.mpr ⟨begun, fun _ => List.mem_takeWhile_imp⟩, head?_dropWhile⟩
    unfold declaredEntity?
    rw [takes, ne_eq, Option.or_eq_none_iff]
    exact fun none => nomatch none.2
  rcases afterEntityKeyword?_opening opens own rest with ⟨mark, marks, keyword⟩
  rw [takeEntity?, keyword, Option.bind_some]
  rcases mem_marked_iff.mp marks with rfl | ⟨gap, -, rfl⟩
  · exact named own
  · exact named (by decide)

private theorem exists_opening_of_takeEntity? (takes : takeEntity? characters = some (name, rest)) :
    ∃ opening ∈ entityOpening, characters = opening ++ (name ++ rest) ∧ IsTaken name rest := by
  rcases Option.bind_eq_some_iff.mp takes with ⟨named, keyword, declared⟩
  rcases afterEntityKeyword?_eq_some_iff.mp keyword with ⟨gap, blank, rfl, -⟩
  rcases exists_mark_of_declaredEntity? declared with ⟨mark, marks, rfl, taken⟩
  refine ⟨_, mem_entityOpening_iff.mpr ⟨gap, blank, mark, marks, rfl⟩, ?_, taken⟩
  simp only [List.append_assoc]

/-! ## Document types -/

private theorem opening_begins (opens : opening ∈ entityOpening) :
    ∃ inside, opening = '<' :: inside ∧ '<' ∉ inside ∧ '>' ∉ inside := by
  rcases mem_entityOpening_iff.mp opens with ⟨gap, blank, mark, marks, rfl⟩
  have keyword : "<!ENTITY".toList = '<' :: "!ENTITY".toList := rfl
  have outside {bracket : Char} (word : bracket ∉ "!ENTITY%".toList)
      (none : isBlank bracket = false) : bracket ∉ "!ENTITY".toList ++ (gap ++ mark) := by
    have notBlank {gap : List Char} (blank : gap ∈ someOf isBlank) : bracket ∉ gap := fun member =>
      Bool.noConfusion (((mem_someOf_iff.mp blank).2 bracket member).symm.trans none)
    have parts : "!ENTITY%".toList = "!ENTITY".toList ++ ['%'] := rfl
    rw [parts, List.mem_append, not_or] at word
    rw [List.mem_append, List.mem_append]
    rintro (inKeyword | inGap | inMark)
    · exact word.1 inKeyword
    · exact notBlank blank inGap
    · rcases mem_marked_iff.mp marks with rfl | ⟨gap, blank, rfl⟩
      · cases inMark
      · rcases List.mem_cons.mp inMark with rfl | inGap
        · exact word.2 List.mem_cons_self
        · exact notBlank blank inGap
  rw [keyword]
  exact ⟨_, List.cons_append, outside (by decide) (by decide), outside (by decide) (by decide)⟩

private theorem BreaksOff.append (breaks : BreaksOff characters) (before : List Char) :
    BreaksOff (before ++ characters) := by
  rcases breaks with ⟨further, opening, opens, begun, own, rfl⟩
  exact ⟨before ++ further, opening, opens, begun, own, (List.append_assoc _ _ _).symm⟩

private theorem not_breaksOff_of_closed {closed gap : List Char}
    (closes : ∀ last ∈ closed.getLast?, last = '>') (apart : '<' ∉ gap) :
    ¬BreaksOff (closed ++ gap) := by
  rintro ⟨before, opening, opens, begun, own, same⟩
  rcases opening_begins opens with ⟨inside, rfl, -, unclosed⟩
  rcases List.append_eq_append_iff.mp same with ⟨others, rfl, rest⟩ | ⟨others, rfl, rest⟩
  · refine absurd ?_ apart
    simp [rest]
  · rcases List.eq_nil_or_concat others with rfl | ⟨others, last, rfl⟩
    · refine absurd ?_ apart
      rw [List.nil_append] at rest
      simp [← rest]
    · -- The last bracket before the gap would be part of what introduces a name, or of the name.
      have closing : last = '>' := closes last (by simp)
      have member : '>' ∈ '<' :: inside ++ begun := by
        rw [rest, closing]
        simp
      rcases List.mem_append.mp member with inOpening | inBegun
      · exact unclosed ((List.mem_cons.mp inOpening).resolve_left (by decide))
      · exact absurd (mem_kstar_oneOf_iff.mp own '>' inBegun) (by decide)

private theorem exists_between {back following : List Char} (opens : opening ∈ entityOpening)
    (own : name ∈ someOf isEntityNameCharacter) (begun : before ≠ []) (whole : ¬BreaksOff before)
    (same : before ++ '<' :: back = opening ++ (name ++ following)) :
    ∃ between, before = opening ++ (name ++ between) ∧ following = between ++ '<' :: back := by
  rcases opening_begins opens with ⟨inside, begins, apart, -⟩
  have within {begun further : List Char} (cut : name = begun ++ further)
      (front : before = opening ++ begun) : BreaksOff before := by
    refine ⟨[], opening, opens, begun, mem_kstar_oneOf_iff.mpr fun character member => ?_, front⟩
    exact (mem_someOf_iff.mp own).2 character (cut ▸ List.mem_append_left _ member)
  rcases List.append_eq_append_iff.mp same with ⟨others, cut, rest⟩ | ⟨begun, cut, rest⟩
  · -- The keyword has one opening bracket, at its front.
    cases others with
    | nil => exact absurd (@within [] name rfl (by simpa using cut.symm)) whole
    | cons next others =>
        rw [List.cons_append, List.cons.injEq] at rest
        cases before with
        | nil => exact absurd rfl begun
        | cons first before =>
            rw [begins, List.cons_append, List.cons.injEq, ← rest.1] at cut
            refine absurd ?_ apart
            rw [cut.2]
            simp
  · rcases List.append_eq_append_iff.mp rest.symm with ⟨others, cut', rest⟩ | ⟨between, cut', rest⟩
    · exact absurd (within cut' cut) whole
    · exact ⟨between, by rw [cut, cut'], rest⟩

/-- A name is read unless one that begins before it is still being read there. -/
theorem WritesAfter.mem_entityNames (writes : WritesAfter before content name)
    (whole : ¬BreaksOff before) : String.ofList name ∈ entityNames content := by
  rcases writes with ⟨opening, opens, rest, rfl, taken, plain⟩
  have here := takeEntity?_opening opens taken plain
  rcases opening_begins opens with ⟨inside, begins, apart, -⟩
  induction size : before.length using Nat.strong_induction_on generalizing before with
  | _ size induction =>
      cases before with
      | nil =>
          rw [List.nil_append, entityNames_of_takeEntity? here]
          exact List.mem_cons_self
      | cons first before =>
          cases takes : takeEntity? (first :: before ++ (opening ++ (name ++ rest))) with
          | none =>
              rw [List.cons_append] at takes ⊢
              rw [entityNames_cons_of_none takes]
              refine induction before.length ?_ (fun breaks => whole (breaks.append [first])) rfl
              exact size ▸ Nat.lt_succ_self _
          | some found =>
              rcases found with ⟨other, following⟩
              rw [entityNames_of_takeEntity? takes]
              refine List.mem_cons_of_mem _ ?_
              rcases exists_opening_of_takeEntity? takes
                with ⟨another, opensAnother, same, takenOther⟩
              have bracket : opening ++ (name ++ rest) = '<' :: (inside ++ (name ++ rest)) := by
                rw [begins, List.cons_append]
              rw [bracket] at same
              rcases exists_between opensAnother takenOther.own (List.cons_ne_nil _ _) whole same
                with ⟨between, cut, rfl⟩
              rw [← bracket]
              refine induction between.length ?_ (fun breaks => whole ?_) rfl
              · rcases opening_begins opensAnother with ⟨others, begins, -, -⟩
                rw [← size, cut, begins]
                simp only [List.length_append, List.length_cons]
                omega
              · rw [cut, ← List.append_assoc]
                exact breaks.append _

private theorem entityNames_ne_nil_iff : entityNames content ≠ [] ↔ HoldsEntity content := by
  constructor
  · intro some
    induction content with
    | nil => exact absurd (by rw [entityNames]) some
    | cons first content induction =>
        cases takes : takeEntity? (first :: content) with
        | none =>
            rw [entityNames_cons_of_none takes] at some
            rcases induction some with ⟨before, opening, opens, next, rest, rfl, own⟩
            exact ⟨first :: before, opening, opens, next, rest, rfl, own⟩
        | some found =>
            rcases found with ⟨name, rest⟩
            rcases exists_opening_of_takeEntity? takes with ⟨opening, opens, same, taken⟩
            rcases taken.exists_first with ⟨next, others, rfl, own⟩
            exact ⟨[], opening, opens, next, others ++ rest, same, own⟩
  · rintro ⟨before, opening, opens, first, rest, rfl, own⟩
    induction before with
    | nil =>
        rcases Option.ne_none_iff_exists'.mp (takeEntity?_ne_none opens own rest)
          with ⟨⟨name, following⟩, takes⟩
        rw [List.nil_append, entityNames_of_takeEntity? takes]
        exact List.cons_ne_nil _ _
    | cons next before induction =>
        cases takes : takeEntity? (next :: before ++ (opening ++ first :: rest)) with
        | none =>
            rw [List.cons_append] at takes ⊢
            rwa [entityNames_cons_of_none takes]
        | some found =>
            rw [entityNames_of_takeEntity? takes]
            exact List.cons_ne_nil _ _

theorem WritesEntity.holds (writes : WritesEntity content name) : HoldsEntity content := by
  rcases writes with ⟨before, opening, opens, rest, rfl, taken, -⟩
  rcases taken.exists_first with ⟨first, others, rfl, own⟩
  exact ⟨before, opening, opens, first, others ++ rest, rfl, own⟩

end

/-! ## What stands before the root element -/

def Event.docType? : Event → Option (List Char)
  | .docType content => some content
  | _ => none

/-- The contents of the document types before the root element, in the order of the text. -/
def docTypes (text : String) : List (List Char) :=
  (((transcribe text.toList).events.map Prod.fst).takeWhile Prolog.precedesRoot).filterMap
    Event.docType?

private theorem Prolog.entities_foldl (events : List Event) (prolog : Prolog) :
    (events.foldl afterEvent prolog).entities =
      (((events.filterMap Event.docType?).getLast?.map entityNames).getD prolog.entities) := by
  induction events generalizing prolog with
  | nil => rfl
  | cons event events induction =>
      rw [List.foldl_cons, induction]
      cases event with
      | docType content =>
          have own : Event.docType? (.docType content) = some content := rfl
          rw [List.filterMap_cons_some own, List.getLast?_cons]
          cases (events.filterMap Event.docType?).getLast? <;> rfl
      | _ => rfl

private theorem Prolog.scan_entities (text : String) :
    (scan text).entities = ((docTypes text).getLast?.map entityNames).getD [] :=
  entities_foldl _ _

theorem Prolog.mem_scan_entities_iff {text name : String} :
    name ∈ (scan text).entities ↔ ∃ last ∈ (docTypes text).getLast?, name ∈ entityNames last := by
  rw [scan_entities]
  cases (docTypes text).getLast? <;> simp

theorem Prolog.scan_entities_ne_nil_iff {text : String} :
    (scan text).entities ≠ [] ↔ ∃ last ∈ (docTypes text).getLast?, HoldsEntity last := by
  rw [scan_entities]
  simp only [← entityNames_ne_nil_iff]
  cases (docTypes text).getLast? <;> simp

theorem mem_iff_dropLast_or_getLast? {types : List (List Char)} {content : List Char} :
    content ∈ types ↔ content ∈ types.dropLast ∨ content ∈ types.getLast? := by
  rcases List.eq_nil_or_concat types with rfl | ⟨others, last, rfl⟩
  · simp
  · simp [eq_comm]

/-- Whatever counts as a declaration: the names that the document types declare are known if and
only if those before the last one declare known names, and the last one declares no other name
only where yet another one is being read. -/
theorem Prolog.scan_knows_names_iff (Declares : List Char → List Char → Prop) (text : String) :
    (∀ content ∈ docTypes text, ∀ name, Declares content name →
        String.ofList name ∈ (scan text).entities) ↔
      (∀ content ∈ (docTypes text).dropLast, ∀ name, Declares content name →
        String.ofList name ∈ (scan text).entities) ∧
      ∀ last ∈ (docTypes text).getLast?, ∀ name, Declares last name →
        (∀ before, WritesAfter before last name → BreaksOff before) →
        String.ofList name ∈ (scan text).entities := by
  constructor
  · intro all
    exact ⟨fun content member => all content (mem_iff_dropLast_or_getLast?.mpr (.inl member)),
      fun last member name declares _ =>
        all last (mem_iff_dropLast_or_getLast?.mpr (.inr member)) name declares⟩
  · rintro ⟨earlier, within⟩ content member name declares
    rcases mem_iff_dropLast_or_getLast?.mp member with before | last
    · exact earlier content before name declares
    · by_cases broken : ∀ before, WritesAfter before content name → BreaksOff before
      · exact within content last name declares broken
      · push Not at broken
        rcases broken with ⟨before, writes, whole⟩
        exact mem_scan_entities_iff.mpr ⟨content, last, writes.mem_entityNames whole⟩

end TimedText.Markup

namespace TimedText.Check

open Markup Text

/-! ## The structure of a document -/

def readable (bytes : Bytes) : String := String.ofList (Utf8.decodeLossy bytes)

def entityFinding : Finding :=
  .fail .xmlEntityDecl "XML Document Type"
    "XML Entity declaration found - these are not permitted"

def DeclaresNoOther (declared : Option Declaration) : Prop :=
  ∀ declaration ∈ declared, ∀ encoding ∈ declaration.encoding,
    encoding.toList.map Char.toUpper = "UTF-8".toList

section

variable {bytes : Bytes}

private theorem checkDeclaration_valid_iff (declared : Option Declaration) :
    (checkDeclaration declared).valid = true ↔ DeclaresNoOther declared := by
  rcases declared with - | ⟨version, - | encoding⟩
  · exact iff_of_true rfl nofun
  · refine iff_of_true rfl ?_
    rintro _ ⟨⟩
    exact nofun
  · rw [checkDeclaration]
    split
    next own =>
      refine iff_of_true rfl ?_
      rintro _ ⟨⟩ _ ⟨⟩
      exact own
    next other => exact iff_of_false Bool.false_ne_true fun declares => other (declares _ rfl _ rfl)

private theorem checkEntities_valid_iff (entities : List String) :
    (checkEntities entities).valid = true ↔ entities = [] := by
  rw [checkEntities]
  split
  next none => exact iff_of_true rfl (List.isEmpty_iff.mp none)
  next some => exact iff_of_false Bool.false_ne_true fun none => some (List.isEmpty_iff.mpr none)

private theorem entityFinding_mem_checkEntities_iff (entities : List String) :
    entityFinding ∈ (checkEntities entities).findings ↔ entities ≠ [] := by
  rw [checkEntities]
  split
  next none =>
    refine iff_of_false (fun member => ?_) (not_not.mpr (List.isEmpty_iff.mp none))
    cases List.mem_singleton.mp member
  next some =>
    exact iff_of_true (List.mem_singleton_self _) fun none => some (List.isEmpty_iff.mpr none)

theorem entityFinding_mem_checkStructure_iff (bytes : Bytes) :
    entityFinding ∈ (checkStructure bytes).findings ↔
      (Prolog.scan (readable bytes)).entities ≠ [] := by
  rw [← entityFinding_mem_checkEntities_iff]
  refine ⟨fun member => ?_, List.mem_append_right _⟩
  rcases List.mem_append.mp member with before | own
  · rcases List.mem_append.mp before with inText | inDeclaration
    · split at inText
      next => cases inText
      next => cases List.mem_singleton.mp inText
    · unfold checkDeclaration at inDeclaration
      split at inDeclaration
      next => cases List.mem_singleton.mp inDeclaration
      next => cases List.mem_singleton.mp inDeclaration
      next =>
        split at inDeclaration
        next => cases List.mem_singleton.mp inDeclaration
        next => cases List.mem_singleton.mp inDeclaration
  · exact own

private theorem checkStructure_of_read {document : Document}
    (accepted : Document.read (readable bytes) = .ok document) :
    (checkStructure bytes).result = .ok
      ((checkDeclaration (Prolog.scan (readable bytes)).declaration).valid
        && (checkEntities (Prolog.scan (readable bytes)).entities).valid, bytes) := by
  rw [readable] at accepted
  rw [checkStructure, accepted]
  rfl

theorem checkStructure_passes_iff {document : Document}
    (accepted : Document.read (readable bytes) = .ok document) :
    (checkStructure bytes).result ≠ .ok (false, bytes) ↔
      DeclaresNoOther (Prolog.scan (readable bytes)).declaration ∧
        ¬∃ last ∈ (docTypes (readable bytes)).getLast?, HoldsEntity last := by
  rw [checkStructure_of_read accepted, ← checkDeclaration_valid_iff,
    ← Prolog.scan_entities_ne_nil_iff, not_not, ← checkEntities_valid_iff]
  generalize (checkDeclaration _).valid = declares
  generalize (checkEntities _).valid = entities
  cases declares <;> cases entities <;> simp

end

/-- The scan knows the names that it finds in the last document type, and in each document type it
finds those that are declared, unless another name is still being read there. It follows when all
declared names are known, whatever counts as a declaration of those that are written like one. And
of an accepted document the check overlooks that entities are declared if and only if nothing else
is wrong, the last document type holds no declaration, and one before it declares an entity. -/
theorem checkStructure_forbids_entities_iff (bytes : Bytes)
    (Declares : List Char → List Char → Prop)
    (written : ∀ content name, Declares content name → WritesEntity content name) :
    (∀ name, name ∈ (Prolog.scan (readable bytes)).entities ↔
      ∃ last ∈ (docTypes (readable bytes)).getLast?, name ∈ entityNames last) ∧
    (∀ content before name, WritesAfter before content name → ¬BreaksOff before →
      String.ofList name ∈ entityNames content) ∧
    ((∀ content ∈ docTypes (readable bytes), ∀ name, Declares content name →
        String.ofList name ∈ (Prolog.scan (readable bytes)).entities) ↔
      (∀ content ∈ (docTypes (readable bytes)).dropLast, ∀ name, Declares content name →
        String.ofList name ∈ (Prolog.scan (readable bytes)).entities) ∧
      ∀ last ∈ (docTypes (readable bytes)).getLast?, ∀ name, Declares last name →
        (∀ before, WritesAfter before last name → BreaksOff before) →
        String.ofList name ∈ (Prolog.scan (readable bytes)).entities) ∧
    (entityFinding ∈ (checkStructure bytes).findings ↔
      ∃ last ∈ (docTypes (readable bytes)).getLast?, HoldsEntity last) ∧
    ∀ document, Document.read (readable bytes) = .ok document →
      (((∃ content ∈ docTypes (readable bytes), ∃ name, Declares content name) →
          (checkStructure bytes).result = .ok (false, bytes)) ↔
        ¬(DeclaresNoOther (Prolog.scan (readable bytes)).declaration ∧
          (¬∃ last ∈ (docTypes (readable bytes)).getLast?, HoldsEntity last) ∧
          ∃ content ∈ (docTypes (readable bytes)).dropLast, ∃ name, Declares content name)) := by
  refine ⟨fun name => Prolog.mem_scan_entities_iff,
    fun content before name writes whole => writes.mem_entityNames whole,
    Prolog.scan_knows_names_iff Declares _,
    (entityFinding_mem_checkStructure_iff bytes).trans Prolog.scan_entities_ne_nil_iff,
    fun document accepted => ?_⟩
  have passes := checkStructure_passes_iff accepted
  constructor
  · rintro fails ⟨declares, none, content, earlier, name, declared⟩
    refine passes.mpr ⟨declares, none⟩ (fails ⟨content, ?_, name, declared⟩)
    exact mem_iff_dropLast_or_getLast?.mpr (.inl earlier)
  · rintro known ⟨content, member, name, declared⟩
    by_contra overlooked
    rcases passes.mp overlooked with ⟨declares, none⟩
    refine known ⟨declares, none, content, ?_, name, declared⟩
    refine (mem_iff_dropLast_or_getLast?.mp member).resolve_right fun last => ?_
    exact none ⟨content, last, (written content name declared).holds⟩

/-- A second document type makes the check forget the entity that the first one declares. -/
def twiceTyped : String := "<!DOCTYPE tt [<!ENTITY e \"x\">]><!DOCTYPE tt><tt/>"

private theorem writesAfter_twiceTyped :
    WritesAfter "tt [".toList "tt [<!ENTITY e \"x\">]".toList ['e'] := by
  have blank : [' '] ∈ someOf isBlank :=
    mem_someOf_iff.mpr ⟨List.cons_ne_nil _ _, List.forall_mem_singleton.mpr rfl⟩
  have own : ['e'] ∈ someOf isEntityNameCharacter :=
    mem_someOf_iff.mpr ⟨List.cons_ne_nil _ _, List.forall_mem_singleton.mpr rfl⟩
  refine ⟨"<!ENTITY ".toList, mem_entityOpening_iff.mpr
    ⟨[' '], blank, [], mem_marked_iff.mpr (.inl rfl), rfl⟩, " \"x\">]".toList, rfl,
    ⟨own, ?_⟩, by decide⟩
  rintro _ ⟨⟩
  decide

theorem checkStructure_forbids_entities_iff_twice :
    ∃ document, Document.read twiceTyped = .ok document ∧
      (∃ content ∈ docTypes twiceTyped, ∃ before, WritesAfter before content ['e'] ∧
        ¬BreaksOff before ∧ String.ofList ['e'] ∈ entityNames content) ∧
      (Prolog.scan twiceTyped).entities = [] ∧
      (checkStructure (Utf8.encode twiceTyped.toList)).result
        ≠ .ok (false, Utf8.encode twiceTyped.toList) := by
  have read : readable (Utf8.encode twiceTyped.toList) = twiceTyped := by
    rw [readable, Utf8.decodeLossy_encode, String.ofList_toList]
  have types : docTypes twiceTyped = ["tt [<!ENTITY e \"x\">]".toList, "tt".toList] := by
    decide +kernel
  have entities : (Prolog.scan twiceTyped).entities = [] := by decide +kernel
  have undeclared : (Prolog.scan twiceTyped).declaration = none := by decide +kernel
  have accepted : (Document.read twiceTyped).isOk = true := by decide +kernel
  have whole : ¬BreaksOff ([] ++ "tt [".toList) := not_breaksOff_of_closed nofun (by decide)
  have none : ¬∃ last ∈ (docTypes twiceTyped).getLast?, HoldsEntity last :=
    fun holds => Prolog.scan_entities_ne_nil_iff.mpr holds entities
  have earlier : "tt [<!ENTITY e \"x\">]".toList ∈ (docTypes twiceTyped).dropLast := by
    rw [types]
    exact List.mem_singleton_self _
  rcases checkStructure_forbids_entities_iff (Utf8.encode twiceTyped.toList) WritesEntity
    fun _ _ => id with ⟨-, found, -, -, exact⟩
  rw [read, undeclared] at exact
  cases reads : Document.read twiceTyped with
  | error error =>
      rw [reads] at accepted
      cases accepted
  | ok document =>
      refine ⟨document, rfl, ⟨_, mem_iff_dropLast_or_getLast?.mpr (.inl earlier), _,
        writesAfter_twiceTyped, whole, found _ _ _ writesAfter_twiceTyped whole⟩, entities,
        fun fails => ?_⟩
      exact (exact document reads).mp (fun _ => fails)
        ⟨nofun, none, _, earlier, _, _, writesAfter_twiceTyped⟩

end TimedText.Check
