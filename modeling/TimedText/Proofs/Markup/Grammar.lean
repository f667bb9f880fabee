import TimedText.Markup.Attribute
import TimedText.Proofs.Text.Cut
/-!
The attributes of a tag as a grammar: blanks, a key, an equals sign between blanks and a
value in quotes, over and over. What is read without a flaw are the texts of the grammar
in which no key comes twice, and it is read as they spell it.
-/

namespace TimedText.Markup

/-! ## Keys and values -/

def AllSpace (blanks : List Char) : Prop :=
  ∀ character ∈ blanks, isSpace character = true

def isQuote (character : Char) : Bool :=
  character == '"' || character == '\x27'

def isKeyCharacter (character : Char) : Bool :=
  character != '=' && !isSpace character

/-- A key. Its first character may be an equals sign. -/
inductive IsKey : List Char → Prop
  | intro {first : Char} {rest : List Char} (starts : isSpace first = false)
      (goesOn : ∀ character ∈ rest, isKeyCharacter character = true) : IsKey (first :: rest)

inductive Assigns (value : List Char) : List Char → Prop
  | intro {before after : List Char} {quote : Char} (blankBefore : AllSpace before)
      (blankAfter : AllSpace after) (quotes : isQuote quote = true) (inside : quote ∉ value) :
      Assigns value (before ++ '=' :: (after ++ quote :: (value ++ [quote])))

/-- What attributes are spelled, with the blanks before and after them. -/
inductive Spells : List Attribute → List Char → Prop
  | done {blanks : List Char} (blank : AllSpace blanks) : Spells [] blanks
  | more {key value blanks assignment rest : List Char} {others : List Attribute}
      (blank : AllSpace blanks) (isKey : IsKey key) (assigns : Assigns value assignment)
      (following : Spells others rest) :
      Spells (⟨key, value⟩ :: others) (blanks ++ (key ++ (assignment ++ rest)))

theorem eq_of_isQuote {quote : Char} (quotes : isQuote quote = true) :
    quote = '"' ∨ quote = '\x27' :=
  (Bool.or_eq_true_iff.mp quotes).imp beq_iff_eq.mp beq_iff_eq.mp

private theorem isSpace_quote {quote : Char} (quotes : isQuote quote = true) :
    isSpace quote = false := by
  rcases eq_of_isQuote quotes with rfl | rfl <;> decide

private theorem Assigns.head_not_key {value assignment : List Char}
    (assigns : Assigns value assignment) (rest : List Char) :
    ∀ character ∈ (assignment ++ rest).head?, isKeyCharacter character = false := by
  rcases assigns with @⟨before, after, quote, blankBefore, _, _, _⟩
  cases before with
  | nil =>
      rintro _ ⟨⟩
      decide
  | cons blank before =>
      rintro _ ⟨⟩
      simp [isKeyCharacter, blankBefore blank List.mem_cons_self]

/-! ## Reading one attribute -/

section

variable {place : List Char → Nat} {characters value rest : List Char} {first : Char}

private theorem takeKey_append {key : List Char} (isKey : IsKey (first :: key))
    (stops : ∀ character ∈ rest.head?, isKeyCharacter character = false) :
    takeKey first (key ++ rest) = (first :: key, rest) := by
  rcases isKey with ⟨_, goesOn⟩
  rw [takeKey, Prod.mk.injEq]
  exact ⟨congrArg (first :: ·) (Text.takeWhile_append_stop goesOn stops),
    Text.dropWhile_append_stop goesOn stops⟩

private theorem isKey_takeKey (starts : isSpace first = false) (rest : List Char) :
    IsKey (takeKey first rest).1 :=
  .intro starts fun _ => List.mem_takeWhile_imp

private theorem takeKey_parts (first : Char) (rest : List Char) :
    first :: rest = (takeKey first rest).1 ++ (takeKey first rest).2 :=
  congrArg (first :: ·) List.takeWhile_append_dropWhile.symm

private theorem afterEquals_eq_ok_iff :
    afterEquals place characters = .ok rest ↔
      ∃ blanks, AllSpace blanks ∧ characters = blanks ++ '=' :: rest := by
  have split : characters.dropWhile isSpace = '=' :: rest ↔
      ∃ blanks, AllSpace blanks ∧ characters = blanks ++ '=' :: rest :=
    Text.dropWhile_eq_cons_iff.trans (and_iff_right (by decide))
  rw [← split, afterEquals]
  constructor
  · intro found
    split at found
    next left =>
      cases found
      exact left
    next => cases found
  · intro left
    rw [left]
    rfl

private theorem takeValue_eq_ok_iff :
    takeValue place characters = .ok (value, rest) ↔
      ∃ blanks quote, AllSpace blanks ∧ isQuote quote = true ∧ quote ∉ value ∧
        characters = blanks ++ quote :: (value ++ quote :: rest) := by
  rw [takeValue]
  constructor
  · intro found
    split at found
    next => cases found
    next quote quoted left =>
      split at found
      next quotes =>
        split at found
        next => cases found
        next closing after ended =>
          cases found
          rcases Text.dropWhile_eq_cons_iff.mp left with ⟨_, blanks, blank, rfl⟩
          have parts : quoted.takeWhile (· != quote) ++ closing :: rest = quoted := by
            rw [← ended]
            exact List.takeWhile_append_dropWhile
          have closes := Text.head?_dropWhile closing (by rw [ended]; rfl)
          have same : closing = quote := by simpa using closes
          subst same
          refine ⟨blanks, closing, blank, quotes, ?_, by rw [parts]⟩
          intro inside
          simpa using List.mem_takeWhile_imp inside
      next => cases found
  · rintro ⟨blanks, quote, blank, quotes, inside, rfl⟩
    have left : (blanks ++ quote :: (value ++ quote :: rest)).dropWhile isSpace
        = quote :: (value ++ quote :: rest) :=
      Text.dropWhile_eq_cons_iff.mpr ⟨isSpace_quote quotes, blanks, blank, rfl⟩
    have all : ∀ character ∈ value, (character != quote) = true := by
      intro character member
      exact bne_iff_ne.mpr fun same => inside (same ▸ member)
    have stops : ∀ character ∈ (quote :: rest).head?, (character != quote) = false := by
      rintro _ ⟨⟩
      exact bne_self_eq_false quote
    rw [left]
    change (if isQuote quote = true then _ else _) = _
    rw [if_pos quotes, Text.dropWhile_append_stop all stops,
      Text.takeWhile_append_stop all stops]

theorem exists_assigns_iff :
    (∃ assignment, Assigns value assignment ∧ characters = assignment ++ rest) ↔
      ∃ assigned, afterEquals place characters = .ok assigned ∧
        takeValue place assigned = .ok (value, rest) := by
  constructor
  · rintro ⟨_, @⟨before, after, quote, blankBefore, blankAfter, quotes, inside⟩, rfl⟩
    refine ⟨after ++ quote :: (value ++ quote :: rest), ?_, ?_⟩
    · exact afterEquals_eq_ok_iff.mpr ⟨before, blankBefore, by simp⟩
    · exact takeValue_eq_ok_iff.mpr ⟨after, quote, blankAfter, quotes, inside, rfl⟩
  · rintro ⟨assigned, equals, valued⟩
    rcases afterEquals_eq_ok_iff.mp equals with ⟨before, blankBefore, rfl⟩
    rcases takeValue_eq_ok_iff.mp valued with
      ⟨after, quote, blankAfter, quotes, inside, rfl⟩
    exact ⟨_, .intro blankBefore blankAfter quotes inside, by simp⟩

end

/-! ## Reading all attributes -/

section

variable {place : List Char → Nat} {earlier : List (List Char × Nat)}

private theorem attributesFrom_of_blank {distinct : Bool} {blanks : List Char}
    (blank : AllSpace blanks) : attributesFrom distinct place earlier blanks = ⟨[], none⟩ := by
  have none : blanks.dropWhile isSpace = [] := List.dropWhile_eq_nil_iff.mpr blank
  rw [attributesFrom]
  split
  · rfl
  next left =>
    rw [none] at left
    cases left

private theorem attributesFrom_of_attribute {distinct : Bool}
    {key value blanks assignment : List Char}
    (blank : AllSpace blanks) (isKey : IsKey key) (assigns : Assigns value assignment)
    (fresh : key ∉ earlier.map Prod.fst) (rest : List Char) :
    ∃ start,
      attributesFrom distinct place earlier (blanks ++ (key ++ (assignment ++ rest))) =
        ⟨⟨key, value⟩ :: (attributesFrom distinct place ((key, start) :: earlier) rest).read,
          (attributesFrom distinct place ((key, start) :: earlier) rest).flaw⟩ := by
  rcases exists_assigns_iff.mp ⟨assignment, assigns, rfl⟩ with ⟨assigned, equals, valued⟩
  rcases isKey with @⟨first, others, starts, goesOn⟩
  have keyed := takeKey_append (.intro starts goesOn) (assigns.head_not_key rest)
  have left : (blanks ++ (first :: others ++ (assignment ++ rest))).dropWhile isSpace
      = first :: (others ++ (assignment ++ rest)) :=
    Text.dropWhile_eq_cons_iff.mpr ⟨starts, blanks, blank, rfl⟩
  have unmet : earlier.find? (fun previous => distinct && previous.1 == first :: others)
      = none := by
    rw [List.find?_eq_none]
    intro previous member same
    have isKey : previous.1 = first :: others := beq_iff_eq.mp (Bool.and_eq_true_iff.mp same).2
    exact fresh (List.mem_map.mpr ⟨previous, member, isKey⟩)
  refine ⟨place (first :: (others ++ (assignment ++ rest))), ?_⟩
  rw [attributesFrom]
  split
  next none =>
    rw [left] at none
    cases none
  next some =>
    rw [left] at some
    cases some
    split
    next flawed =>
      rw [keyed, equals] at flawed
      cases flawed
    next found =>
      rw [keyed, equals] at found
      cases found
      rw [keyed]
      dsimp only
      rw [unmet]
      dsimp only
      split
      next flawed =>
        rw [valued] at flawed
        cases flawed
      next taken =>
        rw [valued] at taken
        cases taken
        rfl

theorem Spells.reads {distinct : Bool} {attributes : List Attribute} {characters : List Char}
    (spells : Spells attributes characters)
    (differ : (earlier.map Prod.fst ++ attributes.map Attribute.key).Nodup) :
    attributesFrom distinct place earlier characters = ⟨attributes, none⟩ := by
  induction spells generalizing earlier with
  | done blank => exact attributesFrom_of_blank blank
  | @more key value blanks assignment rest others blank isKey assigns following induction =>
      have apart := (List.perm_middle.nodup_iff).mp differ
      have fresh : key ∉ earlier.map Prod.fst := fun member =>
        (List.nodup_cons.mp apart).1 (List.mem_append_left _ member)
      rcases attributesFrom_of_attribute blank isKey assigns fresh rest with ⟨start, reads⟩
      have others : attributesFrom distinct place ((key, start) :: earlier) rest
          = ⟨others, none⟩ := induction apart
      rw [reads, others]

private theorem spells_of_reads {attributes : List Attribute} {characters : List Char}
    (reads : attributesFrom true place earlier characters = ⟨attributes, none⟩) :
    Spells attributes characters ∧ (attributes.map Attribute.key).Nodup ∧
      ∀ key ∈ attributes.map Attribute.key, key ∉ earlier.map Prod.fst := by
  fun_induction attributesFrom true place earlier characters generalizing attributes with
  | case1 earlier characters left =>
      cases reads
      exact ⟨.done (List.dropWhile_eq_nil_iff.mp left), List.nodup_nil, nofun⟩
  | case2 => cases reads
  | case3 => cases reads
  | case4 => cases reads
  | case5 earlier characters first rest left key assigned equals unmet value after valued
      following =>
      rename_i induction
      cases attributes with
      | nil => cases reads
      | cons own others =>
          simp only [Attributes.mk.injEq, List.cons.injEq] at reads
          rcases reads with ⟨⟨rfl, read⟩, sound⟩
          have same : following = ⟨others, none⟩ := by rw [← read, ← sound]
          rcases induction same with ⟨spells, distinct, apart⟩
          rcases Text.dropWhile_eq_cons_iff.mp left with ⟨starts, blanks, blank, rfl⟩
          rcases exists_assigns_iff.mpr ⟨assigned, equals, valued⟩ with
            ⟨assignment, assigns, parts⟩
          have fresh : key ∉ earlier.map Prod.fst := by
            intro member
            rcases List.mem_map.mp member with ⟨previous, met, same⟩
            have differs := List.find?_eq_none.mp unmet previous met
            exact differs (by simpa using same)
          refine ⟨?_, List.nodup_cons.mpr ⟨fun member => ?_, distinct⟩, ?_⟩
          · rw [takeKey_parts, parts]
            exact .more blank (isKey_takeKey starts rest) assigns spells
          · exact apart key member List.mem_cons_self
          · intro other member
            rcases List.mem_cons.mp member with rfl | member
            · exact fresh
            · exact fun met => apart other member (List.mem_cons_of_mem _ met)

/-- Without flaw are the texts of the grammar in which no key comes twice. -/
private theorem attributesFrom_eq_iff {attributes : List Attribute} {characters : List Char} :
    attributesFrom true place [] characters = ⟨attributes, none⟩ ↔
      Spells attributes characters ∧ (attributes.map Attribute.key).Nodup := by
  constructor
  · intro reads
    rcases spells_of_reads reads with ⟨spells, distinct, -⟩
    exact ⟨spells, distinct⟩
  · rintro ⟨spells, distinct⟩
    exact spells.reads distinct

end

/-! ## Tags -/

def afterName (tag : List Char) : List Char :=
  tag.dropWhile fun character => !isSpace character

theorem attributesOf_eq_iff {tag : List Char} {attributes : List Attribute} :
    attributesOf true tag = ⟨attributes, none⟩ ↔
      Spells attributes (afterName tag) ∧ (attributes.map Attribute.key).Nodup :=
  attributesFrom_eq_iff

theorem spells_tag {tag : List Char} (sound : (attributesOf true tag).flaw = none) :
    Spells (attributesOf true tag).read (afterName tag) ∧
      ((attributesOf true tag).read.map Attribute.key).Nodup := by
  apply attributesOf_eq_iff.mp
  rw [← sound]

end TimedText.Markup
