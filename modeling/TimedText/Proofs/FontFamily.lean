import TimedText.Proofs.FontFamily.Grammar
import TimedText.Proofs.Text.Words
import TimedText.Style.Property
/-!
Which families a text lists, and what the cut at every comma makes of them. A family in quotes
can have commas, and then it is cut into more than one.
-/

namespace TimedText.Style

open Text
open scoped Computability

/-! ## Lists -/

/-- Families one after the other, with a comma between two of them and blanks around it. -/
inductive Lists : List (List Char) → List Char → Prop where
  | one {name : List Char} (own : name ∈ family) : Lists [name] name
  | more {name gap lead rest : List Char} {names : List (List Char)} (own : name ∈ family)
      (before : gap ∈ blanks) (behind : lead ∈ blanks) (further : Lists names rest) :
      Lists (name :: names) (name ++ (gap ++ ',' :: (lead ++ rest)))

def IsQuoted (name : List Char) : Prop := name ∈ inQuotes '"' + inQuotes '\x27'

section

variable {names others : List (List Char)} {name gap text : List Char}

theorem Lists.all_families (lists : Lists names text) : ∀ name ∈ names, name ∈ family := by
  induction lists with
  | one own => exact List.forall_mem_singleton.mpr own
  | more own _ _ _ induction => exact List.forall_mem_cons.mpr ⟨own, induction⟩

private theorem Lists.mem_familyList (lists : Lists names text) : text ∈ familyList := by
  induction lists with
  | one own =>
      have alone : family ≤ familyList := le_mul_of_one_le_right' one_le_kstar
      exact alone own
  | more own before behind _ induction =>
      refine Language.append_mem_mul own (FamilyPlace.separator_mul_le ?_)
      refine Language.append_mem_mul before (cons_mem_oneOf_mul_iff.mpr ⟨rfl, ?_⟩)
      exact Language.append_mem_mul behind induction

private def afterFirst : Language Char :=
  {text | ∀ name ∈ family, ∃ names, Lists names (name ++ text)}

private theorem furtherFamilies_le_afterFirst : furtherFamilies ≤ afterFirst := by
  have nothing : 1 ≤ afterFirst := by
    rintro _ rfl name own
    exact ⟨[name], (List.append_nil name).symm ▸ .one own⟩
  have again : comma * family * afterFirst ≤ afterFirst := by
    rw [comma, mul_assoc, mul_assoc, mul_assoc]
    rintro text ⟨gap, before, _, ⟨_, ⟨separator, same, rfl⟩, _,
      ⟨lead, behind, _, ⟨other, family, rest, further, rfl⟩, rfl⟩, rfl⟩, rfl⟩ name own
    rcases further other family with ⟨names, lists⟩
    cases beq_iff_eq.mp same
    have longer := Lists.more own before behind lists
    exact ⟨_, longer⟩
  exact kstar_le_of_mul_le_right nothing again

theorem mem_familyList_iff : text ∈ familyList ↔ ∃ names, Lists names text := by
  constructor
  · intro member
    rcases Language.mem_mul.mp member with ⟨name, own, text, further, rfl⟩
    exact furtherFamilies_le_afterFirst further name own
  · rintro ⟨names, lists⟩
    exact lists.mem_familyList

/-! ## Cut at every comma -/

/-- What stands between commas, without the blanks around it. -/
def betweenCommas (text : List Char) : List (List Char) := (text.splitOn ',').map trimmed

theorem families_eq_betweenCommas {text : String} :
    families text = (betweenCommas text.toList).map String.ofList := by
  simp only [families, split, pieces_eq_splitOn, betweenCommas, List.map_map]
  refine List.map_congr_left fun piece member => ?_
  simp [trim]

private theorem betweenCommas_append_cons (front back : List Char) :
    betweenCommas (front ++ ',' :: back) = betweenCommas front ++ betweenCommas back := by
  rw [betweenCommas, List.splitOn_append_cons_self, List.map_append, betweenCommas, betweenCommas]

private theorem betweenCommas_of_none (none : ',' ∉ text) :
    betweenCommas text = [trimmed text] := by
  rw [betweenCommas, List.splitOn_eq_singleton none, List.map_singleton]

private theorem length_betweenCommas (text : List Char) :
    (betweenCommas text).length = text.count ',' + 1 := by
  rw [betweenCommas, List.length_map, length_splitOn]

private theorem comma_not_mem_blanks (blank : gap ∈ blanks) : ',' ∉ gap := fun member =>
  absurd (mem_kstar_oneOf_iff.mp blank ',' member) (by decide)

private theorem betweenCommas_gap_append (blank : gap ∈ blanks) :
    betweenCommas (gap ++ text) = betweenCommas text := by
  have all := mem_kstar_oneOf_iff.mp blank
  have none := comma_not_mem_blanks blank
  by_cases comma : ',' ∈ text
  · rcases List.eq_append_cons_of_mem comma with ⟨front, back, rfl, first⟩
    rw [← List.append_assoc, betweenCommas_append_cons, betweenCommas_append_cons,
      betweenCommas_of_none first, betweenCommas_of_none (by simp [none, first]),
      trimmed_gap_append all]
  · rw [betweenCommas_of_none comma, betweenCommas_of_none (by simp [none, comma]),
      trimmed_gap_append all]

private theorem betweenCommas_append_gap (text : List Char) (blank : gap ∈ blanks) :
    betweenCommas (text ++ gap) = betweenCommas text := by
  by_cases comma : ',' ∈ text
  · rcases List.eq_append_cons_of_mem comma with ⟨front, back, same, _⟩
    have shorter : back.length < text.length := by
      rw [same, List.length_append, List.length_cons]
      omega
    rw [same, List.append_assoc, List.cons_append, betweenCommas_append_cons,
      betweenCommas_append_cons, betweenCommas_append_gap back blank]
  · have none := comma_not_mem_blanks blank
    rw [betweenCommas_of_none comma, betweenCommas_of_none (by simp [none, comma]),
      trimmed_append_gap (mem_kstar_oneOf_iff.mp blank)]
termination_by text.length

theorem Lists.betweenCommas_eq (lists : Lists names text) :
    betweenCommas text = names.flatMap betweenCommas := by
  induction lists with
  | one own => exact (List.flatMap_singleton ..).symm
  | more own before behind _ induction =>
      rw [← List.append_assoc, betweenCommas_append_cons, betweenCommas_append_gap _ before,
        betweenCommas_gap_append behind, induction, List.flatMap_cons]

theorem flatMap_betweenCommas_eq_iff :
    names.flatMap betweenCommas = names.map trimmed ↔ ∀ name ∈ names, ',' ∉ name := by
  constructor
  · intro same name member comma
    have lengths := congrArg List.length same
    simp only [List.length_flatMap, length_betweenCommas, List.length_map] at lengths
    have commas : (names.map (·.count ',')).sum = 0 := by
      simpa [List.sum_map_add] using lengths
    have own := List.sum_eq_zero_iff.mp commas _ (List.mem_map_of_mem member)
    exact List.count_eq_zero.mp own comma
  · intro none
    rw [List.map_eq_flatMap]
    exact List.flatMap_congr fun name member => betweenCommas_of_none (none name member)

/-! ## Cut outside of quotes -/

private inductive Quotation where
  | outside
  | inside (quote : Char)
  | escaped (quote : Char)

/-- What comes after a character, unless it is a comma outside of quotes. -/
private def Quotation.step : Quotation → Char → Option Quotation
  | .outside, character =>
    if character = ',' then none
    else if character = '"' ∨ character = '\x27' then some (.inside character)
    else some .outside
  | .inside quote, character =>
    if character = quote then some .outside
    else if character = '\x5c' then some (.escaped quote)
    else some (.inside quote)
  | .escaped quote, _ => some (.inside quote)

private def leads (first last : Quotation) : Language Char :=
  {text | text.foldlM Quotation.step first = some last}

private theorem mem_leads_iff {first last : Quotation} :
    text ∈ leads first last ↔ text.foldlM Quotation.step first = some last :=
  Iff.rfl

private theorem leads_mul_le {first next last : Quotation} :
    leads first next * leads next last ≤ leads first last := by
  rintro _ ⟨front, before, back, after, rfl⟩
  exact foldlM_append_eq_some_iff.mpr ⟨next, before, after⟩

private theorem kstar_leads_le {state : Quotation} {language : Language Char}
    (within : language ≤ leads state state) : language∗ ≤ leads state state := by
  have nothing : 1 ≤ leads state state := by
    rintro _ rfl
    rfl
  refine kstar_le_of_mul_le_right nothing ?_
  calc language * leads state state
    _ ≤ leads state state * leads state state := by gcongr
    _ ≤ leads state state := leads_mul_le

private theorem oneOf_le_leads {first last : Quotation} {holds : Char → Bool}
    (step : ∀ character, holds character = true → first.step character = some last) :
    oneOf holds ≤ leads first last := by
  rintro _ ⟨character, kind, rfl⟩
  refine mem_leads_iff.mpr ?_
  rw [List.foldlM_cons, step character kind]
  rfl

/-! ### Families and blanks -/

private def delimiters : List Char := [',', '"', '\x27']

private def plain : Language Char := (oneOf fun character => !delimiters.contains character)∗

private theorem oneOf_le_plain {holds : Char → Bool} (apart : delimiters.any holds = false) :
    oneOf holds ≤ plain := by
  refine le_trans ?_ le_kstar
  rintro _ ⟨character, kind, rfl⟩
  refine mem_oneOf_iff.mpr ⟨character, ?_, rfl⟩
  rw [Bool.not_eq_true', ← Bool.not_eq_true, List.contains_iff_mem]
  intro member
  exact List.any_eq_false.mp apart character member kind

private theorem kstar_le_plain {language : Language Char} (within : language ≤ plain) :
    language∗ ≤ plain :=
  le_of_le_of_eq (kstar_mono within) (kstar_idem _)

private theorem mul_le_plain {first second : Language Char} (before : first ≤ plain)
    (after : second ≤ plain) : first * second ≤ plain := by
  calc first * second
    _ ≤ plain * plain := by gcongr
    _ = plain := kstar_mul_kstar _

private theorem identifiers_le_plain : identifierWord * furtherIdentifiers ≤ plain := by
  have blank : oneOf isBlank ≤ plain := oneOf_le_plain rfl
  have hyphen : 1 + oneOf (· == '-') ≤ plain :=
    add_le one_le_kstar (oneOf_le_plain rfl)
  have word : identifierWord ≤ plain :=
    mul_le_plain hyphen (mul_le_plain (oneOf_le_plain rfl)
      (kstar_le_plain (oneOf_le_plain rfl)))
  exact mul_le_plain word
    (kstar_le_plain (mul_le_plain (mul_le_plain blank (kstar_le_plain blank)) word))

private theorem plain_le_leads : plain ≤ leads .outside .outside := by
  refine kstar_leads_le (oneOf_le_leads fun character kind => ?_)
  rw [Quotation.step]
  simp_all [delimiters]

private theorem blanks_le_leads : blanks ≤ leads .outside .outside :=
  le_trans (kstar_le_plain (oneOf_le_plain rfl)) plain_le_leads

private theorem inQuotes_le_leads {quote : Char} (either : quote = '"' ∨ quote = '\x27') :
    inQuotes quote ≤ leads .outside .outside := by
  have opens : oneOf (· == quote) ≤ leads .outside (.inside quote) :=
    oneOf_le_leads fun character same => by
      rcases either with rfl | rfl <;> simp_all [Quotation.step]
  have closes : oneOf (· == quote) ≤ leads (.inside quote) .outside :=
    oneOf_le_leads fun character same => by simp_all [Quotation.step]
  have escapes : oneOf (· == '\x5c') ≤ leads (.inside quote) (.escaped quote) :=
    oneOf_le_leads fun character same => by
      rcases either with rfl | rfl <;> simp_all [Quotation.step]
  have escaped : oneOf (· != '\n') ≤ leads (.escaped quote) (.inside quote) :=
    oneOf_le_leads fun _ _ => rfl
  have inner : quotedCharacter quote ≤ leads (.inside quote) (.inside quote) := by
    refine add_le (oneOf_le_leads fun character other => by simp_all [Quotation.step]) ?_
    exact le_trans (by gcongr) leads_mul_le
  calc inQuotes quote
    _ ≤ leads .outside (.inside quote)
        * (leads (.inside quote) (.inside quote) * leads (.inside quote) .outside) := by
      rw [inQuotes]
      gcongr
      exact kstar_leads_le inner
    _ ≤ leads .outside (.inside quote) * leads (.inside quote) .outside := by
      gcongr
      exact leads_mul_le
    _ ≤ leads .outside .outside := leads_mul_le

private theorem family_le_leads : family ≤ leads .outside .outside :=
  add_le (le_trans identifiers_le_plain plain_le_leads)
    (add_le (inQuotes_le_leads (.inl rfl)) (inQuotes_le_leads (.inr rfl)))

/-! ### Reading -/

/-- What stands between commas outside of quotes, without the blanks around it. -/
private def readFamilies (text : List Char) : List (List Char) :=
  match _cut : cut Quotation.step .outside text with
  | none => [trimmed text]
  | some (before, after) => trimmed before :: readFamilies after
termination_by text.length
decreasing_by exact cut_shorter _cut

private theorem readFamilies_of_cut {halves : Option (List Char × List Char)}
    (found : cut Quotation.step .outside text = halves) :
    readFamilies text = halves.elim [trimmed text] fun (before, after) =>
      trimmed before :: readFamilies after := by
  rw [readFamilies]
  split
  next uncut => rw [← found, uncut, Option.elim_none]
  next again => rw [← found, again, Option.elim_some]

private theorem readFamilies_last (outside : text ∈ leads .outside .outside) :
    readFamilies text = [trimmed text] :=
  readFamilies_of_cut (cut_eq_none_of_leads outside)

private theorem readFamilies_append {rest : List Char} (outside : text ∈ leads .outside .outside) :
    readFamilies (text ++ ',' :: rest) = trimmed text :: readFamilies rest :=
  readFamilies_of_cut (cut_eq_some_iff.mpr ⟨.outside, ',', outside, rfl, rfl⟩)

private theorem Lists.readFamilies_eq (lists : Lists names text) (blank : gap ∈ blanks) :
    readFamilies (gap ++ text) = names.map trimmed := by
  have outside {front back : List Char} (first : front ∈ leads .outside .outside)
      (second : back ∈ leads .outside .outside) : front ++ back ∈ leads .outside .outside :=
    leads_mul_le (Language.append_mem_mul first second)
  induction lists generalizing gap with
  | one own =>
      rw [readFamilies_last (outside (blanks_le_leads blank) (family_le_leads own)),
        trimmed_gap_append (mem_kstar_oneOf_iff.mp blank), List.map_singleton]
  | @more name after lead rest names own before behind _ induction =>
      have front : gap ++ (name ++ after) ∈ leads .outside .outside :=
        outside (blanks_le_leads blank) (outside (family_le_leads own) (blanks_le_leads before))
      have parts : gap ++ (name ++ (after ++ ',' :: (lead ++ rest)))
          = gap ++ (name ++ after) ++ ',' :: (lead ++ rest) := by
        simp only [List.append_assoc]
      rw [parts, readFamilies_append front, induction behind,
        trimmed_gap_append (mem_kstar_oneOf_iff.mp blank),
        trimmed_append_gap (mem_kstar_oneOf_iff.mp before), List.map_cons]

/-- Whatever is taken for blanks and for names, the names are the same up to the blanks. -/
theorem Lists.trimmed_unique (lists : Lists names text) (again : Lists others text) :
    others.map trimmed = names.map trimmed :=
  (again.readFamilies_eq (Language.nil_mem_kstar _)).symm.trans
    (lists.readFamilies_eq (Language.nil_mem_kstar _))

/-! ## Quotes -/

theorem IsQuoted.trimmed_eq (quoted : IsQuoted name) : trimmed name = name := by
  have either {quote : Char} (apart : isBlank quote = false) (member : name ∈ inQuotes quote) :
      trimmed name = name := by
    rcases member with ⟨_, ⟨first, opens, rfl⟩, _, ⟨inner, _, _, ⟨last, closes, rfl⟩, rfl⟩, rfl⟩
    cases beq_iff_eq.mp opens
    cases beq_iff_eq.mp closes
    refine trimmed_eq_self_iff.mpr ⟨?_, ?_⟩
    · rintro _ ⟨⟩
      exact apart
    · intro character here
      have last : (quote :: inner ++ [quote]).getLast? = some quote := List.getLast?_concat
      cases Option.some.inj (last.symm.trans here)
      exact apart
  rcases quoted with quoted | quoted
  · exact either rfl quoted
  · exact either rfl quoted

theorem isQuoted_of_comma (own : name ∈ family) (comma : ',' ∈ name) : IsQuoted name := by
  rcases own with identifiers | quoted
  · have apart := mem_kstar_oneOf_iff.mp (identifiers_le_plain identifiers) ',' comma
    cases apart
  · exact quoted

end

/-! ## Families of a value -/

/-- A value has the syntax of the attribute if and only if it is a list of families. There is one
way to read it, up to blanks, and those in quotes have no blanks around them. The cut at every
comma cuts each family on its own, so that it gives them just as they are listed if and only if
none in quotes has a comma. -/
theorem families_listed_iff (text : String) :
    ((propertyNamed? "fontFamily").any (·.accepts text) = true ↔
      ∃ names, Lists names text.toList) ∧
    ∀ names, Lists names text.toList →
      (∀ others, Lists others text.toList → others.map trimmed = names.map trimmed) ∧
      (∀ name ∈ names, IsQuoted name → trimmed name = name) ∧
      families text = names.flatMap (fun name => families (String.ofList name)) ∧
      (families text = names.map (fun name => String.ofList (trimmed name)) ↔
        ∀ name ∈ names, IsQuoted name → ',' ∉ name) := by
  refine ⟨areFamilies_iff.trans mem_familyList_iff, fun names lists => ?_⟩
  refine ⟨fun others again => lists.trimmed_unique again, fun name _ => IsQuoted.trimmed_eq,
    ?_, ?_⟩
  · simp only [families_eq_betweenCommas, lists.betweenCommas_eq, String.toList_ofList,
      List.map_flatMap]
  · have commas : (∀ name ∈ names, IsQuoted name → ',' ∉ name) ↔ ∀ name ∈ names, ',' ∉ name := by
      refine forall₂_congr fun name member => ⟨fun none comma => ?_, fun none _ => none⟩
      exact none (isQuoted_of_comma (lists.all_families name member) comma) comma
    rw [commas, ← flatMap_betweenCommas_eq_iff, ← lists.betweenCommas_eq,
      families_eq_betweenCommas, ← Function.comp_def String.ofList, ← List.map_map,
      List.map_inj_right fun _ _ => String.ofList_injective]

theorem families_listed_iff_comma :
    (propertyNamed? "fontFamily").any (·.accepts "\"a, b\"") = true ∧
      Lists ["\"a, b\"".toList] "\"a, b\"".toList ∧
      families "\"a, b\"" ≠ ["\"a, b\""] := by
  have inner : "a, b".toList ∈ (quotedCharacter '"')∗ := by
    have alone : oneOf _ ≤ quotedCharacter '"' := le_self_add
    exact kstar_mono alone (mem_kstar_oneOf_iff.mpr (List.all_eq_true.mp rfl))
  have quoted : "\"a, b\"".toList ∈ inQuotes '"' :=
    ⟨['"'], ⟨'"', rfl, rfl⟩, _, ⟨_, inner, ['"'], ⟨'"', rfl, rfl⟩, rfl⟩, rfl⟩
  have lists : Lists ["\"a, b\"".toList] "\"a, b\"".toList := .one (.inr (.inl quoted))
  refine ⟨(families_listed_iff _).1.mpr ⟨_, lists⟩, lists, fun whole => ?_⟩
  have apart := ((families_listed_iff _).2 _ lists).2.2.2.mp whole
  exact apart _ (List.mem_singleton_self _) (.inl quoted) (by decide)

end TimedText.Style
