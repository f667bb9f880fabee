import Mathlib
import TimedText.Proofs.Cascade.Walk
/-!
What a resolution of style references merges: the first definition of each
attribute among all that are met when references are followed without regard to
what was followed before. To leave out what is done with makes no difference,
because all that could be met there has been merged. Content takes its own value
of an attribute, or that of the first of its styles that has one.
-/

namespace TimedText.Style

variable {styles : Catalogue Element} {specified : Specified}
  {chain pending : List String} {cascade : Cascade} {root id reference : String}
  {style : Element}

/-! ## First definitions -/

/-- The first definition of each attribute other than the reference. -/
def firstDefinitions : List (String × String) → List (String × String)
  | [] => []
  | pair :: rest =>
    if pair.1 == referenceName then firstDefinitions rest
    else pair :: (firstDefinitions rest).filter fun other => other.1 != pair.1

example : firstDefinitions [("a", "1"), ("style", "s"), ("b", "2"), ("a", "3")] =
    [("a", "1"), ("b", "2")] := by decide

private theorem merge_eq (specified : Specified) (pairs : List (String × String)) :
    (merge specified pairs).entries = specified.entries ++
      (firstDefinitions pairs).filter fun pair => !specified.contains pair.1 := by
  induction pairs generalizing specified with
  | nil => simp [merge, firstDefinitions]
  | cons pair rest induction =>
      rw [merge, List.foldl_cons, ← merge, firstDefinitions, addMissing]
      by_cases isReference : (pair.1 == referenceName) = true
      · rw [if_pos isReference, isReference, Bool.true_or, if_pos rfl]
        exact induction specified
      rw [if_neg isReference, eq_false_of_ne_true isReference, Bool.false_or]
      by_cases filed : specified.contains pair.1 = true
      · rw [if_pos filed, induction, List.filter_cons, filed]
        refine congrArg (specified.entries ++ ·) ?_
        rw [Bool.not_true, if_neg Bool.false_ne_true, List.filter_filter]
        apply List.filter_congr
        intro other _
        by_cases same : other.1 = pair.1
        · simp [same, filed]
        · simp [same]
      · have fresh := Catalogue.contains_iff_mem_keys.not.mp filed
        rw [if_neg filed, Catalogue.insert_of_not_mem_keys fresh, induction,
          List.filter_cons, if_pos (by simpa using filed), List.filter_filter,
          Catalogue.entries_push, List.append_assoc, List.singleton_append]
        refine congrArg (fun later => specified.entries ++ pair :: later) ?_
        apply List.filter_congr
        intro other _
        simp [bne, BEq.comm (a := pair.1)]

private theorem merge_empty (pairs : List (String × String)) :
    (merge .empty pairs).entries = firstDefinitions pairs := by
  rw [merge_eq]
  simp [Catalogue.empty, Catalogue.contains]

private theorem merge_append (specified : Specified) (first second : List (String × String)) :
    merge specified (first ++ second) = merge (merge specified first) second :=
  List.foldl_append

private def Defines (specified : Specified) (name : String) : Prop :=
  name = referenceName ∨ specified.contains name = true

private theorem addMissing_of_defines {pair : String × String}
    (defines : Defines specified pair.1) : addMissing specified pair = specified := by
  rcases defines with same | filed
  · simp [addMissing, same]
  · simp [addMissing, filed]

private theorem merge_of_defines {pairs : List (String × String)}
    (defines : ∀ pair ∈ pairs, Defines specified pair.1) :
    merge specified pairs = specified := by
  induction pairs with
  | nil => rfl
  | cons pair rest induction =>
      rcases List.forall_mem_cons.mp defines with ⟨first, others⟩
      rw [merge, List.foldl_cons, addMissing_of_defines first]
      exact induction others

private theorem Defines.addMissing {name : String} (defines : Defines specified name)
    (pair : String × String) : Defines (addMissing specified pair) name := by
  refine defines.imp_right fun filed => ?_
  rw [Style.addMissing]
  split
  · exact filed
  · rw [Catalogue.contains_iff_mem_keys, Catalogue.mem_keys_insert]
    exact .inr (Catalogue.contains_iff_mem_keys.mp filed)

private theorem Defines.merge {name : String} (defines : Defines specified name)
    (pairs : List (String × String)) : Defines (merge specified pairs) name := by
  induction pairs generalizing specified with
  | nil => exact defines
  | cons pair rest induction => exact induction (defines.addMissing pair)

private theorem defines_addMissing (specified : Specified) (pair : String × String) :
    Defines (addMissing specified pair) pair.1 := by
  by_cases settled : (pair.1 == referenceName || specified.contains pair.1) = true
  · rw [addMissing, if_pos settled]
    simpa [Defines] using settled
  · rw [addMissing, if_neg settled]
    exact .inr (Catalogue.contains_iff_mem_keys.mpr
      (Catalogue.mem_keys_insert.mpr (.inl rfl)))

private theorem defines_merge {pairs : List (String × String)} {pair : String × String}
    (member : pair ∈ pairs) (specified : Specified) :
    Defines (merge specified pairs) pair.1 := by
  induction pairs generalizing specified with
  | nil => cases member
  | cons first rest induction =>
      rcases List.mem_cons.mp member with same | member
      · subst same
        exact (defines_addMissing specified pair).merge rest
      · exact induction member _

/-! ## The traversal without memory -/

/-- The attributes that are met when references are followed in turn and those
that lead to an id on the chain are left out. What is referred to twice is
followed twice. -/
def expand (styles : Catalogue Element) (chain : List String) :
    List String → List (String × String)
  | [] => []
  | reference :: rest =>
    if closes : chain.contains reference = true then expand styles chain rest
    else
      match found : styles.find? reference with
      | none => expand styles chain rest
      | some style =>
        have := untouched_cons_lt found closes
        style.attributes ++ expand styles (reference :: chain) (references style)
          ++ expand styles chain rest
termination_by pending => (untouched styles chain, pending.length)

def expandStyle (styles : Catalogue Element) (id : String) (style : Element) :
    List (String × String) :=
  style.attributes ++ expand styles [id] (references style)

private theorem expand_of_onChain (onChain : reference ∈ chain) (rest : List String) :
    expand styles chain (reference :: rest) = expand styles chain rest := by
  rw [expand, dif_pos (by simpa using onChain)]

private theorem expand_of_absent (offChain : reference ∉ chain)
    (absent : styles.find? reference = none) (rest : List String) :
    expand styles chain (reference :: rest) = expand styles chain rest := by
  rw [expand, dif_neg (by simpa using offChain)]
  split
  · rfl
  · rename_i found
    cases absent.symm.trans found

private theorem expand_of_found (offChain : reference ∉ chain)
    (found : styles.find? reference = some style) (rest : List String) :
    expand styles chain (reference :: rest) =
      style.attributes ++ expand styles (reference :: chain) (references style)
        ++ expand styles chain rest := by
  rw [expand, dif_neg (by simpa using offChain)]
  split
  · rename_i absent
    cases absent.symm.trans found
  · rename_i other alsoFound
    cases alsoFound.symm.trans found
    rfl

/-! ## What has been merged -/

/-- All attributes of the ids on the chain and of those that are done with have
been merged. -/
private def Cascade.Gathered (styles : Catalogue Element) (chain : List String)
    (cascade : Cascade) : Prop :=
  ∀ id, id ∈ chain ∨ id ∈ cascade.done → ∀ style, styles.find? id = some style →
    ∀ pair ∈ style.attributes, Defines cascade.merged pair.1

private theorem Cascade.Gathered.closeCycle (gathered : cascade.Gathered styles chain)
    (reference : String) : (cascade.closeCycle reference).Gathered styles chain := by
  rw [Cascade.closeCycle]
  split
  · exact gathered
  · exact gathered

private theorem Cascade.Gathered.addStyle (gathered : cascade.Gathered styles chain)
    (found : styles.find? reference = some style) :
    (cascade.addStyle style).Gathered styles (reference :: chain) := by
  intro id settled own ownFound pair listed
  by_cases same : id = reference
  · subst same
    cases found.symm.trans ownFound
    exact defines_merge listed cascade.merged
  · have earlier : id ∈ chain ∨ id ∈ cascade.done :=
      settled.imp_left fun onChain => List.mem_of_ne_of_mem same onChain
    exact (gathered id earlier own ownFound pair listed).merge _

private theorem Cascade.Gathered.finish (gathered : cascade.Gathered styles (reference :: chain)) :
    (cascade.finish reference).Gathered styles chain := by
  intro id settled
  refine gathered id ?_
  rcases settled with onChain | finished
  · exact .inl (List.mem_cons_of_mem _ onChain)
  · rcases List.mem_cons.mp finished with same | finished
    · exact .inl (same ▸ List.mem_cons_self)
    · exact .inr finished

private theorem follow_gathered (gathered : cascade.Gathered styles chain)
    (pending : List String) :
    (follow styles chain cascade pending).Gathered styles chain :=
  follow_preserves (fun chain cascade => cascade.Gathered styles chain)
    (fun _ gathered => gathered.closeCycle _)
    (fun found gathered => gathered.addStyle found)
    (fun gathered => gathered.finish) pending gathered

/-- References that have been looked at lead to nothing that has not been merged,
whatever else is put on the chain. The ids on the chain are left out here as they
are in the walk; and of all others it is known that their own references have been
looked at. -/
private theorem expand_defines (closed : cascade.Closed styles root chain)
    (gathered : cascade.Gathered styles chain) {wider : List String}
    (within : chain ⊆ wider)
    (met : ∀ reference ∈ pending, cascade.Met styles root chain reference) :
    ∀ pair ∈ expand styles wider pending, Defines cascade.merged pair.1 := by
  -- The traversal goes on under a longer chain, while the cascade stays.
  fun_induction expand styles wider pending with
  | case1 => exact nofun
  | case2 wider reference rest closes induction =>
      exact induction within (List.forall_mem_cons.mp met).2
  | case3 wider reference rest offChain absent induction =>
      exact induction within (List.forall_mem_cons.mp met).2
  | case4 wider reference rest offChain style found smaller innerInduction induction =>
      rcases List.forall_mem_cons.mp met with ⟨here, later⟩
      have finished : reference ∈ cascade.done := by
        rcases here.place with onChain | finished | absent
        · exact absurd (by simpa using within onChain) offChain
        · exact finished
        · cases absent.symm.trans found
      intro pair member
      rcases List.mem_append.mp member with member | member
      · rcases List.mem_append.mp member with own | inner
        · exact gathered reference (.inr finished) style found pair own
        · exact innerInduction (List.subset_cons_of_subset _ within)
            (closed reference finished style found) pair inner
      · exact induction within later pair member

/-- A walk merges what the traversal without memory meets. -/
private theorem follow_merged (onChain : root ∈ chain)
    (closed : cascade.Closed styles root chain)
    (gathered : cascade.Gathered styles chain) :
    (follow styles chain cascade pending).merged =
      merge cascade.merged (expand styles chain pending) := by
  fun_induction follow styles chain cascade pending with
  | case1 chain cascade => rw [expand, merge, List.foldl_nil]
  | case2 chain cascade reference rest closes induction =>
      have unchanged : (cascade.closeCycle reference).merged = cascade.merged := by
        rw [Cascade.closeCycle]
        split
        · rfl
        · rfl
      rw [induction onChain (closed.closeCycle reference) (gathered.closeCycle reference),
        expand_of_onChain (by simpa using closes), unchanged]
  | case3 chain cascade reference rest offChain finished induction =>
      rw [induction onChain closed gathered]
      have outside : reference ∉ chain := by simpa using offChain
      cases found : styles.find? reference with
      | none => rw [expand_of_absent outside found]
      | some style =>
          -- The traversal follows the reference again and meets nothing new.
          have known : ∀ other ∈ [reference], cascade.Met styles root chain other := by
            intro other member
            cases List.mem_singleton.mp member
            exact ⟨.inr (.inl (by simpa using finished)), fun same =>
              absurd (same ▸ onChain) outside⟩
          have again := expand_defines closed gathered (List.Subset.refl chain) known
          rw [expand_of_found outside found, expand, List.append_nil] at again
          rw [expand_of_found outside found, merge_append, merge_of_defines again]
  | case4 chain cascade reference rest offChain unfinished absent induction =>
      rw [induction onChain closed gathered,
        expand_of_absent (by simpa using offChain) absent]
  | case5 chain cascade reference rest offChain unfinished style found
      smaller inner innerInduction induction =>
      have innerOnChain := List.mem_cons_of_mem reference onChain
      have entered := closed.addStyle reference style
      have added := gathered.addStyle found
      -- Leaving the id, the rest starts from where the walk inside has ended.
      rcases follow_covers innerOnChain (references style) entered with
        ⟨innerClosed, innerMet⟩
      rw [induction onChain (innerClosed.finish found innerMet)
        (follow_gathered added _).finish]
      change merge inner.merged _ = _
      rw [innerInduction innerOnChain entered added,
        expand_of_found (by simpa using offChain) found, merge_append, merge_append]
      rfl

private theorem resolveFrom_merged (found : styles.find? id = some style)
    (reported : List String) :
    (resolveFrom styles reported id style).merged.entries =
      firstDefinitions (expandStyle styles id style) := by
  have closed : ((Cascade.starting reported).addStyle style).Closed styles id [id] :=
    nofun
  have nothing : (Cascade.starting reported).Gathered styles [] := nofun
  rw [resolveFrom, follow_merged List.mem_cons_self closed (nothing.addStyle found),
    ← merge_empty, expandStyle, merge_append]
  rfl

theorem resolveEach_sets (styles : Catalogue Element) {entries : List (String × Element)}
    (found : ∀ entry ∈ entries, styles.find? entry.1 = some entry.2) :
    ∀ reported, (resolveEach styles reported entries).1.map
        (fun set => (set.1, set.2.entries)) =
      entries.map fun entry =>
        (entry.1, firstDefinitions (expandStyle styles entry.1 entry.2)) := by
  induction entries with
  | nil => exact fun _ => rfl
  | cons entry rest induction =>
      intro reported
      rcases entry with ⟨id, style⟩
      rcases List.forall_mem_cons.mp found with ⟨here, found⟩
      rw [resolveEach, List.map_cons, List.map_cons, induction found,
        ← resolveFrom_merged here reported]

/-! ## Content -/

private theorem find?_addMissing {name : String} (notReference : name ≠ referenceName)
    (specified : Specified) (pair : String × String) :
    (addMissing specified pair).find? name =
      (specified.find? name).or (if pair.1 = name then some pair.2 else none) := by
  by_cases isReference : pair.1 = referenceName
  · have different : pair.1 ≠ name := fun same =>
      notReference (same.symm.trans isReference)
    simp [addMissing, isReference, isReference ▸ different]
  · by_cases filed : specified.contains pair.1 = true
    · rw [addMissing, filed, Bool.or_true, if_pos rfl]
      split
      · rename_i same
        subst same
        have key := Catalogue.contains_iff_mem_keys.mp filed
        rcases Catalogue.mem_keys_iff_find?.mp key with ⟨value, found⟩
        rw [found, Option.some_or]
      · rw [Option.or_none]
    · rw [addMissing, eq_false_of_ne_true filed, Bool.or_false,
        if_neg (by simpa using isReference)]
      exact Catalogue.find?_insert_of_not_mem_keys
        (Catalogue.contains_iff_mem_keys.not.mp filed) pair.2 name

private theorem find?_merge {name : String} (notReference : name ≠ referenceName)
    (specified values : Specified) :
    (merge specified values.entries).find? name =
      (specified.find? name).or (values.find? name) := by
  suffices general : ∀ (pairs : List (String × String)) (specified : Specified),
      (merge specified pairs).find? name = (specified.find? name).or
        ((pairs.find? fun pair => pair.1 == name).map Prod.snd) from
    general values.entries specified
  intro pairs
  induction pairs with
  | nil => simp [merge]
  | cons pair rest induction =>
      intro specified
      rw [merge, List.foldl_cons, ← merge, induction,
        find?_addMissing notReference, Option.or_assoc, List.find?_cons]
      by_cases same : pair.1 = name
      · simp [same]
      · simp [same, beq_false_of_ne same]

theorem find?_ownValues {uri name : String} (element : Element)
    (registered : ∃ property ∈ properties, property.qualifiedName uri = name)
    (notReference : name ≠ referenceName) :
    (Catalogue.ofList (ownValues uri element)).find? name = element.attribute? name := by
  have agrees : ∀ pair ∈ ownValues uri element,
      element.attribute? pair.1 = some pair.2 := by
    intro pair member
    rcases List.mem_filterMap.mp member with ⟨property, _, given⟩
    dsimp only at given
    split at given
    · cases given
    · rcases Option.map_eq_some_iff.mp given with ⟨value, present, same⟩
      rw [← same]
      exact present
  rw [Catalogue.find?_ofList_of_agrees agrees]
  cases present : element.attribute? name with
  | none => exact ite_self none
  | some value =>
      rcases registered with ⟨property, known, rfl⟩
      have listed : (property.qualifiedName uri, value) ∈ ownValues uri element := by
        refine List.mem_filterMap.mpr ⟨property, known, ?_⟩
        simp [notReference, present]
      rw [if_pos (List.mem_map_of_mem (f := Prod.fst) listed)]

theorem find?_foldl_merge {name : String} (notReference : name ≠ referenceName)
    (resolved : Catalogue Specified) (ids : List String) (specified : Specified) :
    (ids.foldl
      (fun specified reference =>
        match resolved.find? reference with
        | some values => merge specified values.entries
        | none => specified) specified).find? name =
      (specified.find? name).or
        (ids.findSome? fun id => (resolved.find? id).bind (·.find? name)) := by
  induction ids generalizing specified with
  | nil => simp
  | cons id rest induction =>
      rw [List.foldl_cons, induction, List.findSome?_cons]
      cases resolved.find? id with
      | none => rfl
      | some values =>
          rw [find?_merge notReference, Option.or_assoc]
          cases found : values.find? name with
          | none => simp [found]
          | some value => simp [found]

/-- Resolving all style elements gives each of them the first definitions among
the attributes that the traversal without memory meets. An element takes its own
value of a known attribute, or else that of the first style that it refers to and
that has one. -/
theorem resolveAll_merges_first_definitions (styles : Catalogue Element) :
    (∀ id style, styles.find? id = some style →
      ((resolveAll styles).sets.find? id).map Catalogue.entries =
        some (firstDefinitions (expandStyle styles id style)))
      ∧ ∀ (uri : String) (resolved : Catalogue Specified) (element : Element)
        (property : Property), property ∈ properties →
        property.qualifiedName uri ≠ referenceName →
        (specifiedFor uri resolved element).find? (property.qualifiedName uri) =
          (element.attribute? (property.qualifiedName uri)).or
            ((references element).findSome? fun id =>
              (resolved.find? id).bind (·.find? (property.qualifiedName uri))) := by
  constructor
  · intro id style found
    have found? : ∀ entry ∈ styles.entries, styles.find? entry.1 = some entry.2 :=
      fun entry member => Catalogue.find?_of_mem_entries member
    have listed : (id, firstDefinitions (expandStyle styles id style)) ∈
        (resolveAll styles).sets.entries.map fun set => (set.1, set.2.entries) := by
      rw [entries_resolveAll_sets, resolveEach_sets styles found?]
      exact List.mem_map.mpr ⟨(id, style), Catalogue.mem_entries_of_find? found, rfl⟩
    rcases List.mem_map.mp listed with ⟨⟨key, values⟩, member, same⟩
    rcases Prod.mk.inj same with ⟨rfl, first⟩
    rw [Catalogue.find?_of_mem_entries member, Option.map_some, first]
  · intro uri resolved element property known notReference
    refine (find?_foldl_merge notReference resolved (references element) _).trans ?_
    rw [find?_ownValues element ⟨property, known, rfl⟩ notReference]

/-- A style that refers to two others, both of which refer to a third one; and the
third refers back to the first. -/
def diamondStyles : Catalogue Element := .ofList [
  ("top", ⟨"style", [("style", "left right")], [], none, none⟩),
  ("left", ⟨"style", [("style", "base"), ("size", "small")], [], none, none⟩),
  ("right", ⟨"style", [("style", "base"), ("size", "large")], [], none, none⟩),
  ("base", ⟨"style", [("style", "top"), ("colour", "red")], [], none, none⟩)]

def referringElement : Element :=
  ⟨"p", [("style", "missing left right")], [], none, none⟩

theorem resolveAll_merges_first_definitions_diamond :
    ((resolveAll diamondStyles).sets.find? "base").map Catalogue.entries =
        some [("colour", "red"), ("size", "small")]
      ∧ (specifiedFor Vocabulary.core
          (.ofList [("left", .empty), ("right", .ofList [(Name.relative Vocabulary.core
            "#styling" "direction", "rtl")])]) referringElement).find?
          (Name.relative Vocabulary.core "#styling" "direction") = some "rtl" := by
  have holds := resolveAll_merges_first_definitions diamondStyles
  constructor
  · rw [holds.1 "base" _ rfl]
    cbv
  · refine (holds.2 Vocabulary.core _ referringElement (properties.head (by simp [properties]))
      (List.head_mem _) (by decide)).trans ?_
    decide

end TimedText.Style
