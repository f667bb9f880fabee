import Mathlib.Data.List.Nodup
import TimedText.Catalogue
/-!
What can be looked up in a catalogue after something is filed. Because the keys are
distinct, a lookup finds every entry, and a catalogue is made again by filing its
entries.
-/

namespace TimedText.Catalogue

variable {α : Type} {catalogue : Catalogue α} {key other : String} {value : α}

/-! ## Keys -/

theorem mem_entries_of_find? (found : catalogue.find? key = some value) :
    (key, value) ∈ catalogue.entries := by
  rcases Option.map_eq_some_iff.mp found with ⟨entry, isEntry, same⟩
  have named : entry.1 = key := by simpa using List.find?_some isEntry
  rw [← named, ← same]
  exact List.mem_of_find?_eq_some isEntry

theorem find?_of_mem_entries (member : (key, value) ∈ catalogue.entries) :
    catalogue.find? key = some value := by
  have filed : key ∈ catalogue.keys := List.mem_map_of_mem (f := Prod.fst) member
  rcases mem_keys_iff_find?.mp filed with ⟨first, found⟩
  have same : (key, first) = (key, value) :=
    List.inj_on_of_nodup_map catalogue.distinct (mem_entries_of_find? found) member rfl
  rw [found, (Prod.mk.inj same).2]

/-! ## Filing -/

private theorem insert_of_mem_keys (filed : key ∈ catalogue.keys) (value : α) :
    catalogue.insert key value = catalogue.adjust key fun _ => value := by
  rw [insert, dif_pos (contains_iff_mem_keys.mpr filed)]

theorem insert_of_not_mem_keys (fresh : key ∉ catalogue.keys) (value : α) :
    catalogue.insert key value = catalogue.push key value fresh := by
  rw [insert, dif_neg (contains_iff_mem_keys.not.mpr fresh)]

theorem mem_keys_insert :
    other ∈ (catalogue.insert key value).keys ↔ other = key ∨ other ∈ catalogue.keys := by
  by_cases filed : key ∈ catalogue.keys
  · rw [insert_of_mem_keys filed, keys_adjust]
    constructor
    · exact Or.inr
    · rintro (rfl | member)
      · exact filed
      · exact member
  · rw [insert_of_not_mem_keys filed, keys, entries_push, List.map_append, List.mem_append, or_comm]
    simp [keys]

theorem find?_insert_of_not_mem_keys (fresh : key ∉ catalogue.keys) (value : α)
    (other : String) :
    (catalogue.insert key value).find? other =
      (catalogue.find? other).or (if key = other then some value else none) := by
  rw [insert_of_not_mem_keys fresh, find?, find?, entries_push, List.find?_append, Option.map_or]
  by_cases same : key = other
  · simp [same]
  · simp [same]

private theorem find?_adjust (catalogue : Catalogue α) (key : String) (change : α → α)
    (other : String) :
    (catalogue.adjust key change).find? other =
      (catalogue.find? other).map fun value =>
        if key = other then change value else value := by
  have kept : ((fun entry : String × α => entry.1 == other) ∘ fun entry =>
      if entry.1 == key then (entry.1, change entry.2) else entry) =
        fun entry => entry.1 == other := by
    funext entry
    dsimp only [Function.comp_apply]
    split
    · rfl
    · rfl
  rw [find?, find?, adjust, List.find?_map, kept]
  cases found : catalogue.entries.find? fun entry => entry.1 == other with
  | none => rfl
  | some entry =>
      have named : entry.1 = other := by simpa using List.find?_some found
      simp only [Option.map_some, named, beq_iff_eq, eq_comm (a := key)]
      split
      · rfl
      · rfl

theorem find?_insert (catalogue : Catalogue α) (key : String) (value : α)
    (other : String) :
    (catalogue.insert key value).find? other =
      if key = other then some value else catalogue.find? other := by
  by_cases filed : key ∈ catalogue.keys
  · rw [insert_of_mem_keys filed, find?_adjust]
    by_cases same : key = other
    · subst same
      rcases mem_keys_iff_find?.mp filed with ⟨former, found⟩
      simp [found]
    · simp [same]
  · rw [find?_insert_of_not_mem_keys filed]
    by_cases same : key = other
    · subst same
      have absent : catalogue.find? key = none := by
        simpa [contains_eq_isSome_find?] using contains_iff_mem_keys.not.mpr filed
      simp [absent]
    · simp [same]

/-! ## Lists -/

private theorem foldl_insert_of_distinct (pairs : List (String × α)) :
    ∀ filed : Catalogue α, (filed.keys ++ pairs.map Prod.fst).Nodup →
      (pairs.foldl (fun catalogue pair => catalogue.insert pair.1 pair.2) filed).entries =
        filed.entries ++ pairs := by
  induction pairs with
  | nil => simp
  | cons first rest induction =>
      intro filed distinct
      have fresh : first.1 ∉ filed.keys := fun member =>
        (List.nodup_append.mp distinct).2.2 first.1 member first.1 (by simp) rfl
      rw [List.foldl_cons, insert_of_not_mem_keys fresh, induction]
      · simp
      · simpa [keys] using distinct

theorem entries_ofList_of_distinct {pairs : List (String × α)}
    (distinct : (pairs.map Prod.fst).Nodup) : (ofList pairs).entries = pairs :=
  foldl_insert_of_distinct pairs empty distinct

theorem find?_ofList_of_agrees {pairs : List (String × α)} {value? : String → Option α}
    (agrees : ∀ pair ∈ pairs, value? pair.1 = some pair.2) (key : String) :
    (ofList pairs).find? key =
      if key ∈ pairs.map Prod.fst then value? key else none := by
  suffices general : ∀ filed : Catalogue α,
      (pairs.foldl (fun catalogue pair => catalogue.insert pair.1 pair.2) filed).find? key =
        if key ∈ pairs.map Prod.fst then value? key else filed.find? key from
    general empty
  induction pairs with
  | nil => exact fun _ => rfl
  | cons first rest induction =>
      intro filed
      rcases List.forall_mem_cons.mp agrees with ⟨here, later⟩
      rw [List.foldl_cons, induction later, find?_insert, List.map_cons]
      by_cases same : first.1 = key
      · subst same
        simp [here]
      · rw [if_neg same]
        simp only [List.mem_cons, Ne.symm same, false_or]

end TimedText.Catalogue
