/-!
Catalogues: values filed under distinct keys, listed in the order in which the keys
were first filed. Filing a key again replaces its value and keeps its place.
-/

namespace TimedText

structure Catalogue (α : Type) where
  entries : List (String × α)
  distinct : (entries.map Prod.fst).Nodup

namespace Catalogue

variable {α : Type}

def empty : Catalogue α := ⟨[], List.nodup_nil⟩

instance : Inhabited (Catalogue α) := ⟨empty⟩

def keys (catalogue : Catalogue α) : List String :=
  catalogue.entries.map Prod.fst

def find? (catalogue : Catalogue α) (key : String) : Option α :=
  (catalogue.entries.find? fun entry => entry.1 == key).map Prod.snd

def contains (catalogue : Catalogue α) (key : String) : Bool :=
  catalogue.entries.any fun entry => entry.1 == key

theorem contains_iff_mem_keys {catalogue : Catalogue α} {key : String} :
    catalogue.contains key = true ↔ key ∈ catalogue.keys := by
  simp [contains, keys]

theorem contains_eq_isSome_find? (catalogue : Catalogue α) (key : String) :
    catalogue.contains key = (catalogue.find? key).isSome := by
  simp [contains, find?, List.isSome_find?]

theorem mem_keys_iff_find? {catalogue : Catalogue α} {key : String} :
    key ∈ catalogue.keys ↔ ∃ value, catalogue.find? key = some value := by
  rw [← contains_iff_mem_keys, contains_eq_isSome_find?, Option.isSome_iff_exists]

private theorem adjusted_keys (entries : List (String × α)) (key : String)
    (change : α → α) :
    (entries.map fun entry =>
      if entry.1 == key then (entry.1, change entry.2) else entry).map Prod.fst =
        entries.map Prod.fst := by
  rw [List.map_map]
  apply List.map_congr_left
  intro entry _
  dsimp only [Function.comp_apply]
  split
  · rfl
  · rfl

/-- Changes the value under a key, where there is one. -/
def adjust (catalogue : Catalogue α) (key : String) (change : α → α) :
    Catalogue α where
  entries := catalogue.entries.map fun entry =>
    if entry.1 == key then (entry.1, change entry.2) else entry
  distinct := by
    rw [adjusted_keys]
    exact catalogue.distinct

@[simp] theorem keys_adjust (catalogue : Catalogue α) (key : String) (change : α → α) :
    (catalogue.adjust key change).keys = catalogue.keys :=
  adjusted_keys catalogue.entries key change

def push (catalogue : Catalogue α) (key : String) (value : α)
    (fresh : key ∉ catalogue.keys) : Catalogue α where
  entries := catalogue.entries ++ [(key, value)]
  distinct := by
    rw [List.map_append]
    apply List.nodup_append.mpr
    refine ⟨catalogue.distinct, by simp, ?_⟩
    intro filed member other last same
    rw [List.map_singleton, List.mem_singleton] at last
    subst last
    exact fresh (same ▸ member)

@[simp] theorem entries_push (catalogue : Catalogue α) {key : String} {value : α}
    (fresh : key ∉ catalogue.keys) :
    (catalogue.push key value fresh).entries = catalogue.entries ++ [(key, value)] := rfl

@[simp] theorem contains_push (catalogue : Catalogue α) {key : String} {value : α}
    (fresh : key ∉ catalogue.keys) (other : String) :
    (catalogue.push key value fresh).contains other =
      (catalogue.contains other || key == other) := by
  simp [contains]

def insert (catalogue : Catalogue α) (key : String) (value : α) : Catalogue α :=
  if filed : catalogue.contains key = true then catalogue.adjust key fun _ => value
  else catalogue.push key value fun member => filed (contains_iff_mem_keys.mpr member)

def ofList (pairs : List (String × α)) : Catalogue α :=
  pairs.foldl (fun catalogue pair => catalogue.insert pair.1 pair.2) empty

def size (catalogue : Catalogue α) : Nat :=
  catalogue.entries.length

def isEmpty (catalogue : Catalogue α) : Bool :=
  catalogue.entries.isEmpty

end Catalogue

end TimedText
