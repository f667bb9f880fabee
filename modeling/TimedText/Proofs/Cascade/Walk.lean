import Mathlib.Logic.Relation
import TimedText.Proofs.Catalogue
import TimedText.Style.Cascade
/-!
The walk along style references. Style elements and references make a graph, in
which references that lead nowhere are no edges. The walk leaves nothing out:
once it is done with an id, all ids that it refers to are done with as well or
lie on the chain of those that are being resolved.
-/

namespace TimedText.Style

open Relation

variable {styles : Catalogue Element} {chain : List String} {cascade : Cascade}
  {root id reference : String} {style : Element}

/-! ## Graph -/

def Refers (styles : Catalogue Element) (source target : String) : Prop :=
  (∃ style, styles.find? source = some style ∧ target ∈ references style)
    ∧ target ∈ styles.keys

/-- The id reaches itself by references. -/
def IsCyclic (styles : Catalogue Element) (id : String) : Prop :=
  TransGen (Refers styles) id id

/-! ## Runs

What a walk does to a cascade is a sequence of three steps: a reference closes a
cycle, an id is entered, an id is left. -/

theorem follow_preserves (Holds : List String → Cascade → Prop)
    (closes : ∀ {chain cascade reference}, reference ∈ chain →
      Holds chain cascade → Holds chain (cascade.closeCycle reference))
    (enters : ∀ {chain cascade reference style},
      styles.find? reference = some style → Holds chain cascade →
      Holds (reference :: chain) (cascade.addStyle style))
    (leaves : ∀ {chain cascade reference}, Holds (reference :: chain) cascade →
      Holds chain (cascade.finish reference))
    (pending : List String) (holds : Holds chain cascade) :
    Holds chain (follow styles chain cascade pending) := by
  fun_induction follow styles chain cascade pending with
  | case1 => exact holds
  | case2 chain cascade reference rest onChain induction =>
      exact induction (closes (by simpa using onChain) holds)
  | case3 chain cascade reference rest offChain finished induction =>
      exact induction holds
  | case4 chain cascade reference rest offChain unfinished absent induction =>
      exact induction holds
  | case5 chain cascade reference rest offChain unfinished style found
      smaller inner innerInduction induction =>
      exact induction (leaves (innerInduction (enters found holds)))

/-! ## Growth -/

private structure Cascade.Extends (later earlier : Cascade) : Prop where
  done : earlier.done ⊆ later.done
  reported : earlier.reported ⊆ later.reported
  valid : later.valid = true → earlier.valid = true

private theorem Cascade.Extends.refl (cascade : Cascade) : cascade.Extends cascade :=
  ⟨List.Subset.refl _, List.Subset.refl _, id⟩

private theorem Cascade.Extends.trans {last later earlier : Cascade}
    (second : last.Extends later) (first : later.Extends earlier) :
    last.Extends earlier :=
  ⟨List.Subset.trans first.done second.done,
    List.Subset.trans first.reported second.reported, first.valid ∘ second.valid⟩

private theorem Cascade.closeCycle_extends (cascade : Cascade) (reference : String) :
    (cascade.closeCycle reference).Extends cascade := by
  rw [closeCycle]
  split
  · exact ⟨List.Subset.refl _, List.Subset.refl _, nofun⟩
  · exact ⟨List.Subset.refl _, List.subset_cons_self _ _, nofun⟩

private theorem Cascade.finish_extends (cascade : Cascade) (reference : String) :
    (cascade.finish reference).Extends cascade :=
  ⟨List.subset_cons_self _ _, List.Subset.refl _, id⟩

private theorem follow_extends (styles : Catalogue Element) (chain : List String)
    (cascade : Cascade) (pending : List String) :
    (follow styles chain cascade pending).Extends cascade :=
  follow_preserves (fun _ later => later.Extends cascade)
    (fun _ grows => (Cascade.closeCycle_extends _ _).trans grows)
    (fun _ grows => ⟨grows.done, grows.reported, grows.valid⟩)
    (fun grows => (Cascade.finish_extends _ _).trans grows)
    pending (Cascade.Extends.refl cascade)

/-! ## Coverage

`root` is the id that is being resolved, at the far end of the chain. -/

/-- A reference has been looked at: it lies on the chain, or all that it leads to
has been merged, or it leads nowhere. If it is the one to the root, a cycle was
noted. -/
structure Cascade.Met (styles : Catalogue Element) (root : String)
    (chain : List String) (cascade : Cascade) (reference : String) : Prop where
  place : reference ∈ chain ∨ reference ∈ cascade.done
    ∨ styles.find? reference = none
  noted : reference = root → root ∈ cascade.reported ∧ cascade.valid = false

def Cascade.Closed (styles : Catalogue Element) (root : String)
    (chain : List String) (cascade : Cascade) : Prop :=
  ∀ id ∈ cascade.done, ∀ style, styles.find? id = some style →
    ∀ reference ∈ references style, cascade.Met styles root chain reference

private theorem Cascade.Met.extend {later : Cascade}
    (met : cascade.Met styles root chain reference)
    (grows : later.Extends cascade) : later.Met styles root chain reference where
  place := by
    rcases met.place with onChain | finished | absent
    · exact .inl onChain
    · exact .inr (.inl (grows.done finished))
    · exact .inr (.inr absent)
  noted same := by
    rcases met.noted same with ⟨reported, invalid⟩
    refine ⟨grows.reported reported, ?_⟩
    by_contra valid
    simp [grows.valid (by simpa using valid)] at invalid

private theorem Cascade.Met.finish (met : cascade.Met styles root (id :: chain) reference) :
    (cascade.finish id).Met styles root chain reference where
  place := by
    rcases met.place with onChain | finished | absent
    · rcases List.mem_cons.mp onChain with same | onChain
      · exact .inr (.inl (same ▸ List.mem_cons_self))
      · exact .inl onChain
    · exact .inr (.inl (List.mem_cons_of_mem _ finished))
    · exact .inr (.inr absent)
  noted := met.noted

private theorem Cascade.Met.closeCycle (onChain : reference ∈ chain) (cascade : Cascade) :
    (cascade.closeCycle reference).Met styles root chain reference where
  place := .inl onChain
  noted same := by
    subst same
    by_cases known : reference ∈ cascade.reported
    · simp [Cascade.closeCycle, known]
    · simp [Cascade.closeCycle, known]

theorem Cascade.Closed.closeCycle (closed : cascade.Closed styles root chain)
    (reference : String) : (cascade.closeCycle reference).Closed styles root chain := by
  have same : (cascade.closeCycle reference).done = cascade.done := by
    rw [Cascade.closeCycle]
    split
    · rfl
    · rfl
  intro id finished style found other listed
  rw [same] at finished
  exact (closed id finished style found other listed).extend
    (cascade.closeCycle_extends reference)

theorem Cascade.Closed.addStyle (closed : cascade.Closed styles root chain)
    (reference : String) (style : Element) :
    (cascade.addStyle style).Closed styles root (reference :: chain) := by
  intro id finished own found other listed
  have met := closed id finished own found other listed
  exact ⟨met.place.imp_left (List.mem_cons_of_mem _), met.noted⟩

theorem Cascade.Closed.finish (closed : cascade.Closed styles root (id :: chain))
    (found : styles.find? id = some style)
    (met : ∀ reference ∈ references style,
      cascade.Met styles root (id :: chain) reference) :
    (cascade.finish id).Closed styles root chain := by
  intro finished member own ownFound reference listed
  rcases List.mem_cons.mp member with same | member
  · subst same
    cases found.symm.trans ownFound
    exact (met reference listed).finish
  · exact (closed finished member own ownFound reference listed).finish

/-- A walk looks at all references that it is to follow, and keeps the ids closed
that are done with. -/
theorem follow_covers (onChain : root ∈ chain) (pending : List String)
    (closed : cascade.Closed styles root chain) :
    (follow styles chain cascade pending).Closed styles root chain ∧
      ∀ reference ∈ pending,
        (follow styles chain cascade pending).Met styles root chain reference := by
  fun_induction follow styles chain cascade pending with
  | case1 chain cascade => exact ⟨closed, nofun⟩
  | case2 chain cascade reference rest closes induction =>
      rcases induction onChain (closed.closeCycle reference) with ⟨after, met⟩
      refine ⟨after, List.forall_mem_cons.mpr ⟨?_, met⟩⟩
      exact (Cascade.Met.closeCycle (by simpa using closes) cascade).extend
        (follow_extends _ _ _ _)
  | case3 chain cascade reference rest offChain finished induction =>
      rcases induction onChain closed with ⟨after, met⟩
      refine ⟨after, List.forall_mem_cons.mpr ⟨?_, met⟩⟩
      -- The root is on the chain, and so the reference is to another id.
      have known : cascade.Met styles root chain reference :=
        ⟨.inr (.inl (by simpa using finished)),
          fun same => absurd (by simpa [same] using onChain) offChain⟩
      exact known.extend (follow_extends _ _ _ _)
  | case4 chain cascade reference rest offChain unfinished absent induction =>
      rcases induction onChain closed with ⟨after, met⟩
      refine ⟨after, List.forall_mem_cons.mpr ⟨?_, met⟩⟩
      exact ⟨.inr (.inr absent),
        fun same => absurd (by simpa [same] using onChain) offChain⟩
  | case5 chain cascade reference rest offChain unfinished style found
      smaller inner innerInduction induction =>
      -- The walk inside has looked at all that the id refers to when it is left.
      have covers := innerInduction (List.mem_cons_of_mem _ onChain)
        (closed.addStyle reference style)
      rcases covers with ⟨innerClosed, innerMet⟩
      rcases induction onChain (innerClosed.finish found innerMet) with ⟨after, met⟩
      refine ⟨after, List.forall_mem_cons.mpr ⟨?_, met⟩⟩
      have known : (inner.finish reference).Met styles root chain reference :=
        ⟨.inr (.inl List.mem_cons_self),
          fun same => absurd (by simpa [same] using onChain) offChain⟩
      exact known.extend (follow_extends _ _ _ _)

/-! ## Whole resolutions -/

private theorem resolveFrom_covers (styles : Catalogue Element) (reported : List String)
    (id : String) (style : Element) :
    (resolveFrom styles reported id style).Closed styles id [id] ∧
      ∀ reference ∈ references style,
        (resolveFrom styles reported id style).Met styles id [id] reference :=
  follow_covers List.mem_cons_self _ nofun

private theorem mem_done_of_reaches (found : styles.find? id = some style)
    (reported : List String) {target : String}
    (reaches : ReflTransGen (Refers styles) id target) :
    target = id ∨ target ∈ (resolveFrom styles reported id style).done := by
  rcases resolveFrom_covers styles reported id style with ⟨closed, met⟩
  induction reaches with
  | refl => exact .inl rfl
  | @tail source target _ refers induction =>
      rcases refers with ⟨⟨own, ownFound, listed⟩, filed⟩
      have known : (resolveFrom styles reported id style).Met styles id [id] target := by
        rcases induction with same | finished
        · subst same
          cases found.symm.trans ownFound
          exact met target listed
        · exact closed source finished own ownFound target listed
      rcases known.place with same | finished | absent
      · exact .inl (List.mem_singleton.mp same)
      · exact .inr finished
      · rcases Catalogue.mem_keys_iff_find?.mp filed with ⟨style, leads⟩
        cases absent.symm.trans leads

/-- An id that reaches itself is reported by its own resolution. -/
theorem resolveFrom_notes_cycle (found : styles.find? id = some style)
    (cyclic : IsCyclic styles id) (reported : List String) :
    id ∈ (resolveFrom styles reported id style).reported ∧
      (resolveFrom styles reported id style).valid = false := by
  rcases resolveFrom_covers styles reported id style with ⟨closed, met⟩
  -- The last id before the cycle closes refers to the one that is resolved.
  rcases TransGen.tail'_iff.mp cyclic with ⟨last, reaches, refers, _⟩
  rcases refers with ⟨own, ownFound, listed⟩
  rcases mem_done_of_reaches found reported reaches with same | finished
  · subst same
    cases found.symm.trans ownFound
    exact (met last listed).noted rfl
  · exact (closed last finished own ownFound id listed).noted rfl

theorem resolveEach_keys (styles : Catalogue Element)
    (entries : List (String × Element)) (before : List String) :
    (resolveEach styles before entries).1.map Prod.fst = entries.map Prod.fst := by
  induction entries generalizing before with
  | nil => rfl
  | cons entry rest induction =>
      rcases entry with ⟨id, style⟩
      exact congrArg (id :: ·) (induction _)

theorem entries_resolveAll_sets (styles : Catalogue Element) :
    (resolveAll styles).sets.entries = (resolveEach styles [] styles.entries).1 := by
  apply Catalogue.entries_ofList_of_distinct
  rw [resolveEach_keys]
  exact styles.distinct

end TimedText.Style
