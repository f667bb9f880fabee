import Mathlib.Data.List.Basic
import Mathlib.Data.List.Pairwise
import TimedText.Markup.Element
/-!
The order in which the elements of a document are visited. A walk works off a stack of elements
that are still to come, and visits what a recursion from the root visits: each place of the tree
once, in the order of the paths.
-/

namespace TimedText

/-! ## Stacks -/

/-- A stack is worked off from its end: what is below an item that is taken comes in its place,
the first of it last, so that it is taken next. -/
inductive WorksOff {α : Type} (below : α → List α) : List α → List α → Prop
  | done : WorksOff below [] []
  | next {stack order : List α} {item : α}
      (further : WorksOff below (stack ++ (below item).reverse) order) :
      WorksOff below (stack ++ [item]) (item :: order)

/-- What is still to be taken off a stack is what a walk of it, its end first, comes to. -/
theorem WorksOff.order_eq {α : Type} {below : α → List α} {walk : List α → List α}
    (none : walk [] = [])
    (first : ∀ item rest, walk (item :: rest) = item :: walk (below item ++ rest))
    {stack order : List α} (works : WorksOff below stack order) : order = walk stack.reverse := by
  induction works with
  | done => exact none.symm
  | next further induction =>
      rw [List.reverse_append, List.reverse_reverse] at induction
      rw [List.reverse_append, List.reverse_singleton, List.singleton_append, first, ← induction]

private theorem WorksOff.cons {α : Type} {below : α → List α} {item : α} {rest order : List α}
    (works : WorksOff below (below item ++ rest).reverse order) :
    WorksOff below (item :: rest).reverse (item :: order) := by
  rw [List.reverse_append] at works
  rw [List.reverse_cons]
  exact .next works

namespace Element

/-! ## Elements -/

mutual

def preorder : Element → List Element
  | ⟨tag, attributes, children, text, tail⟩ =>
    ⟨tag, attributes, children, text, tail⟩ :: preorderAll children

def preorderAll : List Element → List Element
  | [] => []
  | first :: rest => first.preorder ++ preorderAll rest

end

private theorem preorderAll_append (first second : List Element) :
    preorderAll (first ++ second) = preorderAll first ++ preorderAll second := by
  induction first with
  | nil => rfl
  | cons element rest induction =>
      rw [List.cons_append, preorderAll, preorderAll, induction, List.append_assoc]

private theorem preorderAll_cons (element : Element) (rest : List Element) :
    preorderAll (element :: rest) = element :: preorderAll (element.children ++ rest) := by
  cases element
  rw [preorderAll, preorder, preorderAll_append, List.cons_append]

private theorem walkAll_eq_preorderAll (pending : List Element) :
    walkAll pending = preorderAll pending := by
  fun_induction walkAll pending with
  | case1 => rfl
  | case2 element rest induction => rw [preorderAll_cons, induction]

theorem walk_eq_preorder (root : Element) : root.walk = root.preorder := by
  rw [walk, walkAll_eq_preorderAll, preorderAll, preorderAll, List.append_nil]

theorem worksOff_walkAll (pending : List Element) :
    WorksOff children pending.reverse (walkAll pending) := by
  fun_induction walkAll pending with
  | case1 => exact .done
  | case2 element rest induction => exact induction.cons

/-! ## Places -/

def placedBelow (placed : Path × Element) : List (Path × Element) :=
  placed.2.placedChildren placed.1

theorem worksOff_walkPlacedAll (pending : List (Path × Element)) :
    WorksOff placedBelow pending.reverse (walkPlacedAll pending) := by
  fun_induction walkPlacedAll pending with
  | case1 => exact .done
  | case2 path element rest induction =>
      have works : WorksOff placedBelow (placedBelow (path, element) ++ rest).reverse _ := induction
      exact works.cons

theorem map_walkPlacedAll (pending : List (Path × Element)) :
    (walkPlacedAll pending).map Prod.snd = walkAll (pending.map Prod.snd) := by
  fun_induction walkPlacedAll pending with
  | case1 => rw [List.map_nil, walkAll]
  | case2 path element rest induction =>
      rw [List.map_cons, List.map_cons, walkAll, induction, List.map_append,
        map_placedChildren]

/-- An element is found at a path that goes on from the path of an element around it, or from its
own. -/
def Contains (placed inner : Path × Element) : Prop :=
  ∃ steps, inner.1 = placed.1 ++ steps ∧ placed.2.at? steps = some inner.2

private theorem mem_placedChildren_iff {path : Path} {element : Element} {placed : Path × Element} :
    placed ∈ element.placedChildren path ↔
      ∃ index, placed.1 = path ++ [index] ∧ element.children[index]? = some placed.2 := by
  rcases placed with ⟨place, child⟩
  rw [placedChildren, List.mem_map]
  constructor
  · rintro ⟨⟨child, index⟩, member, ⟨⟩⟩
    exact ⟨index, rfl, List.mk_mem_zipIdx_iff_getElem?.mp member⟩
  · rintro ⟨index, rfl, here⟩
    exact ⟨(child, index), List.mk_mem_zipIdx_iff_getElem?.mpr here, rfl⟩

private theorem contains_iff {path : Path} {element : Element} {inner : Path × Element} :
    Contains (path, element) inner ↔
      inner = (path, element) ∨
        ∃ child ∈ element.placedChildren path, Contains child inner := by
  rcases inner with ⟨place, found⟩
  constructor
  · rintro ⟨steps, rfl, here⟩
    cases steps with
    | nil =>
        cases here
        exact .inl (congrArg (·, element) (List.append_nil path))
    | cons index steps =>
        rcases Option.bind_eq_some_iff.mp here with ⟨child, among, further⟩
        refine .inr ⟨(path ++ [index], child), mem_placedChildren_iff.mpr ⟨index, rfl, among⟩,
          steps, ?_, further⟩
        exact List.append_cons path index steps
  · rintro (⟨⟨⟩⟩ | ⟨⟨_, child⟩, member, steps, rfl, further⟩)
    · exact ⟨[], (List.append_nil path).symm, rfl⟩
    · rcases mem_placedChildren_iff.mp member with ⟨index, rfl, among⟩
      exact ⟨index :: steps, (List.append_cons path index steps).symm,
        Option.bind_eq_some_iff.mpr ⟨child, among, further⟩⟩

theorem mem_walkPlacedAll_iff {pending : List (Path × Element)} {inner : Path × Element} :
    inner ∈ walkPlacedAll pending ↔ ∃ placed ∈ pending, Contains placed inner := by
  fun_induction walkPlacedAll pending with
  | case1 => simp
  | case2 path element rest induction =>
      rw [List.mem_cons, induction, List.exists_mem_cons_iff, contains_iff, or_assoc]
      simp only [List.mem_append, or_and_right, exists_or]

/-! ## The order of the paths -/

/-- All paths that go on from one path come before all that go on from another one. -/
def Precedes (first second : Path) : Prop :=
  ∀ steps others, first ++ steps < second ++ others

private theorem Precedes.longer {first second : Path} (before : Precedes first second)
    (steps : Path) :
    Precedes (first ++ steps) second := by
  intro further others
  rw [List.append_assoc]
  exact before _ _

private theorem precedes_of_lt (path : Path) {index other : Nat} (before : index < other) :
    Precedes (path ++ [index]) (path ++ [other]) := by
  intro steps others
  rw [List.append_assoc, List.append_assoc]
  exact List.append_left_lt (List.cons_lt_cons_iff.mpr (.inl before))

private theorem lt_append_cons (path steps : Path) (index : Nat) :
    path < path ++ index :: steps := by
  have longer : path ++ [] < path ++ index :: steps := List.append_left_lt (List.nil_lt_cons _ _)
  rwa [List.append_nil] at longer

private theorem placedChildren_ordered (path : Path) (element : Element) :
    (element.placedChildren path).Pairwise fun first second => Precedes first.1 second.1 := by
  have places : (element.children.zipIdx.map Prod.snd).Pairwise (· < ·) := by
    rw [List.zipIdx_map_snd]
    exact List.pairwise_lt_range'
  rw [placedChildren, List.pairwise_map]
  exact (List.pairwise_map.mp places).imp (precedes_of_lt path)

/-- If the pending elements are in order, so is all that a walk of them comes to. -/
theorem walkPlacedAll_ordered {pending : List (Path × Element)}
    (ordered : pending.Pairwise fun first second => Precedes first.1 second.1) :
    (walkPlacedAll pending).Pairwise fun first second => first.1 < second.1 := by
  fun_induction walkPlacedAll pending with
  | case1 => exact .nil
  | case2 path element rest induction =>
      rcases List.pairwise_cons.mp ordered with ⟨before, later⟩
      refine List.pairwise_cons.mpr ⟨fun inner member => ?_, induction ?_⟩
      · rcases mem_walkPlacedAll_iff.mp member with ⟨placed, among, steps, here, -⟩
        rw [here]
        rcases List.mem_append.mp among with child | other
        · rcases mem_placedChildren_iff.mp child with ⟨index, place, -⟩
          rw [place, ← List.append_cons]
          exact lt_append_cons path steps index
        · exact List.append_nil path ▸ before placed other [] steps
      · refine List.pairwise_append.mpr
          ⟨placedChildren_ordered path element, later, fun child member placed other => ?_⟩
        rcases mem_placedChildren_iff.mp member with ⟨index, place, -⟩
        rw [place]
        exact (before placed other).longer [index]

/-! ## Walks -/

/-- A walk visits what a recursion from the root visits, in the same order, and so does a walk with
paths. Each place of the tree is visited once, and the paths increase. -/
theorem walks_in_document_order (root : Element) :
    (∀ order, WorksOff children [root] order ↔ order = root.walk) ∧
      root.walk = root.preorder ∧
      (∀ order, WorksOff placedBelow [([], root)] order ↔ order = root.walkPlaced) ∧
      root.walkPlaced.map Prod.snd = root.walk ∧
      (root.walkPlaced.map Prod.fst).Pairwise (· < ·) ∧
      (root.walkPlaced.map Prod.fst).Nodup ∧
      ∀ path element, (path, element) ∈ root.walkPlaced ↔ root.at? path = some element := by
  have ordered : (root.walkPlaced.map Prod.fst).Pairwise (· < ·) :=
    List.pairwise_map.mpr (walkPlacedAll_ordered (List.pairwise_singleton _ _))
  refine ⟨fun order => ⟨fun works => ?_, ?_⟩, root.walk_eq_preorder,
    fun order => ⟨fun works => ?_, ?_⟩, map_walkPlacedAll [([], root)], ordered,
    List.Pairwise.imp ?_ ordered, fun path element => ?_⟩
  · exact works.order_eq (by rw [walkAll]) fun _ _ => by rw [walkAll]
  · rintro rfl
    exact worksOff_walkAll [root]
  · exact works.order_eq (by rw [walkPlacedAll]) fun _ _ => by rw [walkPlacedAll]; rfl
  · rintro rfl
    exact worksOff_walkPlacedAll [([], root)]
  · intro first second less same
    exact List.lt_irrefl _ (same ▸ less)
  · rw [walkPlaced, mem_walkPlacedAll_iff]
    simp [Contains]

end Element

end TimedText
