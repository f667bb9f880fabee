import Mathlib.Data.List.TakeDrop
import Mathlib.Data.List.TakeWhile
import TimedText.Text.Cut
/-!
Texts in two parts. A text is cut at its first closing character if the characters
before that lead the state on, none of them closing; and it is split where a run of
characters of one kind ends.
-/

namespace TimedText.Text

/-! ## Closing characters -/

section

variable {σ : Type} {step : σ → Char → Option σ} {state : σ}
  {characters before after : List Char}

theorem foldlM_append_eq_some_iff {last : σ} :
    (before ++ after).foldlM step state = some last ↔
      ∃ next, before.foldlM step state = some next ∧ after.foldlM step next = some last := by
  rw [List.foldlM_append]
  exact Option.bind_eq_some_iff

theorem cut_eq_some_iff :
    cut step state characters = some (before, after) ↔
      ∃ last closing, before.foldlM step state = some last ∧ step last closing = none ∧
        characters = before ++ closing :: after := by
  induction characters generalizing state before with
  | nil => simp [cut]
  | cons character rest induction =>
      rw [cut]
      cases goes : step state character with
      | none =>
          constructor
          · rintro ⟨⟩
            exact ⟨state, character, rfl, goes, rfl⟩
          · rintro ⟨last, closing, leads, closes, same⟩
            cases before with
            | nil =>
                cases same
                rfl
            | cons first before =>
                cases same
                rw [List.foldlM_cons, goes] at leads
                cases leads
      | some next =>
          constructor
          · intro found
            cases further : cut step next rest with
            | none => simp [further] at found
            | some halves =>
                simp only [further, Option.some.injEq, Prod.mk.injEq] at found
                rcases found with ⟨rfl, rfl⟩
                rcases induction.mp further with ⟨last, closing, leads, closes, rfl⟩
                refine ⟨last, closing, ?_, closes, rfl⟩
                rw [List.foldlM_cons, goes]
                exact leads
          · rintro ⟨last, closing, leads, closes, same⟩
            cases before with
            | nil =>
                cases same
                cases leads
                rw [goes] at closes
                cases closes
            | cons first before =>
                cases same
                rw [List.foldlM_cons, goes] at leads
                have further : cut step next (before ++ closing :: after)
                    = some (before, after) :=
                  induction.mpr ⟨last, closing, leads, closes, rfl⟩
                simp [further]

theorem cut_eq_none_of_leads {last : σ} (leads : characters.foldlM step state = some last) :
    cut step state characters = none := by
  refine Option.eq_none_iff_forall_ne_some.mpr fun ⟨before, after⟩ found => ?_
  rcases cut_eq_some_iff.mp found with ⟨there, closing, front, closes, rfl⟩
  rcases foldlM_append_eq_some_iff.mp leads with ⟨next, again, further⟩
  cases Option.some.inj (front.symm.trans again)
  rw [List.foldlM_cons, closes] at further
  cases further

end

/-! ## Runs of one kind -/

section

variable {α : Type} {holds : α → Bool} {members front rest : List α}

theorem takeWhile_append_stop (all : ∀ member ∈ front, holds member = true)
    (stops : ∀ member ∈ rest.head?, holds member = false) :
    (front ++ rest).takeWhile holds = front := by
  rw [List.takeWhile_append_of_pos all]
  cases rest with
  | nil => exact List.append_nil front
  | cons first rest => simp [stops first rfl]

theorem dropWhile_append_stop (all : ∀ member ∈ front, holds member = true)
    (stops : ∀ member ∈ rest.head?, holds member = false) :
    (front ++ rest).dropWhile holds = rest := by
  rw [List.dropWhile_append_of_pos all]
  cases rest with
  | nil => rfl
  | cons first rest => simp [stops first rfl]

theorem head?_dropWhile (member : α)
    (first : member ∈ (members.dropWhile holds).head?) : holds member = false := by
  have stops := List.head?_dropWhile_not holds members
  rw [Option.mem_def.mp first] at stops
  exact stops

theorem span_eq_iff :
    members.span holds = (front, rest) ↔
      members = front ++ rest ∧ (∀ member ∈ front, holds member = true) ∧
        ∀ member ∈ rest.head?, holds member = false := by
  rw [List.span_eq_takeWhile_dropWhile, Prod.mk.injEq]
  constructor
  · rintro ⟨rfl, rfl⟩
    exact ⟨List.takeWhile_append_dropWhile.symm, fun _ => List.mem_takeWhile_imp,
      head?_dropWhile⟩
  · rintro ⟨rfl, all, stops⟩
    exact ⟨takeWhile_append_stop all stops, dropWhile_append_stop all stops⟩

theorem takeWhile_eq_iff :
    members.takeWhile holds = front ↔
      ∃ rest, members = front ++ rest ∧ (∀ member ∈ front, holds member = true) ∧
        ∀ member ∈ rest.head?, holds member = false := by
  constructor
  · rintro rfl
    exact ⟨_, span_eq_iff.mp (List.span_eq_takeWhile_dropWhile holds members)⟩
  · rintro ⟨rest, rfl, all, stops⟩
    exact takeWhile_append_stop all stops

theorem dropWhile_eq_cons_iff {first : α} :
    members.dropWhile holds = first :: rest ↔
      holds first = false ∧ ∃ front, (∀ member ∈ front, holds member = true) ∧
        members = front ++ first :: rest := by
  constructor
  · intro left
    refine ⟨head?_dropWhile first (by rw [left]; rfl), members.takeWhile holds,
      fun _ => List.mem_takeWhile_imp, ?_⟩
    rw [← left]
    exact List.takeWhile_append_dropWhile.symm
  · rintro ⟨stops, front, all, rfl⟩
    refine dropWhile_append_stop all ?_
    rintro _ ⟨⟩
    exact stops

end

section

variable {stop first : Char} {characters front rest : List Char}

theorem span_bne_eq_iff :
    characters.span (· != stop) = (front, first :: rest) ↔
      first = stop ∧ stop ∉ front ∧ characters = front ++ stop :: rest := by
  rw [span_eq_iff]
  constructor
  · rintro ⟨rfl, all, stops⟩
    have same : first = stop := by simpa using stops first rfl
    subst same
    exact ⟨rfl, fun member => bne_iff_ne.mp (all first member) rfl, rfl⟩
  · rintro ⟨rfl, none, rfl⟩
    refine ⟨rfl, fun character member => bne_iff_ne.mpr fun same => none (same ▸ member), ?_⟩
    rintro _ ⟨⟩
    exact bne_self_eq_false first

theorem not_mem_of_span_bne
    (whole : characters.span (· != stop) = (front, [])) : stop ∉ characters := by
  rcases span_eq_iff.mp whole with ⟨rfl, all, -⟩
  rw [List.append_nil]
  exact fun member => bne_iff_ne.mp (all stop member) rfl

end

end TimedText.Text
