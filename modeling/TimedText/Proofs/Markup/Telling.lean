import TimedText.Markup.Event
import TimedText.Proofs.Text.Cut
/-!
The texts of events. What an event is read from ends where it can end first, so that it is
read in the same way whatever follows; only text goes on to the next construct.
-/

namespace TimedText.Markup

/-! ## Constructs -/

namespace Construct

/-- What may stand inside a construct: it ends with the next `>`. -/
def Holds (construct : Construct) (content : List Char) : Prop :=
  ∀ rest, construct.cut? (content ++ '>' :: rest) = some (content, rest)

private theorem holds_of_cut {σ : Type} {step : σ → Char → Option σ} {state : σ}
    {inside content rest : List Char}
    (closing : ∀ state character, step state character = none → character = '>')
    (found : Text.cut step state inside = some (content, rest)) :
    inside = content ++ '>' :: rest ∧
      ∀ more, Text.cut step state (content ++ '>' :: more) = some (content, more) := by
  rcases Text.cut_eq_some_iff.mp found with ⟨last, character, leads, closes, rfl⟩
  cases closing last character closes
  exact ⟨rfl, fun more => Text.cut_eq_some_iff.mpr ⟨last, '>', leads, closes, rfl⟩⟩

private theorem tagStep_closes {state : Option Char} {character : Char}
    (closes : tagStep state character = none) : state = none ∧ character = '>' := by
  cases state with
  | none =>
      rw [tagStep] at closes
      split at closes
      next same => exact ⟨rfl, by simpa using same⟩
      next => split at closes <;> cases closes
  | some quote => cases closes

private theorem markStep_closes {mark read : List Char} {least : Nat} {character : Char}
    (closes : markStep mark least read character = none) : character = '>' := by
  rw [markStep] at closes
  split at closes
  next ends => simp_all
  next => cases closes

private theorem balanceStep_closes {depth : Nat} {character : Char}
    (closes : balanceStep depth character = none) : character = '>' := by
  unfold balanceStep at closes
  split at closes
  · cases closes
  · split at closes
    next same => simpa using same
    next => cases closes

private theorem cut?_eq_some {construct : Construct} {inside content rest : List Char}
    (found : construct.cut? inside = some (content, rest)) :
    inside = content ++ '>' :: rest ∧ construct.Holds content := by
  cases construct with
  | literal => exact holds_of_cut (fun _ _ => markStep_closes) found
  | comment => exact holds_of_cut (fun _ _ => markStep_closes) found
  | docType => exact holds_of_cut (fun _ _ => balanceStep_closes) found
  | instruction => exact holds_of_cut (fun _ _ => markStep_closes) found
  | finish => exact holds_of_cut (fun _ _ closes => (tagStep_closes closes).2) found
  | start => exact holds_of_cut (fun _ _ closes => (tagStep_closes closes).2) found

theorem cut_tagStep_iff {content : List Char} :
    (∀ rest, Text.cut tagStep none (content ++ '>' :: rest) = some (content, rest)) ↔
      content.foldlM tagStep none = some none := by
  constructor
  · intro holds
    rcases Text.cut_eq_some_iff.mp (holds []) with ⟨last, character, leads, closes, same⟩
    rwa [(tagStep_closes closes).1] at leads
  · exact fun leads rest => Text.cut_eq_some_iff.mpr ⟨none, '>', leads, rfl, rfl⟩

/-! ### Kinds -/

private theorem of?_bang (second : Char) (rest : List Char) :
    of? ('!' :: second :: rest)
      = if second = '[' then some .literal
        else if second = '-' then some .comment
        else if second = 'D' ∨ second = 'd' then some .docType
        else none := by
  unfold of?
  split
  case h_5 same =>
    cases same
    simp_all
  all_goals simp_all

private theorem of?_other {first : Char} (rest : List Char) (other : first ≠ '!') :
    of? (first :: rest)
      = if first = '?' then some .instruction
        else if first = '/' then some .finish
        else some .start := by
  unfold of?
  split <;> simp_all

private theorem of?_append (content rest more : List Char) :
    of? (content ++ '>' :: rest) = of? (content ++ '>' :: more) := by
  rcases content with _ | ⟨first, content⟩
  · rfl
  · by_cases bang : first = '!'
    · subst bang
      rcases content with _ | ⟨second, content⟩ <;>
        exact (of?_bang _ _).trans (of?_bang _ _).symm
    · exact (of?_other _ bang).trans (of?_other _ bang).symm

theorem of?_eq_start_iff {inside : List Char} :
    of? inside = some .start ↔
      ∀ first ∈ inside.head?, first ≠ '!' ∧ first ≠ '?' ∧ first ≠ '/' := by
  rcases inside with _ | ⟨first, rest⟩
  · exact iff_of_true rfl nofun
  · by_cases bang : first = '!'
    · subst bang
      rcases rest with _ | ⟨second, rest⟩
      · exact iff_of_false nofun fun all => (all '!' rfl).1 rfl
      · refine iff_of_false ?_ fun all => (all '!' rfl).1 rfl
        rw [of?_bang]
        repeat' split
        all_goals nofun
    · rw [of?_other _ bang]
      split <;> simp_all

theorem of?_eq_finish {inside : List Char} (finishes : of? inside = some .finish) :
    ∃ rest, inside = '/' :: rest := by
  unfold of? at finishes
  split at finishes <;> simp_all

end Construct

/-! ## Events -/

def StopsText (next : Option Char) : Prop :=
  ∀ character ∈ next, endsText character = true

/-- The text of an event, the names of the open elements and the character after it
being given. -/
inductive Tells (opened : List (List Char)) (next : Option Char) : Event → List Char → Prop
  | markup {construct : Construct} {content : List Char} {event : Event}
      (kind : Construct.of? (content ++ ['>']) = some construct)
      (holds : construct.Holds content)
      (means : construct.event opened content = .ok event) :
      Tells opened next event ('<' :: (content ++ ['>']))
  | reference {name : List Char}
      (within : ∀ character ∈ name,
        (character != ';' && character != '&' && character != '<') = true) :
      Tells opened next (.reference name) ('&' :: (name ++ [';']))
  | text {first : Char} {rest : List Char}
      (within : ∀ character ∈ first :: rest, (!endsText character) = true)
      (stops : StopsText next) : Tells opened next (.text (first :: rest)) (first :: rest)

section

variable {opened : List (List Char)} {event : Event} {characters written rest : List Char}

theorem eq_nil_of_done (done : read opened characters = .done) : characters = [] := by
  unfold read at done
  split at done
  next => rfl
  next inside =>
    unfold readMarkup at done
    repeat' split at done
    all_goals cases done
  next named =>
    unfold readReference at done
    dsimp only at done
    split at done <;> cases done
  next => cases done

private theorem tells_of_readMarkup {inside : List Char} {shorter}
    (reads : readMarkup opened inside = .event event rest shorter) :
    ∃ written, '<' :: inside = written ++ rest ∧ Tells opened rest.head? event written := by
  unfold readMarkup at reads
  split at reads
  next => cases reads
  next construct kind =>
    split at reads
    next => cases reads
    next content after found =>
      split at reads
      next told means =>
        cases reads
        rcases Construct.cut?_eq_some found with ⟨rfl, holds⟩
        refine ⟨'<' :: (content ++ ['>']), by simp, .markup ?_ holds means⟩
        rw [← kind]
        exact Construct.of?_append content [] rest
      next => cases reads
      next => cases reads

private theorem drop_takeWhile (holds : Char → Bool) (characters : List Char) :
    characters.drop (characters.takeWhile holds).length = characters.dropWhile holds := by
  have parts : characters = characters.takeWhile holds ++ characters.dropWhile holds :=
    List.takeWhile_append_dropWhile.symm
  calc characters.drop (characters.takeWhile holds).length
      = (characters.takeWhile holds ++ characters.dropWhile holds).drop
          (characters.takeWhile holds).length := congrArg (List.drop _) parts
    _ = characters.dropWhile holds := List.drop_left

private theorem tells_of_readReference {named : List Char} {shorter}
    (reads : readReference named = .event event rest shorter) :
    ∃ written, '&' :: named = written ++ rest ∧ Tells opened rest.head? event written := by
  unfold readReference at reads
  dsimp only at reads
  split at reads
  next after found =>
    cases reads
    rw [drop_takeWhile] at found
    refine ⟨_, ?_, .reference fun _ => List.mem_takeWhile_imp⟩
    rw [List.cons_append, List.append_assoc, List.singleton_append, ← found,
      List.takeWhile_append_dropWhile]
  next => cases reads

theorem tells_of_read {shorter} (reads : read opened characters = .event event rest shorter) :
    ∃ written, characters = written ++ rest ∧ Tells opened rest.head? event written := by
  unfold read at reads
  split at reads
  next => cases reads
  next inside => exact tells_of_readMarkup reads
  next named => exact tells_of_readReference reads
  next first more notMarkup notReference =>
    cases reads
    have plain : (!endsText first) = true := by
      simp only [endsText, Bool.not_eq_true', Bool.or_eq_false_iff, beq_eq_false_iff_ne]
      exact ⟨notMarkup, notReference⟩
    refine ⟨_, ?_,
      .text (List.forall_mem_cons.mpr ⟨plain, fun _ => List.mem_takeWhile_imp⟩) ?_⟩
    · rw [List.cons_append, List.takeWhile_append_dropWhile]
    · intro character next
      simpa using Text.head?_dropWhile character next

private theorem read_of_construct {construct : Construct} {content : List Char}
    (kind : Construct.of? (content ++ ['>']) = some construct)
    (holds : construct.Holds content) (means : construct.event opened content = .ok event) :
    ∃ shorter, read opened ('<' :: (content ++ '>' :: rest)) = .event event rest shorter := by
  have shorter : rest.length < ('<' :: (content ++ '>' :: rest)).length := by
    simp only [List.length_cons, List.length_append]
    omega
  refine ⟨shorter, ?_⟩
  have kind : Construct.of? (content ++ '>' :: rest) = some construct :=
    (Construct.of?_append content rest []).trans kind
  change readMarkup opened (content ++ '>' :: rest) = .event event rest shorter
  unfold readMarkup
  split
  next unknown =>
    rw [kind] at unknown
    cases unknown
  next found known =>
    rw [kind] at known
    cases known
    split
    next unclosed =>
      rw [holds rest] at unclosed
      cases unclosed
    next cut =>
      rw [holds rest] at cut
      cases cut
      split
      next told tells =>
        rw [means] at tells
        cases tells
        rfl
      all_goals simp_all

private theorem read_of_reference {name : List Char}
    (within : ∀ character ∈ name,
      (character != ';' && character != '&' && character != '<') = true) :
    ∃ shorter, read opened ('&' :: (name ++ ';' :: rest))
      = .event (.reference name) rest shorter := by
  have shorter : rest.length < ('&' :: (name ++ ';' :: rest)).length := by
    simp only [List.length_cons, List.length_append]
    omega
  refine ⟨shorter, ?_⟩
  have stops : ∀ character ∈ (';' :: rest).head?,
      (character != ';' && character != '&' && character != '<') = false := by
    rintro _ ⟨⟩
    rfl
  have taken := Text.takeWhile_append_stop within stops
  have left := Text.dropWhile_append_stop within stops
  change readReference (name ++ ';' :: rest) = .event _ rest shorter
  unfold readReference
  dsimp only
  split
  next after found =>
    rw [drop_takeWhile, left] at found
    cases found
    simp only [taken]
  next other =>
    exact absurd ((drop_takeWhile _ _).trans left) (other rest)

theorem Tells.reads (tells : Tells opened rest.head? event written) :
    ∃ shorter, read opened (written ++ rest) = .event event rest shorter := by
  cases tells with
  | @markup construct content _ kind holds means =>
      have same : '<' :: (content ++ ['>']) ++ rest = '<' :: (content ++ '>' :: rest) := by simp
      rw [same]
      exact read_of_construct kind holds means
  | @reference name within =>
      have same : '&' :: (name ++ [';']) ++ rest = '&' :: (name ++ ';' :: rest) := by simp
      rw [same]
      exact read_of_reference within
  | @text first more within stops =>
      have begins := within first List.mem_cons_self
      have goesOn : ∀ character ∈ more, (!endsText character) = true :=
        fun character member => within character (List.mem_cons_of_mem _ member)
      have ends : ∀ character ∈ rest.head?, (!endsText character) = false := by
        intro character next
        rw [stops character next]
        rfl
      have taken := Text.takeWhile_append_stop goesOn ends
      have left := Text.dropWhile_append_stop goesOn ends
      have shorter : rest.length < (first :: more ++ rest).length := by
        simp only [List.length_append, List.length_cons]
        omega
      refine ⟨shorter, ?_⟩
      change read opened (first :: (more ++ rest)) = _
      rw [read]
      · simp only [taken, left]
      · rintro rfl
        cases begins
      · rintro rfl
        cases begins

end

end TimedText.Markup
