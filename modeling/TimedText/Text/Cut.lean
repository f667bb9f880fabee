/-!
The cutting of text at its first closing character, which a state carried from
character to character finds, and the length of text in bytes.
-/

namespace TimedText.Text

def byteLength (characters : List Char) : Nat :=
  characters.foldl (fun length character => length + character.utf8Size) 0

/-- What stands before and after the first character that closes. A step gives
the state after a character, or nothing if the character closes. -/
def cut {σ : Type} (step : σ → Char → Option σ) (state : σ) :
    List Char → Option (List Char × List Char)
  | [] => none
  | character :: rest =>
    match step state character with
    | none => some ([], rest)
    | some state =>
      match cut step state rest with
      | some (before, after) => some (character :: before, after)
      | none => none

theorem cut_shorter {σ : Type} {step : σ → Char → Option σ} {state : σ}
    {characters before after : List Char}
    (found : cut step state characters = some (before, after)) :
    after.length < characters.length := by
  induction characters generalizing state before with
  | nil => simp [cut] at found
  | cons character rest induction =>
    rw [cut] at found
    split at found
    · cases found
      exact Nat.lt_succ_self _
    · split at found
      · rename_i following
        cases found
        exact Nat.lt_succ_of_lt (induction following)
      · cases found

end TimedText.Text
