import TimedText.Check.Parameter
import TimedText.Proofs.Text.Digit
import TimedText.Proofs.Text.Words
import TimedText.Proofs.Verdict
/-!
Cell resolutions. The one that is filed can be computed with unless it is one whose rows are
written in digits of another script, or do not fit into 32 bits: such a resolution is taken to
be well-formed all the same.
-/

namespace TimedText.Check

open Number Style Text

/-! ## Counts of cells -/

/-- Two runs of decimal digits of any script with blanks between them. -/
def HasCellCounts (text : String) (columns rows : List Char) : Prop :=
  columns ∈ someOf isDecimalDigit ∧ rows ∈ someOf isDecimalDigit ∧
    ∃ gap ∈ someOf isBlank, text.toList = columns ++ (gap ++ rows)

/-- Whether digits name a number of rows: ASCII digits, of a number that fits into 32 bits. -/
def AreRows (digits : List Char) : Prop :=
  (∀ digit ∈ digits, isDigit digit = true) ∧ digitsValue 10 digits < 2 ^ 32

section

variable {text : String} {columns rows : List Char}

private theorem word_of_decimalDigits (digits : rows ∈ someOf isDecimalDigit) :
    rows ∈ someOf fun character => !isBlank character := by
  rcases mem_someOf_iff.mp digits with ⟨begun, all⟩
  refine mem_word_iff.mpr ⟨begun, fun character member => Bool.eq_false_iff.mpr fun blank => ?_⟩
  exact Bool.noConfusion ((all character member).symm.trans (isDecimalDigit_of_isBlank blank))

private theorem HasCellCounts.words (counts : HasCellCounts text columns rows) :
    wordsWithin text.toList = [columns, rows] := by
  rcases counts with ⟨first, second, gap, apart, same⟩
  exact (wordsWithin_eq_iff (List.cons_ne_nil _ _)).mpr (spaced_pair_iff.mpr
    ⟨word_of_decimalDigits first, word_of_decimalDigits second, gap, apart, same⟩)

private theorem cellCounts?_eq_some_iff :
    cellCounts? text = some (columns, rows) ↔ HasCellCounts text columns rows := by
  rw [cellCounts?]
  constructor
  · intro found
    split at found
    next first second cut =>
      split at found
      next digits =>
        cases found
        rw [Bool.and_eq_true, List.all_eq_true, List.all_eq_true] at digits
        rcases spaced_pair_iff.mp ((wordsWithin_eq_iff (List.cons_ne_nil _ _)).mp cut)
          with ⟨own, other, gap, apart, same⟩
        exact ⟨mem_someOf_iff.mpr ⟨(mem_word_iff.mp own).1, digits.1⟩,
          mem_someOf_iff.mpr ⟨(mem_word_iff.mp other).1, digits.2⟩, gap, apart, same⟩
      next => cases found
    next => cases found
  · intro counts
    have digits : (columns.all isDecimalDigit && rows.all isDecimalDigit) = true := by
      rw [Bool.and_eq_true, List.all_eq_true, List.all_eq_true]
      exact ⟨(mem_someOf_iff.mp counts.1).2, (mem_someOf_iff.mp counts.2.1).2⟩
    rw [counts.words]
    exact if_pos digits

/-! ## Rows -/

private theorem words_of_wordsWithin {words : List (List Char)} (some : words ≠ [])
    (cut : wordsWithin text.toList = words) : Text.words text = words.map String.ofList := by
  rw [Text.words, ((wordsWithin_eq_iff some).mp cut).blankSeparated_eq]

private theorem HasCellCounts.rows?_eq_some_iff (counts : HasCellCounts text columns rows)
    {number : Nat} :
    rows? text = some number ↔
      AreRows rows ∧ isZero rows = false ∧ digitsValue 10 rows = number := by
  rcases mem_someOf_iff.mp counts.2.1 with ⟨begun, digits⟩
  have words := words_of_wordsWithin (List.cons_ne_nil _ _) counts.words
  rw [rows?, words, List.map_cons, List.map_cons]
  dsimp only
  rw [Option.filter_eq_some_iff, decide_eq_true_eq, readNatural?_eq_some_iff begun digits]
  constructor
  · rintro ⟨⟨ascii, within, rfl⟩, positive⟩
    refine ⟨⟨ascii, within⟩, Bool.eq_false_iff.mpr fun zero => ?_, rfl⟩
    exact positive.ne' ((digitsValue_eq_zero_iff ascii).mpr zero)
  · rintro ⟨⟨ascii, within⟩, some, rfl⟩
    refine ⟨⟨ascii, within, rfl⟩, Nat.pos_of_ne_zero fun none => ?_⟩
    exact Bool.noConfusion (some.symm.trans ((digitsValue_eq_zero_iff ascii).mp none))

theorem cellHeight_isOk_iff :
    (∃ height, cellHeight (some text) = .ok height) ↔ ∃ number, rows? text = some number := by
  rw [cellHeight, rowsOf]
  cases rows? text with
  | none => simp [Except.map]
  | some number => simp [Except.map]

theorem cellHeight_of_rows?_eq_none (none : rows? text = none) :
    cellHeight (some text) = .error (.style s!"cellResolution {text} has no usable row count") := by
  simp only [cellHeight, rowsOf, none, Except.map]

theorem defaultCellResolution_usable :
    ∃ height, cellHeight (some defaultCellResolution) = .ok height :=
  cellHeight_isOk_iff.mpr ⟨15, by decide⟩

/-! ## Checking -/

private theorem checkCellCounts_valid_iff (location : String) :
    (checkCellCounts location text).valid = true ↔
      ∃ columns rows, HasCellCounts text columns rows ∧ isZero columns = false ∧
        isZero rows = false := by
  rw [checkCellCounts]
  cases found : cellCounts? text with
  | none =>
      refine iff_of_false Bool.false_ne_true ?_
      rintro ⟨columns, rows, counts, _⟩
      cases found.symm.trans (cellCounts?_eq_some_iff.mpr counts)
  | some pair =>
      rcases pair with ⟨columns, rows⟩
      dsimp only
      rw [Verdict.when_against_valid, Bool.not_eq_true', Bool.or_eq_false_iff]
      constructor
      · exact fun apart => ⟨columns, rows, cellCounts?_eq_some_iff.mp found, apart⟩
      · rintro ⟨_, _, counts, apart⟩
        cases found.symm.trans (cellCounts?_eq_some_iff.mpr counts)
        exact apart

/-- Counts of cells of which neither is zero, and of which that of the rows cannot be read. -/
def HasUnreadRows (text : String) : Prop :=
  ∃ columns rows, HasCellCounts text columns rows ∧ isZero columns = false ∧
    isZero rows = false ∧ ¬AreRows rows

theorem cellHeight_isOk_iff_of_valid {location : String}
    (valid : (checkCellCounts location text).valid = true) :
    (∃ height, cellHeight (some text) = .ok height) ↔ ¬HasUnreadRows text := by
  rcases (checkCellCounts_valid_iff location).mp valid with ⟨columns, rows, counts, some, also⟩
  have known := cellCounts?_eq_some_iff.mpr counts
  rw [cellHeight_isOk_iff]
  simp only [counts.rows?_eq_some_iff, also, true_and, exists_and_left, exists_eq', and_true]
  constructor
  · rintro countable ⟨_, _, others, _, _, unread⟩
    cases known.symm.trans (cellCounts?_eq_some_iff.mpr others)
    exact unread countable
  · exact fun read => by_contra fun unread => read ⟨columns, rows, counts, some, also, unread⟩

end

/-! ## Filing -/

section

variable {required : Bool} {root : Element} {context : Context} {text : String}

def givenCellResolution (context : Context) (root : Element) : Option String :=
  root.attribute? (Name.relative context.uri parameterFollowing "cellResolution")

theorem checkCellResolution_valid (required : Bool)
    (given : givenCellResolution context root = some text) :
    ∃ location, (checkCellResolution required context.uri root).valid
      = (checkCellCounts location text).valid := by
  rw [givenCellResolution] at given
  simp only [checkCellResolution, Verdict.affirm_valid, given]
  exact ⟨_, rfl⟩

theorem fileCellResolution_files :
    (fileCellResolution required root context).context.cellResolution =
      some (if (checkCellResolution required context.uri root).valid then
        (givenCellResolution context root).getD defaultCellResolution
      else defaultCellResolution) :=
  rfl

theorem not_hasUnreadRows_of_invalid {location : String}
    (invalid : (checkCellCounts location text).valid = false) : ¬HasUnreadRows text := by
  rintro ⟨columns, rows, counts, some, also, _⟩
  have valid := (checkCellCounts_valid_iff location).mpr ⟨columns, rows, counts, some, also⟩
  exact Bool.noConfusion (invalid.symm.trans valid)

end

/-- The cell resolution that is filed can be computed with, unless the one that is given has
rows that cannot be read: such a one is accepted, and filed as it is. -/
theorem fileCellResolution_usable_iff (required : Bool) (root : Element) (context : Context) :
    ∃ effective,
      (fileCellResolution required root context).context.cellResolution = some effective ∧
      ((∃ height, cellHeight (some effective) = .ok height) ↔
        ¬∃ text ∈ givenCellResolution context root, HasUnreadRows text) ∧
      ∀ text ∈ givenCellResolution context root, HasUnreadRows text →
        (fileCellResolution required root context).result = .ok true ∧ effective = text ∧
        cellHeight (some text)
          = .error (.style s!"cellResolution {text} has no usable row count") := by
  refine ⟨_, fileCellResolution_files, ?_⟩
  cases given : givenCellResolution context root with
  | none =>
      rw [Option.getD_none, ite_self]
      exact ⟨iff_of_true defaultCellResolution_usable nofun, nofun⟩
  | some text =>
      rcases checkCellResolution_valid required given with ⟨location, same⟩
      have valid : (fileCellResolution required root context).result
          = .ok (checkCellResolution required context.uri root).valid := rfl
      rw [Option.getD_some, valid, same]
      cases holds : (checkCellCounts location text).valid with
      | false =>
          have read := not_hasUnreadRows_of_invalid holds
          refine ⟨iff_of_true defaultCellResolution_usable ?_, ?_⟩
          · rintro ⟨_, ⟨⟩, unread⟩
            exact read unread
          · rintro _ ⟨⟩ unread
            exact absurd unread read
      | true =>
          have usable := cellHeight_isOk_iff_of_valid holds
          refine ⟨?_, ?_⟩
          · simpa using usable
          · rintro _ ⟨⟩ unread
            refine ⟨rfl, rfl, cellHeight_of_rows?_eq_none ?_⟩
            rw [cellHeight_isOk_iff] at usable
            exact Option.eq_none_iff_forall_ne_some.mpr fun number reads =>
              usable.mp ⟨number, reads⟩ unread

example : (checkCellCounts "" "32 4294967296").valid = true ∧ rows? "32 4294967296" = none := by
  decide

end TimedText.Check
