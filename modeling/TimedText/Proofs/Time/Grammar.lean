import TimedText.Proofs.Number.Reading
import TimedText.Proofs.Text.Language
import TimedText.Time.Parameters
/-!
The grammar of time expressions. Each kind of time expression is a language, no text is in
two of them, and every reader of time expressions goes by these languages.
-/

namespace TimedText.Time

open Number Text
open scoped Computability

/-! ## Languages -/

def twoDigits : Language Char := oneOf isDigit * oneOf isDigit

def belowSixty : Language Char :=
  oneOf (fun character => '0' ≤ character && character ≤ '5') * oneOf isDigit

def colon : Language Char := oneOf (· == ':')

def fraction : Language Char := 1 + oneOf (· == '.') * someOf isDigit

def Metric.symbol : Metric → List Char
  | .hours => ['h']
  | .minutes => ['m']
  | .seconds => ['s']
  | .milliseconds => ['m', 's']
  | .frames => ['f']
  | .ticks => ['t']

def offsetsIn (metric : Metric) : Language Char :=
  someOf isDigit * fraction * {metric.symbol}

def Kind.language : Kind → Language Char
  | .clock => twoDigits * (oneOf isDigit)∗ * colon * belowSixty * colon * belowSixty * fraction
  | .offset => ⨆ metric, offsetsIn metric
  | .frame => twoDigits * colon * belowSixty * colon * belowSixty * colon * twoDigits

/-! ## Digits -/

section

variable {characters : List Char}

theorem mem_twoDigits_iff :
    characters ∈ twoDigits ↔
      characters.length = 2 ∧ ∀ character ∈ characters, isDigit character = true := by
  simp only [twoDigits, Language.mem_mul, mem_oneOf_iff]
  constructor
  · rintro ⟨_, ⟨tens, tensDigit, rfl⟩, _, ⟨units, unitsDigit, rfl⟩, rfl⟩
    simp [tensDigit, unitsDigit]
  · intro ⟨two, digits⟩
    match characters with
    | [tens, units] =>
        exact ⟨[tens], ⟨tens, digits tens (by simp), rfl⟩, [units],
          ⟨units, digits units (by simp), rfl⟩, rfl⟩

private theorem areDigits_iff :
    areDigits 2 characters = true ↔ characters ∈ twoDigits * (oneOf isDigit)∗ := by
  simp only [areDigits, Bool.and_eq_true, decide_eq_true_eq, List.all_eq_true,
    Language.mem_mul, mem_twoDigits_iff, mem_kstar_oneOf_iff]
  constructor
  · intro ⟨long, digits⟩
    refine ⟨characters.take 2, ⟨by simp [long], fun character member => ?_⟩,
      characters.drop 2, fun character member => ?_, List.take_append_drop 2 characters⟩
    · exact digits character (List.mem_of_mem_take member)
    · exact digits character (List.mem_of_mem_drop member)
  · rintro ⟨front, ⟨two, own⟩, rest, further, rfl⟩
    refine ⟨by simp [two], fun character member => ?_⟩
    exact (List.mem_append.mp member).elim (own character) (further character)

private theorem digits_of_areDigits {least : Nat} (digits : areDigits least characters = true) :
    ∀ character ∈ characters, isDigit character = true := by
  rw [areDigits, Bool.and_eq_true] at digits
  exact List.all_eq_true.mp digits.2

private theorem areBelowSixty_iff : areBelowSixty characters = true ↔ characters ∈ belowSixty := by
  simp only [belowSixty, Language.mem_mul, mem_oneOf_iff]
  constructor
  · intro below
    match characters with
    | [tens, units] =>
        rw [areBelowSixty, Bool.and_eq_true] at below
        exact ⟨[tens], ⟨tens, below.1, rfl⟩, [units], ⟨units, below.2, rfl⟩, rfl⟩
    | [] | [_] | _ :: _ :: _ :: _ => cases below
  · rintro ⟨_, ⟨tens, small, rfl⟩, _, ⟨units, digit, rfl⟩, rfl⟩
    rw [List.singleton_append, areBelowSixty, Bool.and_eq_true]
    exact ⟨small, digit⟩

private theorem length_of_belowSixty (below : characters ∈ belowSixty) : characters.length = 2 := by
  rcases Language.mem_mul.mp below with ⟨_, ⟨_, _, rfl⟩, _, ⟨_, _, rfl⟩, rfl⟩
  rfl

private theorem isDigit_of_belowSixty (below : characters ∈ belowSixty) :
    characters ∈ someOf isDigit := by
  rcases Language.mem_mul.mp below
    with ⟨_, ⟨tens, small, rfl⟩, _, ⟨units, digit, rfl⟩, rfl⟩
  rw [Bool.and_eq_true, decide_eq_true_eq, decide_eq_true_eq] at small
  have five : '5' ≤ '9' := by decide
  have tensDigit : isDigit tens = true := by
    rw [isDigit, Bool.and_eq_true, decide_eq_true_eq, decide_eq_true_eq]
    exact ⟨small.1, Char.le_trans small.2 five⟩
  exact mem_someOf_iff.mpr ⟨by simp, by simp [tensDigit, digit]⟩

theorem mem_mul_pointed_iff {wholes : Language Char} {holds : Char → Bool}
    (digits : wholes ≤ someOf isDigit)
    (kind : ∀ character, holds character = true → isDigit character = true) :
    characters ∈ wholes * (1 + oneOf (· == '.') * someOf holds) ↔
      ∃ numeral : Numeral, numeral.IsWritten ∧ numeral.whole ∈ wholes ∧
        (∀ digit ∈ numeral.fraction.getD [], holds digit = true) ∧
        numeral.chars = characters := by
  rw [Language.mem_mul]
  constructor
  · rintro ⟨whole, member, after, further, rfl⟩
    rcases mem_someOf_iff.mp (digits member) with ⟨begun, all⟩
    rcases mem_marked_iff.mp further with rfl | ⟨places, member', rfl⟩
    · exact ⟨⟨whole, none⟩, ⟨all, begun, nofun, nofun⟩, member, nofun,
        (List.append_nil whole).symm⟩
    · rcases mem_someOf_iff.mp member' with ⟨ended, own⟩
      exact ⟨⟨whole, some places⟩, Numeral.isWritten_pointed all begun
        (fun digit among => kind digit (own digit among)) ended, member, own, rfl⟩
  · rintro ⟨⟨whole, places⟩, written, member, own, rfl⟩
    refine ⟨whole, member, ?_⟩
    cases places with
    | none => exact ⟨[], mem_marked_iff.mpr (.inl rfl), List.append_nil whole⟩
    | some places =>
        have digits : places ∈ someOf holds :=
          mem_someOf_iff.mpr ⟨written.ended places rfl, own⟩
        exact ⟨'.' :: places, mem_marked_iff.mpr (.inr ⟨places, digits, rfl⟩), rfl⟩

theorem mem_mul_fraction_iff {wholes : Language Char} (digits : wholes ≤ someOf isDigit) :
    characters ∈ wholes * fraction ↔
      ∃ numeral : Numeral, numeral.IsWritten ∧ numeral.whole ∈ wholes ∧
        numeral.chars = characters := by
  refine (mem_mul_pointed_iff digits fun _ digit => digit).trans
    (exists_congr fun numeral => and_congr_right fun written => and_congr_right fun _ => ?_)
  exact and_iff_right written.isDigit_of_mem_fraction

private theorem ofChars?_eq_some_iff {numeral : Numeral} :
    Numeral.ofChars? characters = some numeral ↔
      numeral.IsWritten ∧ numeral.chars = characters := by
  rw [Numeral.ofChars?]
  constructor
  · intro found
    split at found
    next taken =>
      cases found
      rcases Numeral.take?_isWritten taken with ⟨written, same⟩
      exact ⟨written, by rw [same, List.append_nil]⟩
    next => cases found
  · rintro ⟨written, rfl⟩
    have taken : Numeral.take? (numeral.chars ++ []) = some (numeral, []) :=
      Numeral.take?_chars_append written (by simp)
    rw [List.append_nil] at taken
    rw [taken]

end

/-! ## Texts between colons -/

private theorem colon_not_mem_digits {digits : List Char}
    (all : ∀ character ∈ digits, isDigit character = true) : ':' ∉ digits :=
  fun member => absurd (all ':' member) (by decide)

theorem colon_not_mem_numeral {numeral : Numeral} (written : numeral.IsWritten) :
    ':' ∉ numeral.chars := by
  intro member
  have apart : ¬(isDigit ':' = true ∨ ':' = '.') := by decide
  exact apart (isDigit_or_point_of_mem_chars written ':' member)

section

variable {text : String}

theorem parts_eq_iff {pieces : List (List Char)} (some : pieces ≠ []) :
    parts text = pieces ↔
      (∀ piece ∈ pieces, ':' ∉ piece) ∧ text.toList = [':'].intercalate pieces :=
  pieces_eq_iff some

private theorem mem_clock_iff :
    text.toList ∈ Kind.clock.language ↔
      ∃ hours ∈ twoDigits * (oneOf isDigit)∗, ∃ minutes ∈ belowSixty,
        ∃ seconds ∈ belowSixty * fraction,
          text.toList = hours ++ ':' :: (minutes ++ ':' :: seconds) := by
  have assoc : Kind.clock.language = twoDigits * (oneOf isDigit)∗ *
      (colon * (belowSixty * (colon * (belowSixty * fraction)))) := by
    simp only [Kind.language, mul_assoc]
  rw [assoc, colon]
  simp only [mem_mul_separator_iff]
  constructor
  · rintro ⟨hours, first, _, ⟨minutes, second, seconds, third, rfl⟩, same⟩
    exact ⟨hours, first, minutes, second, seconds, third, same⟩
  · rintro ⟨hours, first, minutes, second, seconds, third, same⟩
    exact ⟨hours, first, _, ⟨minutes, second, seconds, third, rfl⟩, same⟩

theorem isClockTime_parts :
    isClockTime text = true ↔
      ∃ hours minutes seconds numeral, parts text = [hours, minutes, seconds] ∧
        areDigits 2 hours = true ∧ areBelowSixty minutes = true ∧
        Numeral.ofChars? seconds = some numeral ∧ areBelowSixty numeral.whole = true := by
  rw [isClockTime, ClockTime.read?]
  constructor
  · intro reads
    split at reads
    next hours minutes seconds same =>
      split at reads
      next clock =>
        split at reads
        next numeral named =>
          split at reads
          next below =>
            rw [Bool.and_eq_true] at clock
            exact ⟨hours, minutes, seconds, numeral, same, clock.1, clock.2, named, below⟩
          next => cases reads
        next => cases reads
      next => cases reads
    next => cases reads
  · rintro ⟨hours, minutes, seconds, numeral, same, first, second, named, below⟩
    simp [same, first, second, named, below]

theorem isClockTime_iff : isClockTime text = true ↔ text.toList ∈ Kind.clock.language := by
  rw [isClockTime_parts, mem_clock_iff]
  constructor
  · rintro ⟨hours, minutes, seconds, numeral, same, first, second, named, below⟩
    refine ⟨hours, areDigits_iff.mp first, minutes, areBelowSixty_iff.mp second, seconds, ?_, ?_⟩
    · rcases ofChars?_eq_some_iff.mp named with ⟨written, chars⟩
      exact (mem_mul_fraction_iff fun _ => isDigit_of_belowSixty).mpr
        ⟨numeral, written, areBelowSixty_iff.mp below, chars⟩
    · simpa using ((parts_eq_iff (by simp)).mp same).2
  · rintro ⟨hours, first, minutes, second, seconds, third, same⟩
    rcases (mem_mul_fraction_iff fun _ => isDigit_of_belowSixty).mp third
      with ⟨numeral, written, below, rfl⟩
    refine ⟨hours, minutes, numeral.chars, numeral, ?_, areDigits_iff.mpr first,
      areBelowSixty_iff.mpr second, ofChars?_eq_some_iff.mpr ⟨written, rfl⟩,
      areBelowSixty_iff.mpr below⟩
    have inHours := colon_not_mem_digits (digits_of_areDigits (areDigits_iff.mpr first))
    have inMinutes := colon_not_mem_digits
      (mem_someOf_iff.mp (isDigit_of_belowSixty second)).2
    refine (parts_eq_iff (by simp)).mpr ⟨?_, by simpa using same⟩
    simp [inHours, inMinutes, colon_not_mem_numeral written]

/-! ## Offsets -/

private theorem Metric.ofChars?_eq_some_iff {characters : List Char} {metric : Metric} :
    Metric.ofChars? characters = some metric ↔ characters = metric.symbol := by
  constructor
  · intro found
    revert found
    fun_cases Metric.ofChars? characters <;> rintro ⟨⟩ <;> rfl
  · rintro rfl
    cases metric <;> rfl

theorem Offset.read?_eq_some_iff {offset : Offset} :
    Offset.read? text = some offset ↔
      offset.count.IsWritten ∧ text.toList = offset.count.chars ++ offset.metric.symbol := by
  rw [Offset.read?]
  constructor
  · intro reads
    split at reads
    next count rest taken =>
      rcases Option.map_eq_some_iff.mp reads with ⟨metric, named, rfl⟩
      rcases Numeral.take?_isWritten taken with ⟨written, same⟩
      exact ⟨written, Metric.ofChars?_eq_some_iff.mp named ▸ same⟩
    next => cases reads
  · intro ⟨written, same⟩
    have stops : ∀ character ∈ offset.metric.symbol.head?,
        isDigit character = false ∧ character ≠ '.' := by
      cases offset.metric <;> rintro _ ⟨⟩ <;> decide
    rw [same, Numeral.take?_chars_append written stops]
    exact congrArg (Option.map _) (Metric.ofChars?_eq_some_iff.mpr rfl)

private theorem mem_offsetsIn_iff {metric : Metric} :
    text.toList ∈ offsetsIn metric ↔ ∃ count, Offset.read? text = some ⟨count, metric⟩ := by
  simp only [Offset.read?_eq_some_iff, offsetsIn, Language.mem_mul (m := {metric.symbol}),
    mem_mul_fraction_iff fun _ => id]
  constructor
  · rintro ⟨_, ⟨count, written, _, rfl⟩, _, rfl, same⟩
    exact ⟨count, written, same.symm⟩
  · rintro ⟨count, written, same⟩
    exact ⟨count.chars, ⟨count, written, mem_someOf_iff.mpr ⟨written.begun, written.whole⟩, rfl⟩,
      metric.symbol, rfl, same.symm⟩

theorem countsIn_iff {metric : Metric} :
    countsIn metric text = true ↔ text.toList ∈ offsetsIn metric := by
  rw [countsIn, Option.any_eq_true, mem_offsetsIn_iff]
  constructor
  · rintro ⟨⟨count, own⟩, reads, same⟩
    cases of_decide_eq_true same
    exact ⟨count, reads⟩
  · rintro ⟨count, reads⟩
    exact ⟨_, reads, decide_eq_true rfl⟩

theorem isOffset_iff : isOffset text = true ↔ text.toList ∈ Kind.offset.language := by
  rw [isOffset, Option.isSome_iff_exists, Kind.language, Language.mem_iSup]
  simp only [mem_offsetsIn_iff]
  constructor
  · rintro ⟨⟨count, metric⟩, reads⟩
    exact ⟨metric, count, reads⟩
  · rintro ⟨metric, count, reads⟩
    exact ⟨⟨count, metric⟩, reads⟩

/-! ## Frame times -/

private theorem mem_frame_iff :
    text.toList ∈ Kind.frame.language ↔
      ∃ hours ∈ twoDigits, ∃ minutes ∈ belowSixty, ∃ seconds ∈ belowSixty,
        ∃ frames ∈ twoDigits,
          text.toList = hours ++ ':' :: (minutes ++ ':' :: (seconds ++ ':' :: frames)) := by
  have assoc : Kind.frame.language = twoDigits *
      (colon * (belowSixty * (colon * (belowSixty * (colon * twoDigits))))) := by
    simp only [Kind.language, mul_assoc]
  rw [assoc, colon]
  simp only [mem_mul_separator_iff]
  constructor
  · rintro ⟨hours, first, _, ⟨minutes, second, _, ⟨seconds, third, frames, last, rfl⟩, rfl⟩, same⟩
    exact ⟨hours, first, minutes, second, seconds, third, frames, last, same⟩
  · rintro ⟨hours, first, minutes, second, seconds, third, frames, last, same⟩
    exact ⟨hours, first, _, ⟨minutes, second, _, ⟨seconds, third, frames, last, rfl⟩, rfl⟩, same⟩

private theorem twoDigits_iff_areDigits {characters : List Char} :
    characters ∈ twoDigits ↔ areDigits 2 characters = true ∧ characters.length = 2 := by
  rw [mem_twoDigits_iff, areDigits, Bool.and_eq_true, decide_eq_true_eq, List.all_eq_true]
  constructor
  · intro ⟨two, digits⟩
    exact ⟨⟨two.ge, digits⟩, two⟩
  · intro ⟨⟨_, digits⟩, two⟩
    exact ⟨two, digits⟩

theorem FrameTime.read?_eq_some_iff {time : FrameTime} :
    FrameTime.read? text = some time ↔
      ∃ hours ∈ twoDigits, ∃ minutes ∈ belowSixty, ∃ seconds ∈ belowSixty,
        ∃ frames ∈ twoDigits, parts text = [hours, minutes, seconds, frames] ∧
          time = ⟨digitsValue 10 hours, digitsValue 10 minutes, digitsValue 10 seconds,
            digitsValue 10 frames⟩ := by
  rw [FrameTime.read?]
  simp only [twoDigits_iff_areDigits, ← areBelowSixty_iff]
  constructor
  · intro reads
    split at reads
    next hours minutes seconds frames same =>
      split at reads
      next shaped =>
        cases reads
        simp only [Bool.and_eq_true, beq_iff_eq] at shaped
        rcases shaped with ⟨⟨⟨⟨⟨first, firstTwo⟩, second⟩, third⟩, last⟩, lastTwo⟩
        exact ⟨hours, ⟨first, firstTwo⟩, minutes, second, seconds, third, frames,
          ⟨last, lastTwo⟩, same, rfl⟩
      next => cases reads
    next => cases reads
  · rintro ⟨hours, first, minutes, second, seconds, third, frames, last, same, rfl⟩
    simp [same, first, second, third, last]

def frameDigits (text : String) : List Char := text.toList.drop 9

private theorem parts_of_frame {hours minutes seconds frames : List Char}
    (first : hours ∈ twoDigits) (second : minutes ∈ belowSixty) (third : seconds ∈ belowSixty)
    (last : frames ∈ twoDigits) :
    parts text = [hours, minutes, seconds, frames] ↔
      text.toList = hours ++ ':' :: (minutes ++ ':' :: (seconds ++ ':' :: frames)) := by
  have inHours := colon_not_mem_digits (mem_twoDigits_iff.mp first).2
  have inMinutes := colon_not_mem_digits (mem_someOf_iff.mp (isDigit_of_belowSixty second)).2
  have inSeconds := colon_not_mem_digits (mem_someOf_iff.mp (isDigit_of_belowSixty third)).2
  have inFrames := colon_not_mem_digits (mem_twoDigits_iff.mp last).2
  rw [parts_eq_iff (by simp)]
  simp [inHours, inMinutes, inSeconds, inFrames]

theorem isFrameTime_iff : isFrameTime text = true ↔ text.toList ∈ Kind.frame.language := by
  rw [isFrameTime, Option.isSome_iff_exists, mem_frame_iff]
  simp only [FrameTime.read?_eq_some_iff]
  constructor
  · rintro ⟨_, hours, first, minutes, second, seconds, third, frames, last, same, rfl⟩
    exact ⟨hours, first, minutes, second, seconds, third, frames, last,
      (parts_of_frame first second third last).mp same⟩
  · rintro ⟨hours, first, minutes, second, seconds, third, frames, last, same⟩
    exact ⟨_, hours, first, minutes, second, seconds, third, frames, last,
      (parts_of_frame first second third last).mpr same, rfl⟩

theorem frames_of_read {time : FrameTime} (reads : FrameTime.read? text = some time) :
    time.frames = digitsValue 10 (frameDigits text) := by
  rcases FrameTime.read?_eq_some_iff.mp reads
    with ⟨hours, first, minutes, second, seconds, third, frames, last, same, rfl⟩
  have hoursEnd : hours.drop 9 = [] :=
    List.drop_eq_nil_of_le ((mem_twoDigits_iff.mp first).1.le.trans (by decide))
  have minutesEnd : minutes.drop 6 = [] :=
    List.drop_eq_nil_of_le ((length_of_belowSixty second).le.trans (by decide))
  have secondsEnd : seconds.drop 3 = [] :=
    List.drop_eq_nil_of_le ((length_of_belowSixty third).le.trans (by decide))
  rw [frameDigits, (parts_of_frame first second third last).mp same]
  simp [List.drop_append, (mem_twoDigits_iff.mp first).1, length_of_belowSixty second,
    length_of_belowSixty third, hoursEnd, minutesEnd, secondsEnd]

theorem FrameTime.fields_lt {time : FrameTime}
    (reads : FrameTime.read? text = some time) :
    time.hours < 100 ∧ time.minutes < 100 ∧ time.seconds < 100 ∧ time.frames < 100 := by
  rcases FrameTime.read?_eq_some_iff.mp reads
    with ⟨hours, first, minutes, second, seconds, third, frames, last, _, rfl⟩
  have two {digits : List Char} (length : digits.length = 2) : digitsValue 10 digits < 100 := by
    have below := digitsValue_lt digits
    rwa [length] at below
  exact ⟨two (mem_twoDigits_iff.mp first).1, two (length_of_belowSixty second),
    two (length_of_belowSixty third), two (mem_twoDigits_iff.mp last).1⟩

end

end TimedText.Time
