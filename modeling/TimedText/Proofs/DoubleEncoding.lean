import Mathlib.Data.List.Infix
import TimedText.Proofs.Markup.Heading
import TimedText.Proofs.Mending
import TimedText.Proofs.Text.Boundary
/-!
Text whose UTF-8 bytes were taken for Latin-1 and written as UTF-8 once more. Reading bytes as
Latin-1 loses nothing, so that what was encoded twice can be restored. It is recognised by some
letters; where they occur, all bytes are taken for encoded twice, be they or not.
-/

namespace TimedText.Check

open Text

/-! ## Latin-1 -/

private theorem latin1Byte_eq_ok_iff {character : Char} {byte : UInt8} :
    latin1Byte character = .ok byte ↔ character = Char.ofNat byte.toNat := by
  have small := byte.toNat_lt
  rw [latin1Byte]
  constructor
  · intro narrowed
    split at narrowed
    next fits =>
      cases narrowed
      rw [Utf8.toNat_ofNat fits, Char.ofNat_toNat]
    next => cases narrowed
  · rintro rfl
    rw [Utf8.toNat_char_ofNat (by omega), if_pos small, UInt8.ofNat_toNat]

theorem toLatin1_eq_ok_iff {bytes narrow : Bytes} :
    toLatin1 bytes = .ok narrow ↔ bytes = fromLatin1 narrow := by
  have narrowed (characters : List Char) : characters.mapM latin1Byte = .ok narrow ↔
      characters = narrow.map fun byte => Char.ofNat byte.toNat := by
    simp only [Markup.mapM_eq_ok_iff, latin1Byte_eq_ok_iff, ← List.forall₂_eq_eq_eq,
      List.forall₂_map_right_iff]
  rw [toLatin1, fromLatin1]
  constructor
  · intro made
    split at made
    next characters reads => rw [Utf8.decode_eq_ok_iff.mp reads, (narrowed characters).mp made]
    next => cases made
  · rintro rfl
    rw [Utf8.decode_encode]
    exact (narrowed _).mpr rfl

theorem fromLatin1_injective : Function.Injective fromLatin1 := by
  intro left right same
  have narrow := toLatin1_eq_ok_iff.mpr same
  rw [toLatin1_eq_ok_iff.mpr rfl] at narrow
  exact Except.ok.inj narrow

private theorem fromLatin1_infix_iff {part bytes : Bytes} :
    fromLatin1 part <:+: fromLatin1 bytes ↔ part <:+: bytes := by
  have injective : Function.Injective fun byte : UInt8 => Char.ofNat byte.toNat := by
    intro left right same
    have narrow := latin1Byte_eq_ok_iff.mpr same
    rw [latin1Byte_eq_ok_iff.mpr rfl] at narrow
    exact Except.ok.inj narrow
  rw [fromLatin1, fromLatin1, Utf8.encode_infix_iff, List.infix_map_iff]
  constructor
  · rintro ⟨other, inside, same⟩
    rwa [List.map_injective_iff.mpr injective same]
  · exact fun inside => ⟨part, inside, rfl⟩

/-! ## Letters that tell -/

/-- The letters by which an encoding that was applied twice is noticed: quotation marks and
some letters with accents. -/
def tellingLetters : List Char := ['‘', '’', 'ø', 'à', 'ù', 'è', 'ì', 'ò']

private theorem sirens_eq : sirens = tellingLetters.map fun letter =>
    fromLatin1 (Utf8.encode [letter]) := by
  decide

theorem hasSiren_fromLatin1_iff {text : List Char} :
    HasSiren (fromLatin1 (Utf8.encode text)) ↔ ∃ letter ∈ text, letter ∈ tellingLetters := by
  have occurs (letter : Char) :
      fromLatin1 (Utf8.encode [letter]) <:+: fromLatin1 (Utf8.encode text) ↔ letter ∈ text := by
    rw [fromLatin1_infix_iff, Utf8.encode_infix_iff, List.singleton_infix_iff]
  rw [HasSiren, sirens_eq]
  constructor
  · rintro ⟨siren, member, inside⟩
    rcases List.mem_map.mp member with ⟨letter, telling, rfl⟩
    exact ⟨letter, (occurs letter).mp inside, telling⟩
  · rintro ⟨letter, member, telling⟩
    exact ⟨_, List.mem_map_of_mem telling, (occurs letter).mpr member⟩

/-! ## Mending -/

def doubleEncodingFinding : Finding :=
  .fail .preParseEncoding "Unparsed file" "Bad latin-1 encoding found, re-encoding as UTF-8"

theorem checkEncoding_of_siren {bytes : Bytes} (siren : HasSiren bytes) :
    checkEncoding bytes = ⟨(toLatin1 bytes).map (false, ·), [doubleEncodingFinding]⟩ := by
  rw [checkEncoding, if_pos (any_occursIn_iff.mpr siren)]
  cases toLatin1 bytes <;> rfl

/-- A text that was encoded twice is restored where this is noticed, whatever else is in it;
and that is where one of the letters is in it. -/
theorem checkEncoding_undoes_double_encoding (text : List Char) :
    (HasSiren (fromLatin1 (Utf8.encode text)) →
        checkEncoding (fromLatin1 (Utf8.encode text))
          = ⟨.ok (false, Utf8.encode text), [doubleEncodingFinding]⟩) ∧
      (HasSiren (fromLatin1 (Utf8.encode text)) ↔
        ∃ letter ∈ text, letter ∈ tellingLetters) := by
  refine ⟨fun siren => ?_, hasSiren_fromLatin1_iff⟩
  rw [checkEncoding_of_siren siren, toLatin1_eq_ok_iff.mpr rfl]
  rfl

theorem checkEncoding_undoes_double_encoding_quoted :
    HasSiren (fromLatin1 (Utf8.encode ['i', 't', '’', 's', ' ', '☃'])) ∧
      checkEncoding (fromLatin1 (Utf8.encode ['i', 't', '’', 's', ' ', '☃']))
        = ⟨.ok (false, Utf8.encode ['i', 't', '’', 's', ' ', '☃']),
            [doubleEncodingFinding]⟩ := by
  have undoes := checkEncoding_undoes_double_encoding ['i', 't', '’', 's', ' ', '☃']
  have siren := undoes.2.mpr ⟨'’', by decide, by decide⟩
  exact ⟨siren, undoes.1 siren⟩

theorem checkEncoding_of_no_siren {bytes : Bytes} (noSiren : ¬HasSiren bytes) :
    ∃ valid text, (checkEncoding bytes).result = .ok (valid, Utf8.encode text) := by
  rw [checkEncoding, if_neg (mt any_occursIn_iff.mp noSiren)]
  cases reads : Utf8.decode bytes with
  | error defect => exact ⟨false, _, rfl⟩
  | ok text =>
      rw [Utf8.decode_eq_ok_iff.mp reads]
      exact ⟨true, text, rfl⟩

/-- What is handed on is valid UTF-8, unless the bytes have a sign of a double encoding and
were not encoded twice as a whole. -/
theorem checkEncoding_leaves_utf8_iff {bytes mended : Bytes} {valid : Bool}
    (gives : (checkEncoding bytes).result = .ok (valid, mended)) :
    mended.toByteArray.IsValidUTF8 ↔
      (HasSiren bytes → ∃ text, bytes = fromLatin1 (Utf8.encode text)) := by
  rw [Utf8.isValidUTF8_iff]
  by_cases siren : HasSiren bytes
  · rw [checkEncoding_of_siren siren] at gives
    cases narrowed : toLatin1 bytes with
    | error fault =>
        rw [narrowed] at gives
        cases gives
    | ok narrow =>
        rw [narrowed] at gives
        cases gives
        rw [toLatin1_eq_ok_iff.mp narrowed]
        rw [toLatin1_eq_ok_iff.mp narrowed] at siren
        simp only [fromLatin1_injective.eq_iff, siren, forall_const]
  · rcases checkEncoding_of_no_siren siren with ⟨verdict, text, handsOn⟩
    rw [handsOn] at gives
    cases gives
    exact iff_of_true ⟨text, rfl⟩ fun occurs => absurd occurs siren

theorem checkEncoding_leaves_utf8_iff_mixed :
    (checkEncoding [0xc3, 0xa9, 0xc3, 0x83, 0xc2, 0xb8]).result
        = .ok (false, [0xe9, 0xc3, 0xb8]) ∧
      ¬(List.toByteArray [0xe9, 0xc3, 0xb8]).IsValidUTF8 := by
  have siren : HasSiren [0xc3, 0xa9, 0xc3, 0x83, 0xc2, 0xb8] := by decide
  have narrow : toLatin1 [0xc3, 0xa9, 0xc3, 0x83, 0xc2, 0xb8] = .ok [0xe9, 0xc3, 0xb8] :=
    toLatin1_eq_ok_iff.mpr (by decide)
  have gives : (checkEncoding [0xc3, 0xa9, 0xc3, 0x83, 0xc2, 0xb8]).result
      = .ok (false, [0xe9, 0xc3, 0xb8]) := by
    rw [checkEncoding_of_siren siren, narrow]
    rfl
  refine ⟨gives, fun valid => ?_⟩
  rcases (checkEncoding_leaves_utf8_iff gives).mp valid siren with ⟨text, same⟩
  have reads : Utf8.decode [0xe9, 0xc3, 0xb8] = .ok text :=
    Utf8.decode_eq_ok_iff.mpr (fromLatin1_injective same)
  rw [Utf8.decode, Utf8.decodeFrom] at reads
  cases reads

end TimedText.Check
