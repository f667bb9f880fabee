import TimedText.Proofs.Text.Encoding
import TimedText.Validation
/-!
What the byte checks of a profile leave of a text behind a byte order mark. Checks that
take the mark off first restore the text. Checks that look for bad encodings first take
a text that is not in UTF-8 for Latin-1, and its mark is gone before it is looked for.
-/

namespace TimedText

open Check Text

/-! ## One check after another -/

def Check.ByteCheck.leaves (bytes : Bytes) (check : ByteCheck) : Bytes :=
  match (check.run bytes).result with
  | .ok (_, mended) => mended
  | .error _ => bytes

theorem runByteChecks_snd (bytes : Bytes) (checks : List ByteCheck) :
    (runByteChecks bytes checks).2 = checks.foldl ByteCheck.leaves bytes := by
  induction checks generalizing bytes with
  | nil => rfl
  | cons check rest induction =>
      rw [runByteChecks, List.foldl_cons, ByteCheck.leaves]
      dsimp only
      cases (check.run bytes).result with
      | ok mended => exact induction mended.2
      | error fault => exact induction bytes

namespace Check

theorem leaves_markup (bytes : Bytes) : ByteCheck.leaves bytes .markup = bytes := rfl

/-! ## Null bytes -/

private theorem leaves_nullBytes (bytes : Bytes) :
    ByteCheck.leaves bytes .nullBytes = bytes.filter (· != 0) := by
  rw [ByteCheck.leaves, ByteCheck.run, checkNullBytes]
  cases found : bytes.findIdx? (· == 0) with
  | some first => rfl
  | none =>
      rw [List.findIdx?_eq_none_iff] at found
      refine (List.filter_eq_self.mpr fun byte member => ?_).symm
      rw [bne, found byte member, Bool.not_false]

theorem leaves_nullBytes_encode {text : List Char}
    (noNull : ∀ character ∈ text, character ≠ '\x00') :
    ByteCheck.leaves (Utf8.encode text) .nullBytes = Utf8.encode text := by
  rw [leaves_nullBytes]
  exact List.filter_eq_self.mpr fun byte member =>
    bne_iff_ne.mpr (Utf8.ne_zero_of_mem_encode noNull byte member)

/-! ## Encoding -/

private theorem occursIn_iff {run bytes : Bytes} : occursIn run bytes = true ↔ run <:+: bytes := by
  induction bytes with
  | nil => rw [occursIn, List.isEmpty_iff, List.infix_nil]
  | cons first rest induction =>
      rw [occursIn, Bool.or_eq_true, induction, List.isPrefixOf_iff_prefix,
        List.infix_cons_iff]

/-- Bytes in which a sign of a double encoding occurs. -/
def HasSiren (bytes : Bytes) : Prop := ∃ siren ∈ sirens, siren <:+: bytes

theorem any_occursIn_iff {bytes : Bytes} :
    (sirens.any fun siren => occursIn siren bytes) = true ↔ HasSiren bytes := by
  simp only [List.any_eq_true, occursIn_iff, HasSiren]

instance (bytes : Bytes) : Decidable (HasSiren bytes) :=
  decidable_of_iff _ any_occursIn_iff

private theorem hasSiren_byteOrderMark_append {bytes : Bytes} :
    HasSiren (Encoding.utf8.byteOrderMark ++ bytes) ↔ HasSiren bytes := by
  have begins {siren : Bytes} (member : siren ∈ sirens) : siren.head? = some 0xc3 := by
    revert siren
    decide
  apply exists_congr
  intro siren
  apply and_congr_right
  intro member
  cases siren with
  | nil => cases begins member
  | cons first rest =>
      cases Option.some.inj (begins member)
      simp [Encoding.byteOrderMark, List.infix_cons_iff, List.cons_prefix_cons]

section

variable {bytes : Bytes}

theorem leaves_encoding_sound {text : List Char} (noSiren : ¬HasSiren (Utf8.encode text)) :
    ByteCheck.leaves (Utf8.encode text) .encoding = Utf8.encode text := by
  rw [ByteCheck.leaves, ByteCheck.run, checkEncoding,
    if_neg (mt any_occursIn_iff.mp noSiren), Utf8.decode_encode]
  rfl

private theorem leaves_encoding_latin1 {defect : Utf8.Defect} (noSiren : ¬HasSiren bytes)
    (unread : Utf8.decode bytes = .error defect) :
    ByteCheck.leaves bytes .encoding = fromLatin1 bytes := by
  rw [ByteCheck.leaves, ByteCheck.run, checkEncoding,
    if_neg (mt any_occursIn_iff.mp noSiren), unread]
  rfl

private theorem leaves_encoding_faulted {defect : Utf8.Defect} (siren : HasSiren bytes)
    (unread : Utf8.decode bytes = .error defect) :
    ByteCheck.leaves bytes .encoding = bytes := by
  rw [ByteCheck.leaves, ByteCheck.run, checkEncoding,
    if_pos (any_occursIn_iff.mpr siren), toLatin1, unread]
  rfl

end

private theorem latin1_ne_null {byte : UInt8} (notZero : byte ≠ 0) :
    Char.ofNat byte.toNat ≠ '\x00' := by
  have small := byte.toNat_lt
  have value : (Char.ofNat byte.toNat).toNat = byte.toNat := by
    rw [Char.ofNat, dif_pos (.inl (by omega))]
    rfl
  intro null
  rw [null] at value
  exact notZero (UInt8.toNat_inj.mp value.symm)

private theorem fromLatin1_cons (byte : UInt8) (rest : Bytes) :
    fromLatin1 (byte :: rest)
      = Utf8.encodeCharacter (Char.ofNat byte.toNat) ++ fromLatin1 rest :=
  List.flatMap_cons

private theorem fromLatin1_filter (bytes : Bytes) :
    (fromLatin1 bytes).filter (· != 0) = fromLatin1 (bytes.filter (· != 0)) := by
  induction bytes with
  | nil => rfl
  | cons byte rest induction =>
      rw [fromLatin1_cons, List.filter_append, induction]
      by_cases zero : byte = 0
      · subst zero
        rfl
      · have own := Utf8.ne_zero_of_mem_encodeCharacter (latin1_ne_null zero)
        have kept : (byte != 0) = true := bne_iff_ne.mpr zero
        rw [List.filter_cons, if_pos kept, fromLatin1_cons,
          List.filter_eq_self.mpr fun other member => bne_iff_ne.mpr (own other member)]

/-! ## Byte order marks -/

section

variable {text : List Char}

private theorem leaves_byteOrderMark_marked (encoding : Encoding)
    (noNull : ∀ character ∈ text, character ≠ '\x00') :
    ByteCheck.leaves (encoding.byteOrderMark ++ encoding.encode text) .byteOrderMark
      = Utf8.encode text := by
  rw [ByteCheck.leaves, ByteCheck.run, checkByteOrderMark,
    Encoding.detect?_byteOrderMark encoding noNull]
  cases encoding with
  | utf8 => rfl
  | utf16 order =>
      dsimp only
      rw [List.drop_left, Encoding.decode_encode]
      rfl
  | utf32 order =>
      dsimp only
      rw [List.drop_left, Encoding.decode_encode]
      rfl

theorem leaves_byteOrderMark_unmarked {bytes : Bytes}
    (unmarked : Encoding.detect? bytes = none)
    (notCorrupt : corruptMark.isPrefixOf bytes = false) :
    ByteCheck.leaves bytes .byteOrderMark = bytes := by
  rw [ByteCheck.leaves, ByteCheck.run, checkByteOrderMark, unmarked]
  dsimp only
  rw [notCorrupt]
  rfl

end

section

variable {encoding : Encoding}

private theorem decode_byteOrderMark_append (other : encoding ≠ .utf8) (bytes : Bytes) :
    ∃ defect, Utf8.decode (encoding.byteOrderMark ++ bytes) = .error defect := by
  have first {index : Nat} {byte : UInt8} {rest : Bytes}
      (invalid : Utf8.read byte rest = .invalid 0) :
      Utf8.decodeFrom index (byte :: rest) = .error (.invalid 1 index) := by
    rw [Utf8.decodeFrom, invalid]
  cases encoding with
  | utf8 => exact absurd rfl other
  | utf16 order => cases order <;> exact ⟨_, first rfl⟩
  | utf32 order =>
      cases order with
      | little => exact ⟨_, first rfl⟩
      | big =>
          rcases Utf8.decodeFrom_encode_append 0 ['\x00', '\x00'] ([0xfe, 0xff] ++ bytes)
            with ⟨further, reads⟩
          rw [List.cons_append, first rfl] at reads
          exact ⟨_, reads⟩

private theorem leaves_byteOrderMark_latin1 (other : encoding ≠ .utf8) (bytes : Bytes) :
    ByteCheck.leaves (fromLatin1 (encoding.byteOrderMark ++ bytes)) .byteOrderMark
      = fromLatin1 (encoding.byteOrderMark ++ bytes) := by
  cases encoding with
  | utf8 => exact absurd rfl other
  | utf16 order => cases order <;> exact leaves_byteOrderMark_unmarked rfl rfl
  | utf32 order => cases order <;> exact leaves_byteOrderMark_unmarked rfl rfl

theorem fromLatin1_filter_ne {text : List Char} (other : encoding ≠ .utf8)
    (noNull : ∀ character ∈ text, character ≠ '\x00') :
    fromLatin1 ((encoding.byteOrderMark ++ encoding.encode text).filter (· != 0))
      ≠ Utf8.encode text := by
  intro same
  have lengths := congrArg List.length (Utf8.encode_injective same)
  rw [List.length_map, ← List.countP_eq_length_filter, List.countP_append] at lengths
  have kept := Encoding.length_le_countP_encode encoding noNull
  have mark : 0 < encoding.byteOrderMark.countP (· != 0) := by
    cases encoding with
    | utf8 => decide
    | utf16 order => cases order <;> decide
    | utf32 order => cases order <;> decide
  omega

end

end Check

/-! ## Profiles -/

section

variable {encoding : Encoding} {text : List Char}

theorem captions_mend (noNull : ∀ character ∈ text, character ≠ '\x00')
    (noSiren : ¬HasSiren (Utf8.encode text)) :
    [ByteCheck.byteOrderMark, .encoding, .nullBytes, .markup].foldl ByteCheck.leaves
        (encoding.byteOrderMark ++ encoding.encode text)
      = Utf8.encode text := by
  simp only [List.foldl_cons, List.foldl_nil]
  rw [leaves_byteOrderMark_marked encoding noNull, leaves_encoding_sound noSiren,
    leaves_nullBytes_encode noNull, leaves_markup]

theorem scripts_mend_utf8 (noNull : ∀ character ∈ text, character ≠ '\x00')
    (noSiren : ¬HasSiren (Utf8.encode text)) :
    [ByteCheck.encoding, .byteOrderMark, .nullBytes, .markup].foldl ByteCheck.leaves
        (Encoding.utf8.byteOrderMark ++ Encoding.utf8.encode text)
      = Utf8.encode text := by
  have mark : Encoding.utf8.byteOrderMark ++ Encoding.utf8.encode text
      = Utf8.encode ('\ufeff' :: text) := rfl
  have stays : ByteCheck.leaves (Utf8.encode ('\ufeff' :: text)) .encoding = _ :=
    leaves_encoding_sound (by rw [← mark]; exact mt hasSiren_byteOrderMark_append.mp noSiren)
  rw [← mark] at stays
  simp only [List.foldl_cons, List.foldl_nil]
  rw [stays, leaves_byteOrderMark_marked .utf8 noNull, leaves_nullBytes_encode noNull,
    leaves_markup]

theorem scripts_mend_siren (other : encoding ≠ .utf8)
    (noNull : ∀ character ∈ text, character ≠ '\x00')
    (siren : HasSiren (encoding.byteOrderMark ++ encoding.encode text)) :
    [ByteCheck.encoding, .byteOrderMark, .nullBytes, .markup].foldl ByteCheck.leaves
        (encoding.byteOrderMark ++ encoding.encode text)
      = Utf8.encode text := by
  rcases decode_byteOrderMark_append other (encoding.encode text) with ⟨defect, unread⟩
  simp only [List.foldl_cons, List.foldl_nil]
  rw [leaves_encoding_faulted siren unread, leaves_byteOrderMark_marked encoding noNull,
    leaves_nullBytes_encode noNull, leaves_markup]

theorem scripts_spoil (other : encoding ≠ .utf8)
    (noSiren : ¬HasSiren (encoding.byteOrderMark ++ encoding.encode text)) :
    [ByteCheck.encoding, .byteOrderMark, .nullBytes, .markup].foldl ByteCheck.leaves
        (encoding.byteOrderMark ++ encoding.encode text)
      = fromLatin1 ((encoding.byteOrderMark ++ encoding.encode text).filter (· != 0)) := by
  rcases decode_byteOrderMark_append other (encoding.encode text) with ⟨defect, unread⟩
  simp only [List.foldl_cons, List.foldl_nil]
  rw [leaves_encoding_latin1 noSiren unread, leaves_byteOrderMark_latin1 other,
    leaves_nullBytes, leaves_markup, fromLatin1_filter]

end

/-- Of the texts behind byte order marks, the checks for captions restore all. Those for
scripts restore what is in UTF-8, and of the others exactly those whose bytes look as if
they were encoded twice. -/
theorem runByteChecks_restores_iff (configuration : Configuration) (encoding : Encoding)
    {text : List Char} (noNull : ∀ character ∈ text, character ≠ '\x00')
    (noSiren : ¬HasSiren (Utf8.encode text)) :
    (runByteChecks (encoding.byteOrderMark ++ encoding.encode text)
        configuration.constraints.byteChecks).2 = Utf8.encode text ↔
      configuration.profile = .captions ∨ encoding = .utf8 ∨
        HasSiren (encoding.byteOrderMark ++ encoding.encode text) := by
  rw [runByteChecks_snd, Configuration.constraints]
  cases configuration.profile with
  | captions =>
      exact iff_of_true (captions_mend noNull noSiren) (.inl rfl)
  | scripts =>
      by_cases utf8 : encoding = .utf8
      · subst utf8
        exact iff_of_true (scripts_mend_utf8 noNull noSiren) (.inr (.inl rfl))
      · by_cases siren : HasSiren (encoding.byteOrderMark ++ encoding.encode text)
        · exact iff_of_true (scripts_mend_siren utf8 noNull siren) (.inr (.inr siren))
        · refine iff_of_false ?_ (by simp [utf8, siren])
          exact fun same =>
            fromLatin1_filter_ne utf8 noNull ((scripts_spoil utf8 siren).symm.trans same)

theorem runByteChecks_restores_iff_wide :
    (∀ character ∈ ['<', 't', 't', '/', '>'], character ≠ '\x00') ∧
      ¬HasSiren (Utf8.encode ['<', 't', 't', '/', '>']) ∧
      (runByteChecks ((Encoding.utf16 .little).byteOrderMark
            ++ (Encoding.utf16 .little).encode ['<', 't', 't', '/', '>'])
          (Configuration.standard .scripts).constraints.byteChecks).2
        ≠ Utf8.encode ['<', 't', 't', '/', '>'] := by
  have noNull : ∀ character ∈ ['<', 't', 't', '/', '>'], character ≠ '\x00' := by simp
  refine ⟨noNull, by decide, fun restored => ?_⟩
  have given := (runByteChecks_restores_iff (Configuration.standard .scripts)
    (.utf16 .little) noNull (by decide)).mp restored
  revert given
  decide

end TimedText
