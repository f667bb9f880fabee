import TimedText.Text.Utf8
/-!
UTF-8 back and forth. The bytes of characters are read as these characters, and so
different characters have different bytes. No other bytes can be read, so that those which
can are the valid ones.
-/

namespace TimedText.Text.Utf8

/-! ## Bytes by their values -/

theorem toNat_ofNat {code : Nat} (small : code < 0x100) :
    (UInt8.ofNat code).toNat = code := by
  rw [UInt8.toNat_ofNat', Nat.mod_eq_of_lt small]

theorem isContinuation_iff {byte : UInt8} :
    isContinuation byte = true ↔ 0x80 ≤ byte.toNat ∧ byte.toNat ≤ 0xbf := by
  simp [isContinuation, UInt8.le_iff_toNat_le]

private theorem isSecond_iff {first second : UInt8} :
    isSecond first second = true ↔
      (if first.toNat = 0xe0 then 0xa0 else if first.toNat = 0xf0 then 0x90 else 0x80)
          ≤ second.toNat ∧
        second.toNat ≤
          if first.toNat = 0xed then 0x9f else if first.toNat = 0xf4 then 0x8f else 0xbf := by
  simp only [isSecond, Bool.and_eq_true, decide_eq_true_eq, UInt8.le_iff_toNat_le,
    ← UInt8.toNat_inj, apply_ite UInt8.toNat, UInt8.reduceToNat]

theorem isSecond_bounds {first second : UInt8} (second_ : isSecond first second = true) :
    (0x80 ≤ second.toNat ∧ second.toNat ≤ 0xbf) ∧
      (first.toNat = 0xe0 → 0xa0 ≤ second.toNat) ∧
      (first.toNat = 0xed → second.toNat ≤ 0x9f) ∧
      (first.toNat = 0xf0 → 0x90 ≤ second.toNat) ∧
      (first.toNat = 0xf4 → second.toNat ≤ 0x8f) := by
  rw [isSecond_iff] at second_
  rcases second_ with ⟨lowest, highest⟩
  repeat' split at lowest
  all_goals
    repeat' split at highest
    all_goals omega

/-! ## One character -/

section

variable {first second third fourth : UInt8} {rest : Bytes}

private theorem read_one (range : first.toNat < 0x80) :
    read first rest = .character (Char.ofNat first.toNat) 0 := by
  simp only [read, UInt8.lt_iff_toNat_lt, UInt8.reduceToNat, if_pos range]

private theorem read_two (range : 0xc2 ≤ first.toNat ∧ first.toNat ≤ 0xdf)
    (second_ : isContinuation second = true) :
    read first (second :: rest)
      = .character (Char.ofNat (first.toNat % 32 * 64 + second.toNat % 64)) 1 := by
  simp only [read, UInt8.lt_iff_toNat_lt, UInt8.le_iff_toNat_le, UInt8.reduceToNat]
  rw [if_neg (by omega), if_pos range, if_pos second_]
  rfl

private theorem read_three (range : 0xe0 ≤ first.toNat ∧ first.toNat ≤ 0xef)
    (second_ : isSecond first second = true) (third_ : isContinuation third = true) :
    read first (second :: third :: rest)
      = .character (Char.ofNat
          ((first.toNat % 16 * 64 + second.toNat % 64) * 64 + third.toNat % 64)) 2 := by
  simp only [read, UInt8.lt_iff_toNat_lt, UInt8.le_iff_toNat_le, UInt8.reduceToNat]
  rw [if_neg (by omega), if_neg (by omega), if_pos range, if_neg (by simp [second_]),
    if_pos third_]
  rfl

private theorem read_four (range : 0xf0 ≤ first.toNat ∧ first.toNat ≤ 0xf4)
    (second_ : isSecond first second = true) (third_ : isContinuation third = true)
    (fourth_ : isContinuation fourth = true) :
    read first (second :: third :: fourth :: rest)
      = .character (Char.ofNat
          (((first.toNat % 8 * 64 + second.toNat % 64) * 64 + third.toNat % 64) * 64
            + fourth.toNat % 64)) 3 := by
  simp only [read, UInt8.lt_iff_toNat_lt, UInt8.le_iff_toNat_le, UInt8.reduceToNat]
  rw [if_neg (by omega), if_neg (by omega), if_neg (by omega), if_pos range,
    if_neg (by simp [second_]), if_neg (by simp [third_]), if_pos fourth_]
  rfl

end

theorem code_range (character : Char) :
    character.toNat < 0xd800 ∨ 0xdfff < character.toNat ∧ character.toNat < 0x110000 :=
  character.valid

theorem encodeCharacter_read (character : Char) :
    ∃ first further, encodeCharacter character = first :: further ∧
      ∀ rest, read first (further ++ rest) = .character character further.length := by
  have range := code_range character
  have back {code : Nat} (same : code = character.toNat) : Char.ofNat code = character := by
    rw [same, Char.ofNat_toNat]
  have value (base shift size : Nat) (fits : base + size ≤ 0x100) (positive : 0 < size) :
      (UInt8.ofNat (base + character.toNat / 2 ^ shift % size)).toNat
        = base + character.toNat / 2 ^ shift % size := by
    have bound := Nat.mod_lt (character.toNat / 2 ^ shift) positive
    exact toNat_ofNat (by omega)
  have following (shift : Nat) :
      isContinuation (UInt8.ofNat (0x80 + character.toNat / 2 ^ shift % 0x40)) = true := by
    rw [isContinuation_iff, value _ _ _ (by decide) (by decide)]
    omega
  rw [encodeCharacter]
  dsimp only
  split
  next one =>
    refine ⟨_, _, rfl, fun rest => ?_⟩
    have first := value 0 0 0x80 (by decide) (by decide)
    rw [read_one (by omega), back (by omega)]
    rfl
  · split
    next one two =>
      refine ⟨_, _, rfl, fun rest => ?_⟩
      have first := value 0xc0 6 0x20 (by decide) (by decide)
      have second := value 0x80 0 0x40 (by decide) (by decide)
      rw [List.cons_append, read_two (by omega) (following 0), back (by omega)]
      rfl
    · split
      next one two three =>
        refine ⟨_, _, rfl, fun rest => ?_⟩
        have first := value 0xe0 12 0x10 (by decide) (by decide)
        have second := value 0x80 6 0x40 (by decide) (by decide)
        have third := value 0x80 0 0x40 (by decide) (by decide)
        have allowed : isSecond (UInt8.ofNat (0xe0 + character.toNat / 2 ^ 12 % 0x10))
            (UInt8.ofNat (0x80 + character.toNat / 2 ^ 6 % 0x40)) = true := by
          rw [isSecond_iff, first, second]
          constructor <;> (repeat' split) <;> omega
        rw [List.cons_append, List.cons_append, read_three (by omega) allowed (following 0),
          back (by omega)]
        rfl
      next one two three =>
        refine ⟨_, _, rfl, fun rest => ?_⟩
        have first := value 0xf0 18 0x08 (by decide) (by decide)
        have second := value 0x80 12 0x40 (by decide) (by decide)
        have third := value 0x80 6 0x40 (by decide) (by decide)
        have fourth := value 0x80 0 0x40 (by decide) (by decide)
        have allowed : isSecond (UInt8.ofNat (0xf0 + character.toNat / 2 ^ 18 % 0x08))
            (UInt8.ofNat (0x80 + character.toNat / 2 ^ 12 % 0x40)) = true := by
          rw [isSecond_iff, first, second]
          constructor <;> (repeat' split) <;> omega
        rw [List.cons_append, List.cons_append, List.cons_append,
          read_four (by omega) allowed (following 6) (following 0), back (by omega)]
        rfl

/-! ## Texts -/

private theorem decodeFrom_encodeCharacter_append (index : Nat) (character : Char) (rest : Bytes) :
    ∃ further, decodeFrom index (encodeCharacter character ++ rest)
      = (decodeFrom (index + further + 1) rest).map (character :: ·) := by
  rcases encodeCharacter_read character with ⟨first, further, bytes, reads⟩
  refine ⟨further.length, ?_⟩
  rw [bytes, List.cons_append, decodeFrom, reads rest]
  dsimp only
  rw [List.drop_left]

theorem decodeFrom_encode_append (index : Nat) (characters : List Char) (rest : Bytes) :
    ∃ further, decodeFrom index (encode characters ++ rest)
      = (decodeFrom (index + further) rest).map (characters ++ ·) := by
  induction characters generalizing index with
  | nil =>
      refine ⟨0, ?_⟩
      change decodeFrom index rest = (decodeFrom index rest).map id
      cases decodeFrom index rest <;> rfl
  | cons character others induction =>
      rcases decodeFrom_encodeCharacter_append index character (encode others ++ rest)
        with ⟨own, first⟩
      rcases induction (index + own + 1) with ⟨further, second⟩
      refine ⟨own + 1 + further, ?_⟩
      rw [encode, List.flatMap_cons, List.append_assoc]
      change decodeFrom index (encodeCharacter character ++ (encode others ++ rest)) = _
      rw [first, second]
      simp only [Nat.add_assoc]
      cases decodeFrom (index + (own + (1 + further))) rest <;> rfl

theorem decode_encode (characters : List Char) :
    decode (encode characters) = .ok characters := by
  rcases decodeFrom_encode_append 0 characters [] with ⟨further, decoded⟩
  rw [List.append_nil, decodeFrom] at decoded
  rw [decode, decoded]
  exact congrArg Except.ok (List.append_nil characters)

theorem decodeLossy_encode (characters : List Char) :
    decodeLossy (encode characters) = characters := by
  induction characters with
  | nil => rw [encode, List.flatMap_nil, decodeLossy]
  | cons character rest induction =>
      rcases encodeCharacter_read character with ⟨first, further, bytes, reads⟩
      rw [encode, List.flatMap_cons, bytes, List.cons_append, decodeLossy, reads]
      dsimp only
      rw [List.drop_left]
      exact congrArg (character :: ·) induction

theorem encode_injective {left right : List Char} (same : encode left = encode right) :
    left = right :=
  Except.ok.inj ((decode_encode left).symm.trans ((congrArg decode same).trans
    (decode_encode right)))

/-! ## Characters back to bytes -/

section

variable {first second third fourth : UInt8}

theorem toNat_char_ofNat {code : Nat}
    (valid : code < 0xd800 ∨ 0xdfff < code ∧ code < 0x110000) :
    (Char.ofNat code).toNat = code := by
  rw [Char.ofNat, dif_pos valid]
  rfl

private theorem ofNat_eq (byte : UInt8) {value : Nat} (same : value = byte.toNat) :
    UInt8.ofNat value = byte := by
  rw [same, UInt8.ofNat_toNat]

private theorem encodeCharacter_one (range : first.toNat < 0x80) :
    encodeCharacter (Char.ofNat first.toNat) = [first] := by
  rw [encodeCharacter, toNat_char_ofNat (by omega)]
  dsimp only
  rw [if_pos range, ofNat_eq first (by omega)]

private theorem encodeCharacter_two (range : 0xc2 ≤ first.toNat ∧ first.toNat ≤ 0xdf)
    (second_ : isContinuation second = true) :
    encodeCharacter (Char.ofNat (first.toNat % 32 * 64 + second.toNat % 64))
      = [first, second] := by
  rw [isContinuation_iff] at second_
  rw [encodeCharacter, toNat_char_ofNat (by omega)]
  dsimp only
  rw [if_neg (by omega), if_pos (by omega), ofNat_eq first (by omega),
    ofNat_eq second (by omega)]

private theorem encodeCharacter_three (range : 0xe0 ≤ first.toNat ∧ first.toNat ≤ 0xef)
    (second_ : isSecond first second = true) (third_ : isContinuation third = true) :
    encodeCharacter (Char.ofNat
        ((first.toNat % 16 * 64 + second.toNat % 64) * 64 + third.toNat % 64))
      = [first, second, third] := by
  have bounds := isSecond_bounds second_
  rw [isContinuation_iff] at third_
  rw [encodeCharacter, toNat_char_ofNat (by omega)]
  dsimp only
  rw [if_neg (by omega), if_neg (by omega), if_pos (by omega),
    ofNat_eq first (by omega), ofNat_eq second (by omega),
    ofNat_eq third (by omega)]

private theorem encodeCharacter_four (range : 0xf0 ≤ first.toNat ∧ first.toNat ≤ 0xf4)
    (second_ : isSecond first second = true) (third_ : isContinuation third = true)
    (fourth_ : isContinuation fourth = true) :
    encodeCharacter (Char.ofNat
        (((first.toNat % 8 * 64 + second.toNat % 64) * 64 + third.toNat % 64) * 64
          + fourth.toNat % 64))
      = [first, second, third, fourth] := by
  have bounds := isSecond_bounds second_
  rw [isContinuation_iff] at third_ fourth_
  rw [encodeCharacter, toNat_char_ofNat (by omega)]
  dsimp only
  rw [if_neg (by omega), if_neg (by omega), if_neg (by omega),
    ofNat_eq first (by omega), ofNat_eq second (by omega),
    ofNat_eq third (by omega), ofNat_eq fourth (by omega)]

end

private theorem encodeCharacter_of_read {first : UInt8} {rest : Bytes} {character : Char}
    {further : Nat} (reads : read first rest = .character character further) :
    first :: rest = encodeCharacter character ++ rest.drop further := by
  revert reads
  fun_cases read first rest with
  | case1 _ one =>
      rintro ⟨⟩
      exact congrArg (· ++ rest) (encodeCharacter_one one).symm
  | case3 _ two second rest second_ =>
      rintro ⟨⟩
      exact congrArg (· ++ rest) (encodeCharacter_two two second_).symm
  | case8 _ _ three second second_ third rest third_ =>
      rintro ⟨⟩
      exact congrArg (· ++ rest)
        (encodeCharacter_three three (by simpa using second_) third_).symm
  | case15 _ _ _ four second second_ third third_ fourth rest fourth_ =>
      rintro ⟨⟩
      exact congrArg (· ++ rest)
        (encodeCharacter_four four (by simpa using second_) (by simpa using third_)
          fourth_).symm
  | _ => nofun

private theorem encode_of_decodeFrom {index : Nat} {bytes : Bytes} {characters : List Char}
    (reads : decodeFrom index bytes = .ok characters) : bytes = encode characters := by
  fun_induction decodeFrom index bytes generalizing characters with
  | case1 index =>
      cases reads
      rfl
  | case2 index first rest character further own induction =>
      cases others : decodeFrom (index + further + 1) (rest.drop further) with
      | error defect =>
          rw [others] at reads
          cases reads
      | ok following =>
          rw [others] at reads
          cases reads
          rw [encodeCharacter_of_read own, induction others]
          rfl
  | case3 => cases reads
  | case4 => cases reads

/-- Bytes are read as the characters that they are written for, and otherwise not at all. -/
theorem decode_eq_ok_iff {bytes : Bytes} {characters : List Char} :
    decode bytes = .ok characters ↔ bytes = encode characters :=
  ⟨encode_of_decodeFrom, fun same => same ▸ decode_encode characters⟩

private theorem encodeCharacter_eq (character : Char) :
    encodeCharacter character = String.utf8EncodeChar character := by
  have atMost (bound : Nat) : character.val.toNat ≤ bound ↔ character.toNat < bound + 1 :=
    Nat.lt_succ_iff.symm
  simp only [encodeCharacter, String.utf8EncodeChar, atMost, Nat.reduceAdd, Nat.reducePow,
    Nat.div_one, Nat.add_comm _ (_ % _)]
  split
  next one =>
    rw [Nat.mod_eq_of_lt one]
    rfl
  next => rfl

theorem isValidUTF8_iff {bytes : Bytes} :
    bytes.toByteArray.IsValidUTF8 ↔ ∃ text, bytes = encode text := by
  have same (text : List Char) : text.utf8Encode = (encode text).toByteArray := by
    rw [List.utf8Encode, encode, funext encodeCharacter_eq]
  constructor
  · rintro ⟨text, written⟩
    exact ⟨text, List.toByteArray_inj.mp (written.trans (same text))⟩
  · rintro ⟨text, rfl⟩
    exact ⟨text, (same text).symm⟩

/-! ## The null byte -/

theorem toNat_ne_zero {character : Char} (notNull : character ≠ '\x00') :
    character.toNat ≠ 0 :=
  fun zero => notNull (by rw [← Char.ofNat_toNat character, zero])

private theorem ofNat_ne_zero {code : Nat} (small : code < 0x100) (positive : code ≠ 0) :
    UInt8.ofNat code ≠ 0 := by
  intro zero
  apply positive
  rw [← toNat_ofNat small, zero]
  rfl

theorem ne_zero_of_mem_encodeCharacter {character : Char} (notNull : character ≠ '\x00') :
    ∀ byte ∈ encodeCharacter character, byte ≠ 0 := by
  have positive := toNat_ne_zero notNull
  rw [encodeCharacter]
  dsimp only
  repeat' split
  all_goals
    simp only [List.mem_cons, List.not_mem_nil, or_false, forall_eq_or_imp, forall_eq]
    repeat' apply And.intro
    all_goals apply ofNat_ne_zero <;> omega

theorem ne_zero_of_mem_encode {characters : List Char}
    (noNull : ∀ character ∈ characters, character ≠ '\x00') :
    ∀ byte ∈ encode characters, byte ≠ 0 := by
  intro byte member
  rcases List.mem_flatMap.mp member with ⟨character, among, own⟩
  exact ne_zero_of_mem_encodeCharacter (noNull character among) byte own

end TimedText.Text.Utf8
