import TimedText.Proofs.Text.Utf8
import TimedText.Text.Encoding
/-!
Texts in the encodings that a byte order mark can announce. What a text is written as
in an encoding is read as that text again, and behind the byte order mark the encoding
is recognised, unless the text begins with the null character.
-/

namespace TimedText.Text.Encoding

/-! ## Writing -/

/-- Bytes that are given highest first, in an order. -/
def ordered (bytes : Bytes) : ByteOrder → Bytes
  | .big => bytes
  | .little => bytes.reverse

def pairOf (order : ByteOrder) (unit : Nat) : Bytes :=
  ordered [UInt8.ofNat (unit / 0x100), UInt8.ofNat unit] order

def quadOf (order : ByteOrder) (code : Nat) : Bytes :=
  ordered [UInt8.ofNat (code / 0x1000000), UInt8.ofNat (code / 0x10000),
    UInt8.ofNat (code / 0x100), UInt8.ofNat code] order

/-- The UTF-16 units of a character: one, or a high and a low surrogate. -/
def unitsOf (character : Char) : List Nat :=
  let code := character.toNat
  if code < 0x10000 then [code]
  else [0xd800 + (code - 0x10000) / 0x400, 0xdc00 + (code - 0x10000) % 0x400]

def encode (encoding : Encoding) (characters : List Char) : Bytes :=
  match encoding with
  | .utf8 => Utf8.encode characters
  | .utf16 order => (characters.flatMap unitsOf).flatMap (pairOf order)
  | .utf32 order => characters.flatMap fun character => quadOf order character.toNat

example : encode (.utf16 .big) [Char.ofNat 0x1f600] = [0xd8, 0x3d, 0xde, 0x00] := by decide

/-! ## Reading what is written -/

private theorem unitValue_ordered (order : ByteOrder) (bytes : Bytes) :
    unitValue order (ordered bytes order) = unitValue .big bytes := by
  cases order with
  | big => rfl
  | little => simp only [unitValue, ordered, List.reverse_reverse]

private theorem unitValue_pairOf {unit : Nat} (small : unit < 0x10000) (order : ByteOrder) :
    unitValue order (pairOf order unit) = unit := by
  rw [pairOf, unitValue_ordered]
  simp only [unitValue, List.foldl_cons, List.foldl_nil, UInt8.toNat_ofNat']
  omega

private theorem unitValue_quadOf {code : Nat} (small : code < 0x100000000) (order : ByteOrder) :
    unitValue order (quadOf order code) = code := by
  rw [quadOf, unitValue_ordered]
  simp only [unitValue, List.foldl_cons, List.foldl_nil, UInt8.toNat_ofNat']
  omega

private theorem pairs_pairOf_append {unit : Nat} (small : unit < 0x10000) (order : ByteOrder)
    (rest : Bytes) : pairs order (pairOf order unit ++ rest) = unit :: pairs order rest := by
  have value := unitValue_pairOf small order
  cases order <;> exact congrArg (· :: pairs _ rest) value

private theorem quads_quadOf_append {code : Nat} (small : code < 0x100000000) (order : ByteOrder)
    (rest : Bytes) : quads order (quadOf order code ++ rest) = code :: quads order rest := by
  have value := unitValue_quadOf small order
  cases order <;> exact congrArg (· :: quads _ rest) value

private theorem length_ordered (bytes : Bytes) (order : ByteOrder) :
    (ordered bytes order).length = bytes.length := by
  cases order with
  | big => rfl
  | little => exact List.length_reverse

private theorem length_pairOf (order : ByteOrder) (unit : Nat) : (pairOf order unit).length = 2 :=
  length_ordered _ order

private theorem length_quadOf (order : ByteOrder) (code : Nat) : (quadOf order code).length = 4 :=
  length_ordered _ order

private theorem unitsOf_small (character : Char) : ∀ unit ∈ unitsOf character, unit < 0x10000 := by
  have range := Utf8.code_range character
  rw [unitsOf]
  split
  next one => simpa using one
  next two => simp; omega

private theorem pairs_flatMap {units : List Nat} (small : ∀ unit ∈ units, unit < 0x10000)
    (order : ByteOrder) : pairs order (units.flatMap (pairOf order)) = units := by
  induction units with
  | nil => rfl
  | cons unit rest induction =>
      rcases List.forall_mem_cons.mp small with ⟨first, rest⟩
      rw [List.flatMap_cons, pairs_pairOf_append first, induction rest]

private theorem ofUnits_unitsOf_append (character : Char) (rest : List Nat) :
    ofUnits (unitsOf character ++ rest) = (ofUnits rest).map (character :: ·) := by
  have range := Utf8.code_range character
  rw [unitsOf]
  split
  next one =>
    have notLow : isLowSurrogate character.toNat = false := by
      rw [isLowSurrogate, Bool.and_eq_false_iff, decide_eq_false_iff_not,
        decide_eq_false_iff_not]
      omega
    have notHigh : isHighSurrogate character.toNat = false := by
      rw [isHighSurrogate, Bool.and_eq_false_iff, decide_eq_false_iff_not,
        decide_eq_false_iff_not]
      omega
    cases rest with
    | nil => simp [ofUnits, notLow, notHigh, Except.map]
    | cons next rest => simp [ofUnits, notLow, notHigh]
  next two =>
    have high : isHighSurrogate (0xd800 + (character.toNat - 0x10000) / 0x400) = true := by
      rw [isHighSurrogate, Bool.and_eq_true, decide_eq_true_eq, decide_eq_true_eq]
      omega
    have notLow : isLowSurrogate (0xd800 + (character.toNat - 0x10000) / 0x400) = false := by
      rw [isLowSurrogate, Bool.and_eq_false_iff, decide_eq_false_iff_not,
        decide_eq_false_iff_not]
      omega
    have low : isLowSurrogate (0xdc00 + (character.toNat - 0x10000) % 0x400) = true := by
      rw [isLowSurrogate, Bool.and_eq_true, decide_eq_true_eq, decide_eq_true_eq]
      omega
    have joined : 0x10000 + (0xd800 + (character.toNat - 0x10000) / 0x400 - 0xd800) * 0x400
        + (0xdc00 + (character.toNat - 0x10000) % 0x400 - 0xdc00) = character.toNat := by
      omega
    rw [List.cons_append, List.cons_append, List.nil_append, ofUnits]
    rw [if_neg (by simp [notLow]), if_pos high, if_pos low]
    dsimp only
    rw [joined, Char.ofNat_toNat]

private theorem ofUnits_flatMap (characters : List Char) :
    ofUnits (characters.flatMap unitsOf) = .ok characters := by
  induction characters with
  | nil => rfl
  | cons character rest induction =>
      rw [List.flatMap_cons, ofUnits_unitsOf_append, induction]
      rfl

private theorem ofCodePoints_quads (order : ByteOrder) (characters : List Char) :
    ofCodePoints (quads order
      (characters.flatMap fun character => quadOf order character.toNat))
      = .ok characters := by
  induction characters with
  | nil => rfl
  | cons character rest induction =>
      have range := Utf8.code_range character
      have valid : character.toNat.isValidChar := character.valid
      rw [List.flatMap_cons, quads_quadOf_append (by omega), ofCodePoints, if_pos valid,
        induction, Char.ofNat_toNat]
      rfl

private theorem length_flatMap_mod {α : Type} {width : Nat} (bytesOf : α → Bytes)
    (each : ∀ member, (bytesOf member).length = width) (members : List α) :
    (members.flatMap bytesOf).length % width = 0 := by
  induction members with
  | nil => exact Nat.zero_mod width
  | cons member rest induction =>
      rw [List.flatMap_cons, List.length_append, each, Nat.add_mod_left, induction]

theorem decode_encode (encoding : Encoding) (characters : List Char) :
    encoding.decode (encoding.encode characters) = .ok characters := by
  cases encoding with
  | utf8 =>
      rw [decode, encode, Utf8.decode_encode]
      rfl
  | utf16 order =>
      have small : ∀ unit ∈ characters.flatMap unitsOf, unit < 0x10000 := by
        intro unit member
        rcases List.mem_flatMap.mp member with ⟨character, _, among⟩
        exact unitsOf_small character unit among
      rw [decode, encode]
      rw [if_pos (length_flatMap_mod _ (length_pairOf order) _),
        pairs_flatMap small, ofUnits_flatMap]
  | utf32 order =>
      rw [decode, encode]
      rw [if_pos (length_flatMap_mod _ (fun character => length_quadOf order _) _),
        ofCodePoints_quads]

/-! ## Bytes other than zero -/

private theorem unitValue_zeros {bytes : Bytes} (zeros : ∀ byte ∈ bytes, byte = 0)
    (order : ByteOrder) : unitValue order bytes = 0 := by
  have fold {ordered : Bytes} (zeros : ∀ byte ∈ ordered, byte = 0) :
      ordered.foldl (fun value byte => value * 256 + byte.toNat) 0 = 0 := by
    induction ordered with
    | nil => rfl
    | cons byte rest induction =>
        rcases List.forall_mem_cons.mp zeros with ⟨rfl, rest⟩
        exact induction rest
  cases order with
  | big => exact fold zeros
  | little => exact fold fun byte member => zeros byte (List.mem_reverse.mp member)

private theorem exists_ne_zero_of_unitValue (order : ByteOrder) {bytes : Bytes}
    (positive : unitValue order bytes ≠ 0) : ∃ byte ∈ bytes, byte ≠ 0 :=
  Classical.byContradiction fun none => positive (unitValue_zeros (fun byte member =>
    Classical.byContradiction fun other => none ⟨byte, member, other⟩) order)

private theorem unitsOf_positive {character : Char} (notNull : character ≠ '\x00') :
    ∃ first others, unitsOf character = first :: others ∧ first ≠ 0 := by
  rw [unitsOf]
  split
  next one => exact ⟨_, _, rfl, Utf8.toNat_ne_zero notNull⟩
  next two => exact ⟨_, _, rfl, by omega⟩

private theorem exists_ne_zero_pairOf {character : Char} {unit : Nat}
    (among : unit ∈ unitsOf character) (positive : unit ≠ 0) (order : ByteOrder) :
    ∃ byte ∈ pairOf order unit, byte ≠ 0 :=
  exists_ne_zero_of_unitValue order
    (by rwa [unitValue_pairOf (unitsOf_small character unit among)])

private theorem length_le_countP_flatMap {α : Type} {bytesOf : α → Bytes} {members : List α}
    (each : ∀ member ∈ members, ∃ byte ∈ bytesOf member, byte ≠ 0) :
    members.length ≤ (members.flatMap bytesOf).countP (· != 0) := by
  induction members with
  | nil => exact Nat.zero_le _
  | cons member rest induction =>
      rcases List.forall_mem_cons.mp each with ⟨⟨byte, among, positive⟩, others⟩
      have own : 0 < (bytesOf member).countP (· != 0) :=
        List.countP_pos_iff.mpr ⟨byte, among, bne_iff_ne.mpr positive⟩
      have further := induction others
      rw [List.flatMap_cons, List.countP_append, List.length_cons]
      omega

theorem length_le_countP_encode (encoding : Encoding) {characters : List Char}
    (noNull : ∀ character ∈ characters, character ≠ '\x00') :
    characters.length ≤ (encoding.encode characters).countP (· != 0) := by
  cases encoding with
  | utf8 =>
      apply length_le_countP_flatMap
      intro character member
      rcases Utf8.encodeCharacter_read character with ⟨first, further, bytes, _⟩
      have inside : first ∈ Utf8.encodeCharacter character := bytes ▸ List.mem_cons_self
      exact ⟨first, inside,
        Utf8.ne_zero_of_mem_encodeCharacter (noNull character member) first inside⟩
  | utf16 order =>
      rw [encode, List.flatMap_assoc]
      apply length_le_countP_flatMap
      intro character member
      rcases unitsOf_positive (noNull character member) with ⟨first, others, units, positive⟩
      have among : first ∈ unitsOf character := units ▸ List.mem_cons_self
      rcases exists_ne_zero_pairOf among positive order with ⟨byte, inside, notZero⟩
      exact ⟨byte, List.mem_flatMap.mpr ⟨first, among, inside⟩, notZero⟩
  | utf32 order =>
      apply length_le_countP_flatMap
      intro character member
      have range := Utf8.code_range character
      apply exists_ne_zero_of_unitValue order
      rw [unitValue_quadOf (by omega)]
      exact Utf8.toNat_ne_zero (noNull character member)

/-! ## Byte order marks -/

private theorem isPrefixOf_encode_little {characters : List Char}
    (noNull : ∀ character ∈ characters, character ≠ '\x00') :
    List.isPrefixOf [0, 0] (encode (.utf16 .little) characters) = false := by
  cases characters with
  | nil => rfl
  | cons character rest =>
      rcases unitsOf_positive (noNull character List.mem_cons_self)
        with ⟨first, others, units, positive⟩
      rcases exists_ne_zero_pairOf (units ▸ List.mem_cons_self) positive .little
        with ⟨byte, inside, notZero⟩
      rw [encode, List.flatMap_cons, units, List.cons_append, List.flatMap_cons]
      simp only [pairOf, ordered, List.reverse_cons, List.reverse_nil, List.nil_append,
        List.cons_append, List.mem_cons, List.not_mem_nil, or_false] at inside ⊢
      rw [List.isPrefixOf_cons_cons, List.isPrefixOf_cons_cons, Bool.and_eq_false_iff,
        Bool.and_eq_false_iff, beq_eq_false_iff_ne, beq_eq_false_iff_ne]
      rcases inside with rfl | rfl
      · exact .inl notZero.symm
      · exact .inr (.inl notZero.symm)

theorem detect?_byteOrderMark (encoding : Encoding) {characters : List Char}
    (noNull : ∀ character ∈ characters, character ≠ '\x00') :
    detect? (encoding.byteOrderMark ++ encoding.encode characters) = some encoding := by
  cases encoding with
  | utf8 => rfl
  | utf16 order =>
      cases order with
      | big => rfl
      | little =>
          have short := isPrefixOf_encode_little noNull
          simp [detect?, byteOrderMark, List.isPrefixOf, short]
  | utf32 order => cases order <;> rfl

end TimedText.Text.Encoding
