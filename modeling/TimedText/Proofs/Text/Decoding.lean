import Mathlib.Data.List.Chain
import TimedText.Proofs.Text.Encoding
/-!
Bytes in the encodings that a byte order mark can announce. They are read as the one text
that is written as them; and where there is no such text they are refused, because a unit
is cut short, a surrogate stands without the other one of its pair, or a code point is
none of a character.
-/

namespace TimedText.Text.Encoding

/-! ## Units back to bytes -/

private theorem ofNat_eq_of_mod {value : Nat} (byte : UInt8) (same : value % 0x100 = byte.toNat) :
    UInt8.ofNat value = byte := by
  apply UInt8.toNat_inj.mp
  rw [UInt8.toNat_ofNat']
  exact same

private theorem pairOf_unitValue (order : ByteOrder) (first second : UInt8) :
    pairOf order (unitValue order [first, second]) = [first, second] := by
  have big (high low : UInt8) : pairOf .big (unitValue .big [high, low]) = [high, low] := by
    have highSmall := high.toNat_lt
    have lowSmall := low.toNat_lt
    have value : unitValue .big [high, low] = high.toNat * 256 + low.toNat := by
      simp [unitValue]
    rw [value, pairOf, ordered, ofNat_eq_of_mod high (by omega),
      ofNat_eq_of_mod low (by omega)]
  cases order with
  | big => exact big first second
  | little => exact congrArg List.reverse (big second first)

private theorem quadOf_unitValue (order : ByteOrder) (first second third fourth : UInt8) :
    quadOf order (unitValue order [first, second, third, fourth])
      = [first, second, third, fourth] := by
  have big (highest high low lowest : UInt8) :
      quadOf .big (unitValue .big [highest, high, low, lowest])
        = [highest, high, low, lowest] := by
    have highestSmall := highest.toNat_lt
    have highSmall := high.toNat_lt
    have lowSmall := low.toNat_lt
    have lowestSmall := lowest.toNat_lt
    have value : unitValue .big [highest, high, low, lowest]
        = ((highest.toNat * 256 + high.toNat) * 256 + low.toNat) * 256 + lowest.toNat := by
      simp [unitValue]
    rw [value, quadOf, ordered, ofNat_eq_of_mod highest (by omega),
      ofNat_eq_of_mod high (by omega), ofNat_eq_of_mod low (by omega),
      ofNat_eq_of_mod lowest (by omega)]
  cases order with
  | big => exact big first second third fourth
  | little => exact congrArg List.reverse (big fourth third second first)

private theorem unitValue_pair_lt (order : ByteOrder) (first second : UInt8) :
    unitValue order [first, second] < 0x10000 := by
  have firstSmall := first.toNat_lt
  have secondSmall := second.toNat_lt
  cases order <;> simp [unitValue] <;> omega

private theorem pairs_small (order : ByteOrder) (bytes : Bytes) :
    ∀ unit ∈ pairs order bytes, unit < 0x10000 := by
  fun_induction pairs order bytes with
  | case1 first second rest induction =>
      exact List.forall_mem_cons.mpr ⟨unitValue_pair_lt order first second, induction⟩
  | case2 => simp

private theorem flatMap_pairs {order : ByteOrder} {bytes : Bytes} (whole : bytes.length % 2 = 0) :
    (pairs order bytes).flatMap (pairOf order) = bytes := by
  fun_induction pairs order bytes with
  | case1 first second rest induction =>
      simp only [List.length_cons] at whole
      rw [List.flatMap_cons, pairOf_unitValue, induction (by omega)]
      rfl
  | case2 bytes short =>
      match bytes with
      | [] => rfl
      | [_] => simp at whole
      | _ :: _ :: _ => exact absurd rfl (short _ _ _)

private theorem flatMap_quads {order : ByteOrder} {bytes : Bytes} (whole : bytes.length % 4 = 0) :
    (quads order bytes).flatMap (quadOf order) = bytes := by
  fun_induction quads order bytes with
  | case1 first second third fourth rest induction =>
      simp only [List.length_cons] at whole
      rw [List.flatMap_cons, quadOf_unitValue, induction (by omega)]
      rfl
  | case2 bytes short =>
      match bytes with
      | [] => rfl
      | [_] | [_, _] | [_, _, _] => simp at whole
      | _ :: _ :: _ :: _ :: _ => exact absurd rfl (short _ _ _ _ _)

/-! ## Characters back to units -/

private theorem isHighSurrogate_iff {unit : Nat} :
    isHighSurrogate unit = true ↔ 0xd800 ≤ unit ∧ unit < 0xdc00 := by
  simp [isHighSurrogate]

private theorem isLowSurrogate_iff {unit : Nat} :
    isLowSurrogate unit = true ↔ 0xdc00 ≤ unit ∧ unit < 0xe000 := by
  simp [isLowSurrogate]

private theorem unitsOf_plain {unit : Nat} (small : unit < 0x10000)
    (notHigh : isHighSurrogate unit = false) (notLow : isLowSurrogate unit = false) :
    unitsOf (Char.ofNat unit) = [unit] := by
  rw [← Bool.not_eq_true, isHighSurrogate_iff] at notHigh
  rw [← Bool.not_eq_true, isLowSurrogate_iff] at notLow
  rw [unitsOf, Utf8.toNat_char_ofNat (by omega), if_pos small]

private theorem unitsOf_surrogates {high low : Nat} (isHigh : isHighSurrogate high = true)
    (isLow : isLowSurrogate low = true) :
    unitsOf (Char.ofNat (0x10000 + (high - 0xd800) * 0x400 + (low - 0xdc00)))
      = [high, low] := by
  rw [isHighSurrogate_iff] at isHigh
  rw [isLowSurrogate_iff] at isLow
  have first : 0xd800 + (0x10000 + (high - 0xd800) * 0x400 + (low - 0xdc00) - 0x10000) / 0x400
      = high := by omega
  have second : 0xdc00 + (0x10000 + (high - 0xd800) * 0x400 + (low - 0xdc00) - 0x10000) % 0x400
      = low := by omega
  rw [unitsOf, Utf8.toNat_char_ofNat (by omega), if_neg (by omega), first, second]

/-! ## Surrogates in pairs -/

/-- A unit is followed by a low surrogate exactly if it is a high one. -/
abbrev Precedes (unit next : Nat) : Prop :=
  isHighSurrogate unit = isLowSurrogate next

/-- A high surrogate stands right before each low one, and nowhere else. The zeros stand for
the ends of the units. -/
def ArePaired (units : List Nat) : Prop :=
  List.IsChain Precedes (0 :: (units ++ [0]))

instance (units : List Nat) : Decidable (ArePaired units) :=
  inferInstanceAs (Decidable (List.IsChain _ _))

example : ArePaired [0x3c, 0xd83d, 0xde00] := by decide
example : ¬ArePaired [0xd83d] := by decide
example : ¬ArePaired [0xde00, 0xd83d] := by decide

section

variable {unit high low : Nat} {rest : List Nat}

private theorem isChain_precedes_congr (next : Nat)
    (same : isHighSurrogate unit = isHighSurrogate next) :
    List.IsChain Precedes (unit :: rest) ↔ List.IsChain Precedes (next :: rest) := by
  cases rest <;> simp [Precedes, same]

private theorem arePaired_cons :
    ArePaired (unit :: rest) ↔
      isLowSurrogate unit = false ∧ List.IsChain Precedes (unit :: (rest ++ [0])) := by
  rw [ArePaired, List.cons_append, List.isChain_cons_cons]
  exact and_congr_left fun _ => eq_comm

private theorem arePaired_plain (notHigh : isHighSurrogate unit = false)
    (notLow : isLowSurrogate unit = false) : ArePaired (unit :: rest) ↔ ArePaired rest := by
  rw [arePaired_cons, isChain_precedes_congr 0 notHigh]
  exact and_iff_right notLow

private theorem arePaired_surrogates (isHigh : isHighSurrogate high = true)
    (isLow : isLowSurrogate low = true) : ArePaired (high :: low :: rest) ↔ ArePaired rest := by
  have highNotLow : isLowSurrogate high = false := by
    rw [isHighSurrogate_iff] at isHigh
    simp [isLowSurrogate]
    omega
  have lowNotHigh : isHighSurrogate low = false := by
    rw [isLowSurrogate_iff] at isLow
    simp [isHighSurrogate]
    omega
  rw [arePaired_cons, List.cons_append, List.isChain_cons_cons,
    isChain_precedes_congr 0 lowNotHigh]
  have precedes : Precedes high low := isHigh.trans isLow.symm
  exact ⟨fun chain => chain.2.2, fun chain => ⟨highNotLow, precedes, chain⟩⟩

private theorem not_arePaired_high (isHigh : isHighSurrogate high = true)
    (notLow : ∀ next ∈ rest.head?, isLowSurrogate next = false) :
    ¬ArePaired (high :: rest) := by
  intro paired
  have chain := (arePaired_cons.mp paired).2
  cases rest with
  | nil => simp [Precedes, isHigh, isLowSurrogate] at chain
  | cons next rest => simp [Precedes, isHigh, notLow next rfl] at chain

end

/-- Units are read exactly if their surrogates are paired, and then as the characters that
they are the units of. -/
private theorem ofUnits_cases {units : List Nat} (small : ∀ unit ∈ units, unit < 0x10000) :
    (∃ text, ofUnits units = .ok text ∧ units = text.flatMap unitsOf ∧ ArePaired units) ∨
      ∃ defect, ofUnits units = .error defect ∧ ¬ArePaired units := by
  fun_induction ofUnits units with
  | case1 => exact .inl ⟨[], rfl, rfl, by decide⟩
  | case2 unit surrogate =>
      refine .inr ⟨_, rfl, fun paired => ?_⟩
      rcases Bool.or_eq_true_iff.mp surrogate with high | low
      · exact not_arePaired_high high (by simp) paired
      · simp [(arePaired_cons.mp paired).1] at low
  | case3 unit plain =>
      rw [Bool.or_eq_true_iff, not_or, Bool.not_eq_true, Bool.not_eq_true] at plain
      refine .inl ⟨[Char.ofNat unit], rfl, ?_, (arePaired_plain plain.1 plain.2).mpr (by decide)⟩
      rw [List.flatMap_singleton, unitsOf_plain (small unit List.mem_cons_self) plain.1 plain.2]
  | case4 unit next rest low =>
      refine .inr ⟨_, rfl, fun paired => ?_⟩
      simp [(arePaired_cons.mp paired).1] at low
  | case5 high low rest _ isHigh isLow code induction =>
      have further := induction fun unit member =>
        small unit (List.mem_cons_of_mem _ (List.mem_cons_of_mem _ member))
      rw [arePaired_surrogates isHigh isLow]
      rcases further with ⟨text, reads, same, paired⟩ | ⟨defect, refuses, unpaired⟩
      · refine .inl ⟨Char.ofNat code :: text, by rw [reads]; rfl, ?_, paired⟩
        rw [List.flatMap_cons, unitsOf_surrogates isHigh isLow, ← same]
        rfl
      · exact .inr ⟨defect, by rw [refuses]; rfl, unpaired⟩
  | case6 high next rest _ isHigh notLow =>
      refine .inr ⟨_, rfl, not_arePaired_high isHigh fun _ same => ?_⟩
      cases same
      exact Bool.eq_false_iff.mpr notLow
  | case7 unit next rest notLow notHigh induction =>
      have further := induction fun unit member => small unit (List.mem_cons_of_mem _ member)
      rw [Bool.not_eq_true] at notHigh notLow
      rw [arePaired_plain notHigh notLow]
      rcases further with ⟨text, reads, same, paired⟩ | ⟨defect, refuses, unpaired⟩
      · refine .inl ⟨Char.ofNat unit :: text, by rw [reads]; rfl, ?_, paired⟩
        rw [List.flatMap_cons, unitsOf_plain (small unit List.mem_cons_self) notHigh notLow,
          ← same]
        rfl
      · exact .inr ⟨defect, by rw [refuses]; rfl, unpaired⟩

/-! ## Code points -/

private theorem ofCodePoints_cases (codes : List Nat) :
    (∃ text, ofCodePoints codes = .ok text ∧ codes = text.map Char.toNat ∧
        ∀ code ∈ codes, code.isValidChar) ∨
      ∃ defect, ofCodePoints codes = .error defect ∧ ∃ code ∈ codes, ¬code.isValidChar := by
  fun_induction ofCodePoints codes with
  | case1 => exact .inl ⟨[], rfl, rfl, by simp⟩
  | case2 code rest valid induction =>
      rcases induction with ⟨text, reads, same, further⟩ | ⟨defect, refuses, other, member, bad⟩
      · refine .inl ⟨Char.ofNat code :: text, by rw [reads]; rfl, ?_,
          List.forall_mem_cons.mpr ⟨valid, further⟩⟩
        rw [List.map_cons, Utf8.toNat_char_ofNat valid, ← same]
      · exact .inr ⟨defect, by rw [refuses]; rfl, other, List.mem_cons_of_mem _ member, bad⟩
  | case3 code rest bad => exact .inr ⟨_, rfl, code, List.mem_cons_self, bad⟩

/-! ## Bytes that are read -/

/-- Why bytes are none of a text: they end within a unit, a surrogate of theirs has no
partner, or a code point of theirs is a surrogate or lies beyond the last one. -/
def IsMalformed : Encoding → Bytes → Prop
  | .utf8, bytes => ¬bytes.toByteArray.IsValidUTF8
  | .utf16 order, bytes => bytes.length % 2 ≠ 0 ∨ ¬ArePaired (pairs order bytes)
  | .utf32 order, bytes => bytes.length % 4 ≠ 0 ∨
      ∃ code ∈ quads order bytes, 0xd800 ≤ code ∧ code ≤ 0xdfff ∨ 0x10ffff < code

theorem decode_cases (encoding : Encoding) (bytes : Bytes) :
    (∃ text, encoding.decode bytes = .ok text ∧ bytes = encoding.encode text ∧
        ¬encoding.IsMalformed bytes) ∨
      ∃ defect, encoding.decode bytes = .error defect ∧ encoding.IsMalformed bytes := by
  cases encoding with
  | utf8 =>
      rw [IsMalformed, Utf8.isValidUTF8_iff]
      cases reads : Utf8.decode bytes with
      | ok text =>
          have same := Utf8.decode_eq_ok_iff.mp reads
          refine .inl ⟨text, by rw [decode, reads]; rfl, same, not_not.mpr ⟨text, same⟩⟩
      | error defect =>
          refine .inr ⟨.utf8 defect, by rw [decode, reads]; rfl, ?_⟩
          rintro ⟨text, same⟩
          rw [Utf8.decode_eq_ok_iff.mpr same] at reads
          cases reads
  | utf16 order =>
      rw [decode, IsMalformed]
      by_cases whole : bytes.length % 2 = 0
      · rw [if_pos whole]
        rcases ofUnits_cases (pairs_small order bytes)
          with ⟨text, reads, same, paired⟩ | ⟨defect, refuses, unpaired⟩
        · refine .inl ⟨text, reads, ?_, by simp [whole, paired]⟩
          rw [encode, ← same, flatMap_pairs whole]
        · exact .inr ⟨defect, refuses, .inr unpaired⟩
      · rw [if_neg whole]
        exact .inr ⟨_, rfl, .inl whole⟩
  | utf32 order =>
      rw [decode, IsMalformed]
      by_cases whole : bytes.length % 4 = 0
      · rw [if_pos whole]
        rcases ofCodePoints_cases (quads order bytes)
          with ⟨text, reads, same, valid⟩ | ⟨defect, refuses, code, member, invalid⟩
        · refine .inl ⟨text, reads, ?_, ?_⟩
          · rw [encode, ← List.flatMap_map, ← same, flatMap_quads whole]
          · rintro (cut | ⟨code, member, range⟩)
            · exact cut whole
            · have isValid := valid code member
              simp only [Nat.isValidChar] at isValid
              omega
        · refine .inr ⟨defect, refuses, .inr ⟨code, member, ?_⟩⟩
          simp only [Nat.isValidChar] at invalid
          omega
      · rw [if_neg whole]
        exact .inr ⟨_, rfl, .inl whole⟩

/-- Bytes are read as a text exactly if they are its encoding, and refused exactly if they
are malformed. -/
theorem decode_eq_ok_iff_encoded (encoding : Encoding) (bytes : Bytes) :
    (∀ text, encoding.decode bytes = .ok text ↔ bytes = encoding.encode text) ∧
      ((∃ defect, encoding.decode bytes = .error defect) ↔ encoding.IsMalformed bytes) := by
  have reads (text : List Char) (same : bytes = encoding.encode text) :
      encoding.decode bytes = .ok text := same ▸ decode_encode encoding text
  rcases decode_cases encoding bytes
    with ⟨text, reading, same, wellFormed⟩ | ⟨defect, refuses, malformed⟩
  · constructor
    · intro other
      refine ⟨fun reading' => ?_, reads other⟩
      cases reading.symm.trans reading'
      exact same
    · simp [reading, wellFormed]
  · constructor
    · intro other
      refine ⟨fun reading => ?_, reads other⟩
      cases reading.symm.trans refuses
    · simp [refuses, malformed]

end TimedText.Text.Encoding
