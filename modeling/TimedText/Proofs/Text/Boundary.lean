import TimedText.Proofs.Text.Utf8
/-!
Where characters begin among bytes. The first byte of a character can be told from those that
follow it, so that the bytes of one text occur among those of another one only where the text
itself occurs.
-/

namespace TimedText.Text.Utf8

/-! ## Single characters -/

private theorem not_isContinuation {byte : UInt8} (outside : byte < 0x80 ∨ 0xc0 ≤ byte) :
    isContinuation byte = false := by
  rw [Bool.eq_false_iff, ne_eq, isContinuation_iff]
  simp only [UInt8.lt_iff_toNat_lt, UInt8.le_iff_toNat_le, UInt8.reduceToNat] at outside
  omega

private theorem isContinuation_of_isSecond {first second : UInt8}
    (second_ : ¬(!isSecond first second) = true) : isContinuation second = true :=
  isContinuation_iff.mpr (isSecond_bounds (by simpa using second_)).1

private theorem isContinuation_of_read {first : UInt8} {rest : Bytes} {character : Char}
    {further : Nat} (reads : read first rest = .character character further) :
    isContinuation first = false ∧ ∀ byte ∈ rest.take further, isContinuation byte = true := by
  revert reads
  fun_cases read first rest with
  | case1 _ one =>
      rintro ⟨⟩
      exact ⟨not_isContinuation (.inl one), List.forall_mem_nil _⟩
  | case3 _ two second rest second_ =>
      rintro ⟨⟩
      refine ⟨not_isContinuation (.inr (UInt8.le_trans (by decide) two.1)), ?_⟩
      simpa using second_
  | case8 _ _ three second second_ third rest third_ =>
      rintro ⟨⟩
      refine ⟨not_isContinuation (.inr (UInt8.le_trans (by decide) three.1)), ?_⟩
      simpa using ⟨isContinuation_of_isSecond second_, third_⟩
  | case15 _ _ _ four second second_ third third_ fourth rest fourth_ =>
      rintro ⟨⟩
      refine ⟨not_isContinuation (.inr (UInt8.le_trans (by decide) four.1)), ?_⟩
      simpa using ⟨isContinuation_of_isSecond second_, by simpa using third_, fourth_⟩
  | _ =>
      intro reads
      cases reads

private theorem encodeCharacter_leads (character : Char) :
    ∃ first further, encodeCharacter character = first :: further ∧
      isContinuation first = false ∧ ∀ byte ∈ further, isContinuation byte = true := by
  rcases encodeCharacter_read character with ⟨first, further, bytes, reads⟩
  have leads := isContinuation_of_read (reads [])
  rw [List.append_nil, List.take_length] at leads
  exact ⟨first, further, bytes, leads⟩

/-! ## Texts -/

private theorem encode_cons (character : Char) (rest : List Char) :
    encode (character :: rest) = encodeCharacter character ++ encode rest :=
  List.flatMap_cons

private theorem encode_append (front last : List Char) :
    encode (front ++ last) = encode front ++ encode last :=
  List.flatMap_append

private theorem prefix_of_encode {part text : List Char} (begins : encode part <+: encode text) :
    part <+: text := by
  rcases begins with ⟨rest, same⟩
  rcases decodeFrom_encode_append 0 part rest with ⟨further, reads⟩
  have whole : decodeFrom 0 (encode text) = .ok text := decode_encode text
  rw [← same, reads] at whole
  cases others : decodeFrom (0 + further) rest with
  | error defect =>
      rw [others] at whole
      cases whole
  | ok others_ =>
      rw [others] at whole
      cases whole
      exact List.prefix_append part others_

private theorem infix_of_continuation_append {first : UInt8} {part more bytes : Bytes}
    (leads : isContinuation first = false)
    (continues : ∀ byte ∈ more, isContinuation byte = true)
    (occurs : first :: part <:+: more ++ bytes) : first :: part <:+: bytes := by
  induction more with
  | nil => exact occurs
  | cons byte more induction =>
      rcases List.forall_mem_cons.mp continues with ⟨own, others⟩
      rcases List.infix_cons_iff.mp occurs with begins | inside
      · rw [(List.cons_prefix_cons.mp begins).1, own] at leads
        cases leads
      · exact induction others inside

/-- What occurs among the bytes of a text occurs in the text: no character begins inside of
the bytes of another one. -/
private theorem infix_of_encode {part text : List Char} (occurs : encode part <:+: encode text) :
    part <:+: text := by
  rcases part with _ | ⟨character, part⟩
  · exact List.nil_infix
  induction text with
  | nil =>
      rcases encodeCharacter_leads character with ⟨first, further, bytes, -⟩
      rw [encode_cons, bytes] at occurs
      cases List.infix_nil.mp occurs
  | cons other text induction =>
      rcases encodeCharacter_leads other with ⟨byte, more, otherBytes, -, continues⟩
      have parts : encode (other :: text) = byte :: (more ++ encode text) := by
        rw [encode_cons, otherBytes, List.cons_append]
      rw [parts] at occurs
      rcases List.infix_cons_iff.mp occurs with begins | inside
      · rw [← parts] at begins
        exact (prefix_of_encode begins).isInfix
      · rcases encodeCharacter_leads character with ⟨first, further, bytes, leads, -⟩
        rw [encode_cons, bytes, List.cons_append] at inside induction
        exact List.infix_cons
          (induction (infix_of_continuation_append leads continues inside))

theorem encode_infix_iff {part text : List Char} :
    encode part <:+: encode text ↔ part <:+: text := by
  constructor
  · exact infix_of_encode
  · rintro ⟨before, after, rfl⟩
    rw [encode_append, encode_append]
    exact List.infix_append _ _ _

end TimedText.Text.Utf8
