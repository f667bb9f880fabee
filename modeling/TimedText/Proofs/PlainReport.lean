import TimedText.Finding.Rendering
import TimedText.Proofs.Markup.EncodingDeclaration
import TimedText.Proofs.Mending
import TimedText.Proofs.Text.Split
/-!
Reports as lines of plain text. Each finding has a line of its own, unless there is a line feed
in what it says about the document. An encoding declaration is repeated as it stands, so that a
document can put lines of its own choice into its report.
-/

namespace TimedText

open Check Text

/-! ## Findings as lines -/

private theorem Status.label_has_no_feed (status : Status) : '\n' ∉ status.label.toList := by
  cases status <;> decide

private theorem Code.name_has_no_feed (code : Code) : '\n' ∉ code.name.toList := by
  -- A name is taken as the characters in it, which is faster to check.
  have spelled : ∃ characters, code.name = String.ofList characters ∧ '\n' ∉ characters := by
    cases code <;> exact ⟨_, rfl, by decide⟩
  rcases spelled with ⟨characters, same, none⟩
  rw [same, String.toList_ofList]
  exact none

private theorem Finding.toList_line (finding : Finding) :
    finding.line.toList = finding.status.label.toList ++ (": ".toList ++
      (finding.code.name.toList ++ (' ' :: (finding.location.toList ++
        (' ' :: finding.message.toList))))) := by
  simp only [Finding.line, String.toList_append, List.append_assoc]
  rfl

private theorem Finding.feed_mem_line_iff (finding : Finding) :
    '\n' ∈ finding.line.toList ↔
      '\n' ∈ finding.location.toList ∨ '\n' ∈ finding.message.toList := by
  have colon : '\n' ∉ ": ".toList := by decide
  have blank : ('\n' : Char) ≠ ' ' := by decide
  simp only [Finding.toList_line, List.mem_append, List.mem_cons, blank, colon,
    finding.status.label_has_no_feed, finding.code.name_has_no_feed, false_or]

namespace Log

private theorem plainText_cons (finding : Finding) (rest : Log) :
    (plainText (finding :: rest)).toList
      = finding.line.toList ++ '\n' :: rest.plainText.toList := by
  simp only [plainText, String.toList_join, List.map_cons, List.flatMap_cons,
    String.toList_append, List.append_assoc]
  rfl

theorem split_plainText (log : Log) :
    split '\n' log.plainText = (log.flatMap fun finding => split '\n' finding.line) ++ [""] := by
  induction log with
  | nil => rfl
  | cons finding rest induction =>
      rw [split_of_parts (plainText_cons finding rest), induction, List.flatMap_cons,
        List.append_assoc]

theorem split_plainText_iff (log : Log) :
    split '\n' log.plainText = log.map Finding.line ++ [""] ↔
      ∀ finding ∈ log, '\n' ∉ finding.location.toList ∧ '\n' ∉ finding.message.toList := by
  simp only [← not_or, ← Finding.feed_mem_line_iff]
  constructor
  · intro same finding member
    have line := List.mem_append_left [""] (List.mem_map_of_mem (f := Finding.line) member)
    rw [← same] at line
    exact separator_not_mem_of_mem_split line
  · intro none
    have each : log.flatMap (fun finding => split '\n' finding.line) = log.map Finding.line := by
      rw [List.map_eq_flatMap]
      apply List.flatMap_congr
      intro finding member
      exact split_eq_singleton_iff.mpr (none finding member)
    rw [split_plainText, each]

end Log

/-! ## What a report keeps -/

section

variable {finding first : Finding}

private theorem Finding.repeats_self (finding : Finding) : finding.repeats finding = true := by
  simp [Finding.repeats]

private theorem Finding.message_of_repeats (repeats : finding.repeats first = true) :
    first.message = finding.message := by
  simp only [Finding.repeats, Bool.and_eq_true, beq_iff_eq] at repeats
  exact repeats.1.2.symm

private theorem Finding.repeats_eq_of_repeats (repeats : finding.repeats first = true) :
    first.repeats = finding.repeats := by
  simp only [Finding.repeats, Bool.and_eq_true, decide_eq_true_eq, beq_iff_eq] at repeats
  rcases repeats with ⟨⟨status, message⟩, code⟩
  funext other
  rw [Finding.repeats, Finding.repeats, status, message, code]

private theorem Log.collateFrom_keeps (whole : Log) (limit : Nat) (before log : Log)
    (member : finding ∈ log) (new : before.any finding.repeats = false) :
    ∃ kept ∈ collateFrom whole limit before log, kept.message = finding.message := by
  induction log generalizing before with
  | nil => cases member
  | cons first rest induction =>
      rw [collateFrom]
      by_cases repeats : finding.repeats first = true
      · -- The first one stays, if only in summary, since it was not said before either.
        have message := Finding.message_of_repeats repeats
        rw [Finding.repeats_eq_of_repeats repeats, new, if_neg Bool.false_ne_true]
        split
        · exact ⟨_, List.mem_cons_self, message⟩
        · exact ⟨_, List.mem_cons_self, message⟩
      · have member : finding ∈ rest := by
          rcases List.mem_cons.mp member with rfl | member
          · exact absurd finding.repeats_self repeats
          · exact member
        have stillNew : (first :: before).any finding.repeats = false := by
          rw [List.any_cons, new, Bool.or_false]
          exact Bool.eq_false_iff.mpr repeats
        rcases induction _ member stillNew with ⟨kept, stays, message⟩
        split
        · exact ⟨kept, List.mem_cons_of_mem _ stays, message⟩
        · split
          · exact ⟨kept, stays, message⟩
          · exact ⟨kept, List.mem_cons_of_mem _ stays, message⟩

private theorem Log.collate_keeps (log : Log) (limit : Nat) (member : finding ∈ log) :
    ∃ kept ∈ log.collate limit, kept.message = finding.message :=
  Log.collateFrom_keeps log limit [] log member rfl

private theorem runByteChecks_findings_cons (bytes : Bytes) (check : ByteCheck)
    (rest : List ByteCheck) :
    ∃ faults, (runByteChecks bytes (check :: rest)).1.findings
      = (check.run bytes).findings ++ faults
        ++ (runByteChecks (ByteCheck.leaves bytes check) rest).1.findings := by
  rw [runByteChecks, ByteCheck.leaves]
  dsimp only
  cases (check.run bytes).result with
  | ok mended => exact ⟨[], by rw [List.append_nil]; rfl⟩
  | error fault => exact ⟨_, rfl⟩

private theorem runByteChecks_finds {bytes : Bytes} {check : ByteCheck} {checks : List ByteCheck}
    (sound : ∀ check ∈ checks, ByteCheck.leaves bytes check = bytes) (member : check ∈ checks) :
    (check.run bytes).findings ⊆ (runByteChecks bytes checks).1.findings := by
  induction checks with
  | nil => cases member
  | cons first rest induction =>
      rcases List.forall_mem_cons.mp sound with ⟨own, others⟩
      rcases runByteChecks_findings_cons bytes first rest with ⟨faults, parts⟩
      rw [parts, own]
      rcases List.mem_cons.mp member with rfl | member
      · exact fun _ found => List.mem_append_left _ (List.mem_append_left _ found)
      · exact fun _ found => List.mem_append_right _ (induction others member found)

private theorem validate_finds (configuration : Configuration) {bytes : Bytes} {check : ByteCheck}
    (sound : ∀ check, ByteCheck.leaves bytes check = bytes)
    (member : check ∈ configuration.constraints.byteChecks)
    (found : finding ∈ (check.run bytes).findings) :
    ∃ kept ∈ (validate configuration bytes).log, kept.message = finding.message := by
  have mending := runByteChecks_finds (fun check _ => sound check) member found
  have staged : finding ∈ (runStages configuration.constraints configuration.vertical
      bytes).findings := by
    rw [runStages]
    dsimp only
    split
    · exact List.mem_append_left _ mending
    · exact List.mem_append_left _ mending
  rw [validate, validateAgainst]
  dsimp only
  split
  · exact Log.collate_keeps _ _ (List.mem_append_left _ (List.mem_append_left _ staged))
  · exact ⟨finding, List.mem_append_left _ (List.mem_append_left _ staged), rfl⟩

end

/-! ## Lines of the document's choice -/

def isPlain (character : Char) : Bool := character.toNat < 0x80 && character != '\x00'

private theorem isPlain_iff {character : Char} :
    isPlain character = true ↔ character.toNat < 0x80 ∧ character ≠ '\x00' := by
  simp only [isPlain, Bool.and_eq_true, decide_eq_true_eq, bne_iff_ne]

section

variable {text : List Char}

private theorem toNat_lt_of_mem_encode (plain : ∀ character ∈ text, isPlain character = true)
    {byte : UInt8} (member : byte ∈ Utf8.encode text) : byte.toNat < 0x80 := by
  rcases List.mem_flatMap.mp member with ⟨character, among, byte⟩
  have small := (isPlain_iff.mp (plain character among)).1
  rw [Utf8.encodeCharacter] at byte
  dsimp only at byte
  rw [if_pos small] at byte
  rw [List.mem_singleton.mp byte, Utf8.toNat_ofNat (by omega)]
  omega

private theorem leaves_plain (plain : ∀ character ∈ text, isPlain character = true)
    (begins : text.head? = some '<') (check : ByteCheck) :
    ByteCheck.leaves (Utf8.encode text) check = Utf8.encode text := by
  cases check with
  | byteOrderMark =>
      rcases List.head?_eq_some_iff.mp begins with ⟨rest, rfl⟩
      exact leaves_byteOrderMark_unmarked rfl rfl
  | encoding =>
      apply leaves_encoding_sound
      rintro ⟨siren, member, occurs⟩
      have high : ∀ siren ∈ sirens, (0xc3 : UInt8) ∈ siren := by decide
      have low := toNat_lt_of_mem_encode plain (occurs.subset (high siren member))
      exact absurd low (by decide)
  | nullBytes =>
      exact leaves_nullBytes_encode fun character member =>
        (isPlain_iff.mp (plain character member)).2
  | markup => exact leaves_markup _

end

structure IsDeclarable (line : List Char) : Prop where
  plain : ∀ character ∈ line, isPlain character = true
  single : '\n' ∉ line
  goesOn : line.IsChain Markup.GoesOn
  quotable : ∃ quote, Markup.isQuote quote = true ∧ quote ∉ line

def lineEncoding (line : List Char) : List Char := '\n' :: (line ++ ['\n'])

private theorem isPlain_declaringDocument {quote : Char} {encoding : List Char}
    (quotes : Markup.isQuote quote = true)
    (plain : ∀ character ∈ encoding, isPlain character = true) :
    ∀ character ∈ Markup.declaringDocument quote encoding, isPlain character = true := by
  have plainQuote : isPlain quote = true := by
    rcases Markup.eq_of_isQuote quotes with rfl | rfl <;> rfl
  have literal {text : List Char} (all : text.all isPlain = true) :
      ∀ character ∈ text, isPlain character = true := List.all_eq_true.mp all
  have parts : Markup.declaringDocument quote encoding
      = "<?xml version=".toList ++ (quote :: ("1.0".toList ++ (quote :: (" encoding=".toList
        ++ (quote :: (encoding ++ (quote :: "?><tt/>".toList))))))) := by
    simp [Markup.declaringDocument, Markup.encodingDeclaration, Markup.spelled]
  rw [parts]
  simp only [List.forall_mem_append, List.forall_mem_cons]
  exact ⟨literal rfl, plainQuote, literal rfl, plainQuote, literal rfl, plainQuote, plain,
    plainQuote, literal rfl⟩

private theorem isChain_lineEncoding {line : List Char} (goesOn : line.IsChain Markup.GoesOn) :
    (lineEncoding line).IsChain Markup.GoesOn := by
  have feed (other : Char) : Markup.GoesOn '\n' other ∧ Markup.GoesOn other '\n' := by
    simp [Markup.GoesOn]
  have ends : (line ++ ['\n']).IsChain Markup.GoesOn := goesOn.append (.singleton _) (by
    rintro last _ _ ⟨⟩
    exact (feed last).2)
  exact ends.cons fun first _ => (feed first).1

def encodingFinding (encoding : String) : Finding :=
  .fail .xmlEncodingDecl "XML prolog"
    s!"Non-UTF-8 encoding declaration: {encoding}, UTF-8 required"

private theorem encodingFinding_mem_checkStructure {text : List Char} {version encoding : String}
    (declares : (Markup.Prolog.scan (String.ofList text)).declaration
      = some ⟨version, some encoding⟩)
    (other : encoding.toList.map Char.toUpper ≠ "UTF-8".toList) :
    encodingFinding encoding ∈ (ByteCheck.markup.run (Utf8.encode text)).findings := by
  have declared : (checkDeclaration (some ⟨version, some encoding⟩)).findings
      = [encodingFinding encoding] := by
    rw [checkDeclaration, if_neg other]
    rfl
  rw [ByteCheck.run, checkStructure, Utf8.decodeLossy_encode, declares]
  apply List.mem_append_left
  apply List.mem_append_right
  rw [declared]
  exact List.mem_singleton_self _

private theorem markup_mem_byteChecks (configuration : Configuration) :
    ByteCheck.markup ∈ configuration.constraints.byteChecks := by
  rw [Configuration.constraints]
  cases configuration.profile <;> simp [Profile.captions, Profile.scripts]

theorem validate_echoes (configuration : Configuration) {line : List Char}
    (declarable : IsDeclarable line) :
    ∃ bytes, ∃ kept ∈ (validate configuration bytes).log,
      kept.message = (encodingFinding (String.ofList (lineEncoding line))).message := by
  rcases declarable with ⟨plain, single, goesOn, quote, quotes, inside⟩
  have quoteNotFeed : quote ≠ '\n' := by
    rintro rfl
    cases quotes
  have encodingInside : quote ∉ lineEncoding line := by
    simp [lineEncoding, inside, quoteNotFeed]
  have encodingPlain : ∀ character ∈ lineEncoding line, isPlain character = true := by
    have feed : isPlain '\n' = true := rfl
    simp only [lineEncoding, List.forall_mem_cons, List.forall_mem_append]
    exact ⟨feed, plain, feed, List.forall_mem_nil _⟩
  have declares := Markup.scan_declaringDocument quotes encodingInside
    (isChain_lineEncoding goesOn)
  have other : (String.ofList (lineEncoding line)).toList.map Char.toUpper
      ≠ "UTF-8".toList := by
    rw [String.toList_ofList, lineEncoding, List.map_cons]
    exact fun same => absurd (List.cons.inj same).1 (by decide)
  exact ⟨_, validate_finds configuration
    (leaves_plain (isPlain_declaringDocument quotes encodingPlain) rfl)
    (markup_mem_byteChecks configuration) (encodingFinding_mem_checkStructure declares other)⟩

private theorem toList_message_encodingFinding (line : List Char) :
    (encodingFinding (String.ofList (lineEncoding line))).message.toList
      = "Non-UTF-8 encoding declaration: ".toList
        ++ '\n' :: (line ++ '\n' :: ", UTF-8 required".toList) := by
  change ("Non-UTF-8 encoding declaration: " ++ String.ofList (lineEncoding line)
    ++ ", UTF-8 required").toList = _
  simp only [String.toList_append, String.toList_ofList, lineEncoding, List.append_assoc,
    List.cons_append, List.nil_append]

theorem mem_split_line {finding : Finding} {line : String}
    (message : finding.message
      = (encodingFinding (String.ofList (lineEncoding line.toList))).message)
    (none : '\n' ∉ line.toList) :
    finding.line ≠ line ∧ line ∈ split '\n' finding.line := by
  have said := toList_message_encodingFinding line.toList
  rw [← message] at said
  constructor
  · rintro rfl
    rw [Finding.feed_mem_line_iff] at none
    exact none (.inr (by simp [said]))
  · let front := finding.status.label ++ ": " ++ finding.code.name ++ " " ++ finding.location
      ++ " " ++ "Non-UTF-8 encoding declaration: "
    have parts : finding.line.toList
        = front.toList ++ '\n' :: (line.toList ++ '\n' :: ", UTF-8 required".toList) := by
      rw [Finding.toList_line, said]
      simp [front]
    exact mem_split_of_parts parts none

/-- In the plain form of a report each finding has a line of its own, unless there is a line
feed in a location or a message; and there may be one, as some document can put any line that
an encoding declaration can hold into its report, though the line is part of a finding. -/
theorem validate_render_plain (configuration : Configuration) :
    (∀ bytes,
      let log := (validate configuration bytes).log
      split '\n' (log.render .plain) = log.map Finding.line ++ [""] ↔
        ∀ finding ∈ log, '\n' ∉ finding.location.toList ∧ '\n' ∉ finding.message.toList) ∧
    ∀ line : String, IsDeclarable line.toList →
      ∃ bytes,
        let log := (validate configuration bytes).log
        line ∈ split '\n' (log.render .plain) ∧
          ∃ finding ∈ log, finding.line ≠ line ∧ line ∈ split '\n' finding.line := by
  refine ⟨fun bytes => Log.split_plainText_iff _, fun line declarable => ?_⟩
  rcases validate_echoes configuration declarable with ⟨bytes, kept, logged, message⟩
  have part := mem_split_line message declarable.single
  refine ⟨bytes, ?_, kept, logged, part⟩
  rw [Log.render, Log.split_plainText]
  exact List.mem_append_left _ (List.mem_flatMap.mpr ⟨kept, logged, part.2⟩)

theorem validate_render_plain_passed :
    let passed : Finding := .pass .ttmlDocumentValidity "Document"
      "Document appears to be valid TTML with 0 TTML-related warnings"
    ∃ bytes,
      let log := (validate (.standard .captions) bytes).log
      passed.line ∈ split '\n' (log.render .plain) ∧
        ∃ finding ∈ log, finding.line ≠ passed.line ∧ passed.line ∈ split '\n' finding.line :=
  (validate_render_plain (.standard .captions)).2 _
    ⟨List.all_eq_true.mp (by decide +kernel), by decide +kernel, by decide +kernel, '"', rfl,
      by decide +kernel⟩

end TimedText
