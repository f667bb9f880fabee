import Mathlib.Data.List.TakeWhile
import TimedText.Finding.Rendering
import TimedText.Proofs.Text.Cut
/-!
Comma-separated values as RFC 4180 describes them: the grammar of records and fields, a reader,
and what a written log is read as. There is one way to read it, and that gives every finding
back, whatever characters it has.
-/

namespace TimedText.CommaSeparated

/-! ## Grammar -/

/-- Characters that stand in a field between quotes only. All others, also those outside of
ASCII, are text. -/
def isReserved (character : Char) : Bool :=
  [',', '"', '\r', '\n'].contains character

/-- What stands between the quotes of a field, and what is meant by it. -/
inductive Escaped : List Char → List Char → Prop
  | nil : Escaped [] []
  | quote {text value : List Char} (rest : Escaped text value) :
      Escaped ('"' :: '"' :: text) ('"' :: value)
  | other {character : Char} {text value : List Char} (other : character ≠ '"')
      (rest : Escaped text value) : Escaped (character :: text) (character :: value)

inductive Field : List Char → List Char → Prop
  | plain {text : List Char} (free : ∀ character ∈ text, isReserved character = false) :
      Field text text
  | quoted {text value : List Char} (escaped : Escaped text value) :
      Field ('"' :: (text ++ ['"'])) value

inductive Record : List Char → List (List Char) → Prop
  | last {text value : List Char} (field : Field text value) : Record text [value]
  | more {text value others : List Char} {values : List (List Char)}
      (field : Field text value) (rest : Record others values) :
      Record (text ++ ',' :: others) (value :: values)

inductive Records : List Char → List (List (List Char)) → Prop
  | last {text : List Char} {values : List (List Char)} (record : Record text values) :
      Records text [values]
  | more {text others : List Char} {values : List (List Char)} {rows : List (List (List Char))}
      (record : Record text values) (rest : Records others rows) :
      Records (text ++ '\r' :: '\n' :: others) (values :: rows)

/-- Records that a text is made of. There may be a line break at the end of the last one, and
each of them has as many fields as the others. -/
structure IsReading (text : String) (rows : List (List String)) : Prop where
  records : ∃ body, Records body (rows.map (·.map String.toList)) ∧
    (text.toList = body ∨ text.toList = body ++ ['\r', '\n'])
  even : ∀ first ∈ rows, ∀ second ∈ rows, first.length = second.length

/-! ## Reading -/

def readQuoted : List Char → Option (List Char × List Char)
  | [] => none
  | '"' :: '"' :: rest => (readQuoted rest).map fun (value, rest) => ('"' :: value, rest)
  | '"' :: rest => some ([], rest)
  | character :: rest =>
    (readQuoted rest).map fun (value, rest) => (character :: value, rest)

def readField : List Char → Option (List Char × List Char)
  | '"' :: rest => readQuoted rest
  | text => some (text.span fun character => !isReserved character)

private theorem readQuoted_sound {text value rest : List Char}
    (reads : readQuoted text = some (value, rest)) :
    ∃ front, Escaped front value ∧ text = front ++ '"' :: rest := by
  fun_induction readQuoted text generalizing value with
  | case1 => cases reads
  | case2 text induction =>
      rcases Option.map_eq_some_iff.mp reads with ⟨⟨inner, last⟩, further, same⟩
      cases same
      rcases induction further with ⟨front, escaped, rfl⟩
      exact ⟨_, .quote escaped, rfl⟩
  | case3 text single =>
      cases reads
      exact ⟨[], .nil, rfl⟩
  | case4 character text double single induction =>
      rcases Option.map_eq_some_iff.mp reads with ⟨⟨inner, last⟩, further, same⟩
      cases same
      rcases induction further with ⟨front, escaped, rfl⟩
      exact ⟨_, .other single escaped, rfl⟩

private theorem readField_sound {text value rest : List Char}
    (reads : readField text = some (value, rest)) :
    ∃ front, Field front value ∧ text = front ++ rest := by
  unfold readField at reads
  split at reads
  next inner =>
    rcases readQuoted_sound reads with ⟨front, escaped, rfl⟩
    exact ⟨_, .quoted escaped, by simp⟩
  next =>
    rcases Text.span_eq_iff.mp (Option.some.inj reads) with ⟨rfl, free, _⟩
    exact ⟨value, .plain fun character member => by simpa using free character member, rfl⟩

def readRecord (text : List Char) : Option (List (List Char) × List Char) :=
  match _field : readField text with
  | some (value, ',' :: rest) =>
    (readRecord rest).map fun (values, rest) => (value :: values, rest)
  | some (value, rest) => some ([value], rest)
  | none => none
termination_by text.length
decreasing_by
  rcases readField_sound _field with ⟨front, _, rfl⟩
  rw [List.length_append, List.length_cons]
  omega

private theorem readRecord_sound {text rest : List Char} {values : List (List Char)}
    (reads : readRecord text = some (values, rest)) :
    ∃ front, Record front values ∧ text = front ++ rest := by
  fun_induction readRecord text generalizing values with
  | case1 text value others field induction =>
      rcases Option.map_eq_some_iff.mp reads with ⟨⟨inner, last⟩, further, same⟩
      cases same
      rcases induction further with ⟨behind, record, rfl⟩
      rcases readField_sound field with ⟨front, own, rfl⟩
      exact ⟨_, .more own record, by simp⟩
  | case2 text value others stops field =>
      cases reads
      rcases readField_sound field with ⟨front, own, rfl⟩
      exact ⟨front, .last own, rfl⟩
  | case3 text none => cases reads

/-- Reads records up to the end of a text. A line break there ends the last record. -/
def readRecords (text : List Char) : Option (List (List (List Char))) :=
  match _record : readRecord text with
  | some (values, []) => some [values]
  | some (values, ['\r', '\n']) => some [values]
  | some (values, '\r' :: '\n' :: rest) => (readRecords rest).map (values :: ·)
  | _ => none
termination_by text.length
decreasing_by
  rcases readRecord_sound _record with ⟨front, _, rfl⟩
  simp only [List.length_append, List.length_cons]
  omega

def read (text : String) : Option (List (List String)) :=
  (readRecords text.toList).map fun rows => rows.map (·.map String.ofList)

/-! ## Reading what is written by the grammar -/

private theorem readQuoted_append {text value rest : List Char} (escaped : Escaped text value)
    (stops : ∀ character ∈ rest.head?, character ≠ '"') :
    readQuoted (text ++ '"' :: rest) = some (value, rest) := by
  induction escaped with
  | nil =>
      cases rest with
      | nil => rfl
      | cons first rest => simp [readQuoted, stops first rfl]
  | quote escaped induction => simp [readQuoted, induction]
  | other other escaped induction => simp [readQuoted, other, induction]

private theorem readField_append {text value rest : List Char} (field : Field text value)
    (stops : ∀ character ∈ rest.head?, isReserved character = true ∧ character ≠ '"') :
    readField (text ++ rest) = some (value, rest) := by
  cases field with
  | plain free =>
      have unquoted (inner : List Char) : text ++ rest ≠ '"' :: inner := by
        intro same
        cases text with
        | nil =>
            subst same
            exact (stops '"' rfl).2 rfl
        | cons first text =>
            cases same
            exact Bool.noConfusion (free '"' List.mem_cons_self)
      rw [readField]
      · exact congrArg some (Text.span_eq_iff.mpr ⟨rfl, fun character member => by
          rw [free character member, Bool.not_false], fun character first => by
          rw [(stops character first).1, Bool.not_true]⟩)
      · exact unquoted
  | quoted escaped =>
      rw [List.cons_append, List.append_assoc, List.singleton_append, readField]
      exact readQuoted_append escaped fun character first => (stops character first).2

private theorem readRecord_append {text rest : List Char} {values : List (List Char)}
    (record : Record text values) (stops : ∀ character ∈ rest.head?, character = '\r') :
    readRecord (text ++ rest) = some (values, rest) := by
  induction record with
  | last field =>
      have read : readField (_ ++ rest) = some (_, rest) :=
        readField_append field fun character first => by simp [stops character first, isReserved]
      rw [readRecord, read]
      cases rest with
      | nil => rfl
      | cons first rest =>
          cases stops first rfl
          rfl
  | @more text value others values field record induction =>
      have read : readField (text ++ ',' :: (others ++ rest))
          = some (value, ',' :: (others ++ rest)) :=
        readField_append field fun character first => by
          cases first
          decide
      rw [List.append_assoc, List.cons_append, readRecord, read]
      change (readRecord (others ++ rest)).map _ = _
      rw [induction]
      rfl

section

variable {text rest body : List Char} {values : List (List Char)}
  {rows : List (List (List Char))}

private theorem Record.reads (record : Record text values) :
    readRecord text = some (values, []) := by
  have read : readRecord (text ++ []) = some (values, []) := readRecord_append record nofun
  rwa [List.append_nil] at read

private theorem readRecords_of_end (reads : readRecord text = some (values, [])) :
    readRecords text = some [values] := by
  rw [readRecords, reads]

private theorem readRecords_of_ended (reads : readRecord text = some (values, ['\r', '\n'])) :
    readRecords text = some [values] := by
  rw [readRecords, reads]
  rfl

private theorem readRecords_of_break (reads : readRecord text = some (values, '\r' :: '\n' :: rest))
    (more : rest ≠ []) : readRecords text = (readRecords rest).map (values :: ·) := by
  cases rest with
  | nil => exact absurd rfl more
  | cons first rest =>
      rw [readRecords, reads]
      rfl

theorem readRecords_ended (records : Records body rows) :
    readRecords (body ++ ['\r', '\n']) = some rows := by
  induction records with
  | last record => exact readRecords_of_ended (readRecord_append record (by simp))
  | @more text others values rows record records induction =>
      have read : readRecord (text ++ '\r' :: '\n' :: (others ++ ['\r', '\n']))
          = some (values, '\r' :: '\n' :: (others ++ ['\r', '\n'])) :=
        readRecord_append record (by simp)
      rw [List.append_assoc, List.cons_append, List.cons_append,
        readRecords_of_break read (by simp), induction, Option.map_some]

private theorem Records.eq_of_nil (records : Records body rows) (empty : body = []) :
    rows = [[[]]] := by
  have nothing : readRecord [] = some ([[]], []) := by
    rw [readRecord]
    rfl
  cases records with
  | last record =>
      have read := record.reads
      rw [empty, nothing] at read
      cases read
      rfl
  | more record records => simp at empty

private theorem readRecords_unended (records : Records body rows) :
    readRecords body = some rows ∨
      ∃ front, rows = front ++ [[[]]] ∧ readRecords body = some front := by
  induction records with
  | last record => exact .inl (readRecords_of_end record.reads)
  | @more text others values rows record records induction =>
      have read : readRecord (text ++ '\r' :: '\n' :: others)
          = some (values, '\r' :: '\n' :: others) :=
        readRecord_append record (by simp)
      by_cases last : others = []
      · subst last
        exact .inr ⟨[values], by rw [records.eq_of_nil rfl]; rfl, readRecords_of_ended read⟩
      · rw [readRecords_of_break read last]
        rcases induction with whole | ⟨front, same, whole⟩
        · exact .inl (by rw [whole, Option.map_some])
        · exact .inr ⟨values :: front, by rw [same, List.cons_append], by
            rw [whole, Option.map_some]⟩

end

/-! ## Writing -/

private theorem escaped_doubleQuotes (text : List Char) : Escaped (Log.doubleQuotes text) text := by
  fun_induction Log.doubleQuotes text with
  | case1 => exact .nil
  | case2 rest induction => exact .quote induction
  | case3 character rest single induction => exact .other single induction

private theorem needsQuotes_eq (character : Char) :
    Log.needsQuotes character = isReserved character := by
  simp only [Log.needsQuotes, isReserved, List.contains_cons, List.contains_nil, Bool.or_false]
  ac_rfl

private theorem field_written (text : List Char) : Field (Log.field text) text := by
  rw [Log.field]
  split
  · exact .quoted (escaped_doubleQuotes text)
  next free =>
    refine .plain fun character member => ?_
    rw [← needsQuotes_eq]
    exact Bool.eq_false_iff.mpr fun needs => free (List.any_eq_true.mpr ⟨_, member, needs⟩)

private theorem record_joined {values : List (List Char)} (some : values ≠ []) :
    Record (Log.joined (values.map Log.field)) values := by
  induction values with
  | nil => exact absurd rfl some
  | cons first rest induction =>
      cases rest with
      | nil => exact .last (field_written first)
      | cons second rest => exact .more (field_written first) (induction (List.cons_ne_nil _ _))

private theorem record_written {row : List String} (some : row ≠ []) :
    ∃ body, Record body (row.map String.toList) ∧ Log.record row = body ++ ['\r', '\n'] := by
  refine ⟨_, record_joined (mt List.map_eq_nil_iff.mp some), ?_⟩
  rw [Log.record, List.map_map]
  rfl

private theorem records_written {rows : List (List String)} (some : rows ≠ [])
    (each : ∀ row ∈ rows, row ≠ []) :
    ∃ body, Records body (rows.map (·.map String.toList)) ∧
      rows.flatMap Log.record = body ++ ['\r', '\n'] := by
  induction rows with
  | nil => exact absurd rfl some
  | cons first rest induction =>
      rcases List.forall_mem_cons.mp each with ⟨own, others⟩
      rcases record_written own with ⟨front, record, written⟩
      cases rest with
      | nil =>
          refine ⟨front, .last record, ?_⟩
          rw [List.flatMap_cons, List.flatMap_nil, List.append_nil, written]
      | cons second rest =>
          rcases induction (List.cons_ne_nil _ _) others with ⟨body, records, whole⟩
          refine ⟨_, .more record records, ?_⟩
          rw [List.flatMap_cons, whole, written]
          simp

/-! ## Logs -/

def table (log : Log) : List (List String) :=
  ["status", "code", "location", "message"] :: log.map fun finding =>
    [finding.status.label, finding.code.name, finding.location, finding.message]

theorem length_of_mem_table {log : Log} {row : List String} (member : row ∈ table log) :
    row.length = 4 := by
  rcases List.mem_cons.mp member with rfl | member
  · rfl
  · rcases List.mem_map.mp member with ⟨finding, _, rfl⟩
    rfl

theorem table_written (log : Log) :
    ∃ body, Records body ((table log).map (·.map String.toList)) ∧
      log.commaSeparated.toList = body ++ ['\r', '\n'] := by
  rw [Log.commaSeparated, String.toList_ofList]
  exact records_written (List.cons_ne_nil _ _) fun row member empty => by
    have count := length_of_mem_table member
    rw [empty] at count
    cases count

theorem ofList_toList_rows (rows : List (List String)) :
    (rows.map (·.map String.toList)).map (·.map String.ofList) = rows := by
  simp [Function.comp_def]

/-- What a text is read as by the grammar is what the reader makes of it, but for an empty
field that would be a record after the last line break. -/
theorem IsReading.read_eq {text : String} {rows : List (List String)}
    (reading : IsReading text rows) :
    read text = some rows ∨ ∃ front, rows = front ++ [[""]] ∧ read text = some front := by
  rcases reading.records with ⟨body, records, unended | ended⟩
  · rcases readRecords_unended records with whole | ⟨front, same, whole⟩
    · exact .inl (by rw [read, unended, whole, Option.map_some, ofList_toList_rows])
    · refine .inr ⟨front.map (·.map String.ofList), ?_, by
        rw [read, unended, whole, Option.map_some]⟩
      rw [← ofList_toList_rows rows, same, List.map_append]
      rfl
  · exact .inl (by
      rw [read, ended, readRecords_ended records, Option.map_some, ofList_toList_rows])

/-- The written form of a log is read as its records, and as no others, whatever characters
there are in them. -/
theorem commaSeparated_read_back (log : Log) :
    read log.commaSeparated = some (table log) ∧
      ∀ rows, IsReading log.commaSeparated rows ↔ rows = table log := by
  rcases table_written log with ⟨body, records, written⟩
  have whole : read log.commaSeparated = some (table log) := by
    rw [read, written, readRecords_ended records, Option.map_some, ofList_toList_rows]
  refine ⟨whole, fun rows => ⟨fun reading => ?_, ?_⟩⟩
  · rcases reading.read_eq with same | ⟨front, same, read⟩
    · exact Option.some.inj (same.symm.trans whole)
    · -- A record of one field would stand next to those of four.
      cases read.symm.trans whole
      have even := reading.even [""] (by simp [same]) _ (by
        rw [same]
        exact List.mem_append_left _ List.mem_cons_self)
      cases even
  · rintro rfl
    exact ⟨⟨body, records, .inr written⟩, fun first member second also => by
      rw [length_of_mem_table member, length_of_mem_table also]⟩

end TimedText.CommaSeparated
