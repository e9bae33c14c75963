import Mathlib.Data.List.Forall2
import ExnGs.Lib.Json
import ExnGs.Shared.Types

set_option autoImplicit false

-- The packet log, one JSON text a line.
namespace ExnGs.Daemon

-- `bad` is `!out_`: the file could not be opened, or a write failed.
structure FileLoggerSink where
  bad : Bool := false
  out : Text := []
  deriving DecidableEq, Repr

namespace FileLoggerSink

def escapeChar : UInt8 → Text
  | 34 => text "\\\""
  | 92 => text "\\\\"
  | 10 => text "\\n"
  | 13 => text "\\r"
  | 9 => text "\\t"
  | c => [c]

def escape (s : Text) : Text := s.flatMap escapeChar

def store (sink : FileLoggerSink) (record : PacketRecord) : FileLoggerSink :=
  if sink.bad then sink
  else { sink with
    out := sink.out ++
      (text "\x7b" ++
        text "\"ts_ns\":" ++ text (toString record.tsNs.toNat) ++ text "," ++
        text "\"dir\":" ++ (if record.dir = .TC then text "\"TC\"" else text "\"TM\"") ++ text "," ++
        text "\"apid\":" ++ text (toString record.apid.toNat) ++ text "," ++
        text "\"seq\":" ++ text (toString record.seq.toNat) ++ text "," ++
        text "\"service\":" ++ text (toString record.service.toNat) ++ text "," ++
        text "\"subservice\":" ++ text (toString record.subservice.toNat) ++ text "," ++
        text "\"summary\":\"" ++ escape record.summary ++ text "\"" ++
        text "\x7d\n") }

end FileLoggerSink

open FileLoggerSink

def key (name : String) : List Nat := name.toList.map Char.toNat

-- The line is a JSON object with the record's summary.
def LogLine (line : Text) (record : PacketRecord) : Prop :=
  ∃ members, Json.read line = some (.object members) ∧
    members.lookup (key "summary") = some (.string (record.summary.map UInt8.toNat))

/-- What storing the records appends is a line for each. -/
def StaysParseable (sink : FileLoggerSink) (records : List PacketRecord) : Prop :=
  ∃ appended lines, (records.foldl store sink).out = sink.out ++ appended ∧
    appended.splitOn 10 = lines ++ [[]] ∧ List.Forall₂ LogLine lines records

-- Control characters that `escape` leaves as they are.
def unescapedControl (b : UInt8) : Bool := b.toNat < 32 ∧ b ≠ 9 ∧ b ≠ 10 ∧ b ≠ 13

def chars (s : Text) : List Char := s.map Char.ofUInt8

@[simp] theorem chars_append (s t : Text) : chars (s ++ t) = chars s ++ chars t := List.map_append

theorem ofUInt8_ofNat {c : Char} (small : c.toNat < 256) : Char.ofUInt8 (UInt8.ofNat c.toNat) = c := by
  apply Char.ext
  apply UInt32.toNat_inj.mp
  change (UInt8.ofNat c.toNat).toUInt32.toNat = c.toNat
  rw [UInt8.toNat_toUInt32, UInt8.toNat_ofNat']
  exact Nat.mod_eq_of_lt small

theorem chars_text {s : String} (small : s.toList.all (fun c => c.toNat < 256) = true) :
    chars (text s) = s.toList := by
  rw [chars, text, List.map_map, ← List.map_id s.toList, List.map_map]
  rw [List.all_eq_true] at small
  exact List.map_congr_left fun c member => ofUInt8_ofNat (of_decide_eq_true (small c member))

theorem isDigit_toNat {c : Char} (digit : c.isDigit = true) : 48 ≤ c.toNat ∧ c.toNat ≤ 57 := by
  simpa [Char.isDigit, UInt32.le_iff_toNat_le] using digit

theorem chars_number (n : Nat) : chars (text (toString n)) = Nat.toDigits 10 n := by
  rw [chars_text, Nat.toString_eq_repr, Nat.toList_repr]
  rw [List.all_eq_true]
  intro c member
  rw [decide_eq_true_eq]
  rw [Nat.toString_eq_repr, Nat.toList_repr] at member
  have := isDigit_toNat (Nat.isDigit_of_mem_toDigits (by omega) (by omega) member)
  omega

theorem string_escapeChar (b : UInt8) (s : List Char) :
    Json.string (chars (escapeChar b) ++ s) =
      if unescapedControl b = true then none
      else (Json.string s).map fun (units, s) => (b.toNat :: units, s) := by
  unfold escapeChar
  split
  next => exact Json.string_escape rfl s
  next => exact Json.string_escape rfl s
  next => exact Json.string_escape rfl s
  next => exact Json.string_escape rfl s
  next => exact Json.string_escape rfl s
  next quote backslash newline return_ tab =>
    have toNat : (Char.ofUInt8 b).toNat = b.toNat := UInt8.toNat_toUInt32 b
    change Json.string (Char.ofUInt8 b :: s) = _
    split
    next control =>
      apply Json.string_control
      rw [toNat]
      simp only [unescapedControl, decide_eq_true_eq] at control
      exact control.1
    next plain =>
      have printable : 32 ≤ b.toNat := by
        simp only [unescapedControl, decide_eq_true_eq] at plain
        by_contra small
        exact plain ⟨by omega, tab, newline, return_⟩
      have other : ∀ {c : Char}, b ≠ UInt8.ofNat c.toNat → Char.ofUInt8 b ≠ c := by
        rintro c differs rfl
        rw [toNat, UInt8.ofNat_toNat] at differs
        exact differs rfl
      rw [Json.string_unescaped, toNat]
      simp only [Json.unescaped, toNat, decide_eq_true_eq]
      exact ⟨printable, other quote, other backslash⟩

theorem string_escape (s : Text) (rest : List Char) :
    Json.string (chars (escape s) ++ '"' :: rest) =
      if ∃ b ∈ s, unescapedControl b = true then none else some (s.map UInt8.toNat, rest) := by
  induction s with
  | nil => simp [escape, chars, Json.string]
  | cons b s ih =>
    have split : escape (b :: s) = escapeChar b ++ escape s := List.flatMap_cons
    rw [split, chars_append, List.append_assoc, string_escapeChar, ih]
    by_cases control : unescapedControl b = true
    · simp [control]
    · by_cases later : ∃ b ∈ s, unescapedControl b = true
      · simp [control, later]
      · simp [control, later]

def numberMember (name : String) (plain : name.toList.all Json.unescaped = true) (n : Nat) :
    Json.Member where
  key := name.toList
  lexeme := Nat.toDigits 10 n
  value := .number (Nat.toDigits 10 n)
  plain := List.all_eq_true.mp plain
  reads := Json.lexeme_toDigits n

def dirMember (dir : Direction) : Json.Member where
  key := "dir".toList
  lexeme := '"' :: (if dir = .TC then "TC" else "TM").toList ++ ['"']
  value := .string (key (if dir = .TC then "TC" else "TM"))
  plain := List.all_eq_true.mp (by decide)
  reads := Json.lexeme_string _ (List.all_eq_true.mp (by cases dir <;> decide))

-- All members but the summary.
def leading (record : PacketRecord) : List Json.Member :=
  [numberMember "ts_ns" (by decide) record.tsNs.toNat,
    dirMember record.dir,
    numberMember "apid" (by decide) record.apid.toNat,
    numberMember "seq" (by decide) record.seq.toNat,
    numberMember "service" (by decide) record.service.toNat,
    numberMember "subservice" (by decide) record.subservice.toNat]

def line (record : PacketRecord) : Text :=
  text "\x7b" ++
    text "\"ts_ns\":" ++ text (toString record.tsNs.toNat) ++ text "," ++
    text "\"dir\":" ++ (if record.dir = .TC then text "\"TC\"" else text "\"TM\"") ++ text "," ++
    text "\"apid\":" ++ text (toString record.apid.toNat) ++ text "," ++
    text "\"seq\":" ++ text (toString record.seq.toNat) ++ text "," ++
    text "\"service\":" ++ text (toString record.service.toNat) ++ text "," ++
    text "\"subservice\":" ++ text (toString record.subservice.toNat) ++ text "," ++
    text "\"summary\":\"" ++ escape record.summary ++ text "\"\x7d"

theorem store_usable {sink : FileLoggerSink} (usable : sink.bad = false) (record : PacketRecord) :
    sink.store record = { sink with out := sink.out ++ (line record ++ [10]) } := by
  have ending : text "\"" ++ text "\x7d\n" = text "\"\x7d" ++ [10] := by decide
  rw [store, usable]
  unfold line
  simp only [Bool.false_eq_true, if_false, List.append_assoc, ending]

theorem chars_line (record : PacketRecord) :
    chars (line record) =
      Json.opening (leading record) "summary".toList ++ (chars (escape record.summary) ++ ['"', '}']) := by
  have dir : chars (if record.dir = .TC then text "\"TC\"" else text "\"TM\"") =
      '"' :: (if record.dir = .TC then "TC" else "TM").toList ++ ['"'] := by
    cases record.dir <;> rfl
  unfold line
  simp only [chars_append, chars_number, dir]
  simp (disch := decide) only [chars_text]
  simp [Json.opening, leading, Json.Member.text, numberMember, dirMember]

-- The bytes of a line: ASCII, and no newline.
def Visible (s : Text) : Prop := ∀ b ∈ s, b.toNat < 128 ∧ b ≠ 10

instance (s : Text) : Decidable (Visible s) := List.decidableBAll _ s

theorem visible_append (s t : Text) : Visible (s ++ t) ↔ Visible s ∧ Visible t := List.forall_mem_append

theorem visible_number (n : Nat) : Visible (text (toString n)) := by
  intro b member
  obtain ⟨c, digit, rfl⟩ := List.mem_map.mp member
  have shape : (toString n).toList = Nat.toDigits 10 n := Nat.toList_repr
  rw [shape] at digit
  have := isDigit_toNat (Nat.isDigit_of_mem_toDigits (by omega) (by omega) digit)
  rw [ne_eq, ← UInt8.toNat_inj, UInt8.toNat_ofNat']
  simp only [Nat.reducePow, UInt8.reduceToNat]
  omega

theorem visible_escapeChar {c : UInt8} (ascii : c.toNat < 128) : Visible (escapeChar c) := by
  unfold escapeChar
  split
  next => decide
  next => decide
  next => decide
  next => decide
  next => decide
  next newline _ _ =>
    intro b member
    rw [List.mem_singleton.mp member]
    exact ⟨ascii, newline⟩

theorem visible_escape {s : Text} (ascii : ∀ b ∈ s, b.toNat < 128) : Visible (escape s) := by
  intro b member
  obtain ⟨c, within, member⟩ := List.mem_flatMap.mp member
  exact visible_escapeChar (ascii c within) b member

theorem visible_line {record : PacketRecord} (ascii : ∀ b ∈ record.summary, b.toNat < 128) :
    Visible (line record) := by
  have dir : Visible (if record.dir = .TC then text "\"TC\"" else text "\"TM\"") := by
    cases record.dir <;> decide
  unfold line
  simp only [visible_append, visible_number, dir, visible_escape ascii, and_true]
  decide

theorem key_lookup (record : PacketRecord) (v : Json.Value) :
    ((leading record).map Json.Member.entry ++ [(key "summary", v)]).lookup (key "summary") = some v := by
  simp [leading, Json.Member.entry, numberMember, dirMember, key, List.lookup_cons]

theorem logLine_iff {record : PacketRecord} (ascii : ∀ b ∈ record.summary, b.toNat < 128) :
    LogLine (line record) record ↔ ∀ b ∈ record.summary, unescapedControl b = false := by
  have text : Json.read (line record) =
      Json.parse (Json.opening (leading record) "summary".toList ++
        (chars (escape record.summary) ++ ['"', '}'])) := by
    rw [Json.read_ascii fun b member => (visible_line ascii b member).1, ← chars_line]
    rfl
  have closed := string_escape record.summary ['}']
  have plain : ∀ c ∈ "summary".toList, Json.unescaped c = true := List.all_eq_true.mp (by decide)
  constructor
  · rintro ⟨members, read, -⟩
    by_contra! control
    rw [if_pos (by simpa using control)] at closed
    rw [text, Json.parse_broken _ plain closed] at read
    cases read
  · intro clean
    rw [if_neg (by simpa using clean)] at closed
    refine ⟨_, text.trans (Json.parse_object _ plain closed), ?_⟩
    exact key_lookup record _

theorem foldl_store {sink : FileLoggerSink} (usable : sink.bad = false) (records : List PacketRecord) :
    (records.foldl store sink).out =
      sink.out ++ records.flatMap fun record => line record ++ [10] := by
  induction records generalizing sink with
  | nil => simp
  | cons record records ih =>
    have later : ({ sink with out := sink.out ++ (line record ++ [10]) } : FileLoggerSink).bad = false :=
      usable
    rw [List.foldl_cons, store_usable usable]
    exact (ih later).trans (List.append_assoc ..)

theorem splitOn_lines {records : List PacketRecord}
    (ascii : ∀ record ∈ records, ∀ b ∈ record.summary, b.toNat < 128) :
    (records.flatMap fun record => line record ++ [10]).splitOn 10 = records.map line ++ [[]] := by
  induction records with
  | nil => rfl
  | cons record records ih =>
    rw [List.forall_mem_cons] at ascii
    have whole : 10 ∉ line record := fun member => (visible_line ascii.1 10 member).2 rfl
    rw [List.flatMap_cons, List.append_assoc, List.singleton_append,
      List.splitOn_append_cons_self_of_not_mem whole, ih ascii.2]
    rfl

-- The lines of the log are known, so that they are all there is to look at.
theorem staysParseable_lines {sink : FileLoggerSink} (usable : sink.bad = false)
    {records : List PacketRecord} (ascii : ∀ record ∈ records, ∀ b ∈ record.summary, b.toNat < 128) :
    StaysParseable sink records ↔ ∀ record ∈ records, LogLine (line record) record := by
  have lines : List.Forall₂ LogLine (records.map line) records ↔
      ∀ record ∈ records, LogLine (line record) record := by
    rw [List.forall₂_map_left_iff, List.forall₂_same]
  constructor
  · rintro ⟨appended, split, stored, splits, parsed⟩
    rw [foldl_store usable, List.append_cancel_left_eq] at stored
    rw [← stored, splitOn_lines ascii, List.append_cancel_right_eq] at splits
    rw [← splits] at parsed
    exact lines.mp parsed
  · intro parsed
    exact ⟨_, _, foldl_store usable records, splitOn_lines ascii, lines.mpr parsed⟩

theorem packet_log_parseable (sink : FileLoggerSink) (usable : sink.bad = false)
    (records : List PacketRecord) (ascii : ∀ record ∈ records, ∀ b ∈ record.summary, b.toNat < 128) :
    StaysParseable sink records ↔
      ∀ record ∈ records, ∀ b ∈ record.summary, unescapedControl b = false := by
  rw [staysParseable_lines usable ascii]
  exact forall₂_congr fun record member => logLine_iff (ascii record member)

def received (summary : Text) : PacketRecord :=
  { tsNs := 1700000000000000000, dir := .TM, apid := 1, seq := 0, service := 17, subservice := 2,
    summary, raw := [] }

theorem packet_log_parseable_quoted :
    StaysParseable {} [received (text "RX"), received (text "say \"\\\"\r\n")] := by
  refine (packet_log_parseable {} rfl _ ?_).mpr ?_
  · simp [received, text]
  · simp [received, text, unescapedControl]

theorem packet_log_broken : ¬ StaysParseable {} [received [1]] := by
  have ascii : ∀ b ∈ (received [1]).summary, b.toNat < 128 := by simp [received]
  rw [staysParseable_lines rfl (List.forall_mem_singleton.mpr ascii)]
  intro parsed
  have clean := (logLine_iff ascii).mp (parsed _ List.mem_cons_self)
  cases clean 1 List.mem_cons_self

end ExnGs.Daemon
