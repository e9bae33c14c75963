import ExnGs.Lib.Columns
import ExnGs.Shared.Numerals
import ExnGs.Shared.Protocol

set_option autoImplicit false

-- The tables of packets, as lines of text.
namespace ExnGs.Ui

open Proto Columns

structure PacketRow where
  m : PacketMeta
  desc : Text
  deriving DecidableEq, Repr

/-- The members of `std::tm` that are shown, in the ranges that they have. -/
structure LocalTime where
  hour : Fin 24
  min : Fin 60
  sec : Fin 61
  deriving DecidableEq, Repr

abbrev space : UInt8 := 32

def number (n : Nat) : Text := text (toString n)

-- `std::setfill('0')` and `std::setw(2)`.
def twoDigits (n : Nat) : Text := (number n).leftpad 2 48

def fmtTimeLocal (localtime : UInt64 → LocalTime) (tsNs : UInt64) : Text :=
  let tm := localtime (tsNs / 1000000000)
  twoDigits tm.hour ++ text ":" ++ twoDigits tm.min ++ text ":" ++ twoDigits tm.sec

def padLeft (s : Text) (w : Nat) : Text :=
  if w ≤ s.length then s else List.replicate (w - s.length) space ++ s

def padRight (s : Text) (w : Nat) : Text :=
  if w ≤ s.length then s.take w else s ++ List.replicate (w - s.length) space

-- The UTF-8 encoding of "…".
def ellipsis : Text := [0xE2, 0x80, 0xA6]

def truncEllipsis (s : Text) (w : Nat) : Text :=
  if w = 0 then []
  else if s.length ≤ w then s
  else if w ≤ 1 then s.take 1
  else s.take (w - 1) ++ ellipsis

structure Col where
  name : Text
  w : Nat
  right : Bool
  deriving DecidableEq, Repr

def cols : List Col :=
  [{ name := text "TS", w := 8, right := false }, { name := text "VER", w := 3, right := true },
    { name := text "TYP", w := 3, right := true }, { name := text "SHF", w := 3, right := true },
    { name := text "APID", w := 5, right := true }, { name := text "SEQF", w := 4, right := true },
    { name := text "SEQ", w := 5, right := true }, { name := text "LEN", w := 5, right := true },
    { name := text "SVC", w := 3, right := true }, { name := text "SSV", w := 4, right := true }]

def baseW : Nat := (cols.map fun c => c.w + 1).sum

def descW (termW : Int) : Nat := (min (max 10 (termW - baseW - 1)) 80).toNat

-- The members of the metadata that are shown as numbers, in the order of the columns.
def numbers (m : PacketMeta) : List Nat :=
  [m.ver.toNat, m.typ.toNat, m.shf.toNat, m.apid.toNat, m.seqf.toNat, m.seq.toNat, m.len.toNat,
    m.svc.toNat, m.ssvc.toNat]

def Col.cell (c : Col) (val : Text) : Text := if c.right then padLeft val c.w else padRight val c.w

def headerLine (descW : Nat) : Text :=
  separated space (cols.map fun c => padRight c.name c.w) ++ padRight (text "DESC") descW

def ruleLine (descW : Nat) : Text := List.replicate (baseW + descW) 45

def rowLine (localtime : UInt64 → LocalTime) (descW : Nat) (row : PacketRow) : Text :=
  let vals := fmtTimeLocal localtime row.m.tsNs :: (numbers row.m).map number
  separated space (List.zipWith Col.cell cols vals) ++ padRight (truncEllipsis row.desc descW) descW

-- The newest rows come first.
def renderPacketTableText (localtime : UInt64 → LocalTime) (rows : List PacketRow)
    (maxRows termW : Int) : Text :=
  let descW := descW termW
  headerLine descW ++ text "\n" ++ ruleLine descW ++ text "\n" ++
    (rows.reverse.take maxRows.toNat).flatMap fun row => rowLine localtime descW row ++ text "\n"

-- The lines that `preformatted_block` makes of a text.
def preformattedBlock (s : Text) : List Text := s.splitOn 10

-- What a reader finds in a line: the time, the numbers and the description.
def readLine (row : Text) : Text × List Nat × Text :=
  let (cells, desc) := cut (cols.map Col.w) row
  (cells.headD [], cells.tail.map fun cell => Decimal.value (cell.dropWhile (· = space)),
    desc.rdropWhile (· = space))

-- Of a description that is too long one byte of the ellipsis is left.
def shownDesc (descW : Nat) (desc : Text) : Text :=
  if desc.length ≤ descW then desc.rdropWhile (· = space) else desc.take (descW - 1) ++ [0xE2]

theorem padLeft_eq (s : Text) (w : Nat) : padLeft s w = s.leftpad w space := by
  unfold padLeft
  split
  next long => rw [List.leftpad, Nat.sub_eq_zero_of_le long, List.replicate_zero, List.nil_append]
  next => rfl

theorem padRight_eq (s : Text) (w : Nat) : padRight s w = (s.take w).rightpad w space := by
  unfold padRight
  split
  next long =>
    rw [List.rightpad, List.length_take, Nat.min_eq_left long, Nat.sub_self, List.replicate_zero,
      List.append_nil]
  next short => rw [List.take_of_length_le (by omega), List.rightpad]

theorem fills_padRight (s : Text) (w : Nat) : Fills w (padRight s w) := by
  rw [padRight_eq]
  exact fills_rightpad (by rw [List.length_take]; omega)

theorem length_twoDigits {n : Nat} (small : n < 100) : (twoDigits n).length = 2 := by
  have width : (number n).length ≤ 2 := length_number (by omega) (by omega)
  rw [twoDigits, List.length_leftpad]
  omega

theorem length_fmtTimeLocal (localtime : UInt64 → LocalTime) (tsNs : UInt64) :
    (fmtTimeLocal localtime tsNs).length = 8 := by
  unfold fmtTimeLocal
  generalize localtime (tsNs / 1000000000) = tm
  have hour := length_twoDigits (n := tm.hour.val) (by omega)
  have min := length_twoDigits (n := tm.min.val) (by omega)
  have sec := length_twoDigits (n := tm.sec.val) (by omega)
  simp only [List.length_append, hour, min, sec]
  rfl

theorem number_head {n : Nat} : ∀ b, (number n).head? = some b → b ≠ space := by
  rintro b first rfl
  have digit := number_digits n space (List.mem_of_mem_head? first)
  revert digit
  decide

theorem fills_number {n w : Nat} (width : 0 < w) (small : n < 10 ^ w) :
    Fills w ((number n).leftpad w space) := fills_leftpad (length_number width small)

theorem read_number (n w : Nat) :
    Decimal.value (((number n).leftpad w space).dropWhile (· = space)) = n := by
  rw [dropWhile_leftpad number_head]
  exact value_number n

theorem widths_eq : cols.map Col.w = [8, 3, 3, 3, 5, 4, 5, 5, 3, 4] := by
  simp only [cols, List.map_cons, List.map_nil]

theorem cells_eq (time : Text) (m : PacketMeta) :
    List.zipWith Col.cell cols (time :: (numbers m).map number) =
      [padRight time 8, padLeft (number m.ver.toNat) 3, padLeft (number m.typ.toNat) 3,
        padLeft (number m.shf.toNat) 3, padLeft (number m.apid.toNat) 5, padLeft (number m.seqf.toNat) 4,
        padLeft (number m.seq.toNat) 5, padLeft (number m.len.toNat) 5, padLeft (number m.svc.toNat) 3,
        padLeft (number m.ssvc.toNat) 4] := by
  simp only [cols, numbers, Col.cell, List.map_cons, List.map_nil, List.zipWith_cons_cons,
    List.zipWith_nil_right, Bool.false_eq_true, if_false, if_true]

theorem fills_cells (localtime : UInt64 → LocalTime) (m : PacketMeta) :
    List.Forall₂ Fills (cols.map Col.w)
      (List.zipWith Col.cell cols (fmtTimeLocal localtime m.tsNs :: (numbers m).map number)) := by
  have byte : ∀ (b : UInt8) {w : Nat}, 3 ≤ w → Fills w (padLeft (number b.toNat) w) := by
    intro b w wide
    rw [padLeft_eq]
    refine fills_number (by omega) (Nat.lt_of_lt_of_le ?_ (Nat.pow_le_pow_right (by omega) wide))
    exact Nat.lt_of_lt_of_le b.toNat_lt (by decide)
  have word : ∀ x : UInt16, Fills 5 (padLeft (number x.toNat) 5) := by
    intro x
    rw [padLeft_eq]
    exact fills_number (by omega) (Nat.lt_of_lt_of_le x.toNat_lt (by decide))
  have three : 3 ≤ 3 := Nat.le_refl 3
  have four : 3 ≤ 4 := by omega
  rw [widths_eq, cells_eq]
  exact .cons (fills_padRight _ _) (.cons (byte m.ver three) (.cons (byte m.typ three)
    (.cons (byte m.shf three) (.cons (word m.apid) (.cons (byte m.seqf four) (.cons (word m.seq)
    (.cons (word m.len) (.cons (byte m.svc three) (.cons (byte m.ssvc four) .nil)))))))))

theorem descW_bounds (termW : Int) : 10 ≤ descW termW ∧ descW termW ≤ 80 := by
  unfold descW
  omega

theorem read_desc {w : Nat} (wide : 2 ≤ w) (desc : Text) :
    (padRight (truncEllipsis desc w) w).rdropWhile (· = space) = shownDesc w desc := by
  unfold truncEllipsis shownDesc
  rw [if_neg (by omega)]
  split
  next short =>
    rw [padRight_eq, List.take_of_length_le short, rdropWhile_rightpad]
  next long =>
    have cut : (desc.take (w - 1)).length = w - 1 := by rw [List.length_take]; omega
    rw [if_neg (by omega), padRight, if_pos (by simp only [List.length_append, cut]; simp [ellipsis]; omega),
      List.take_append, cut, List.take_of_length_le (by omega), show w - (w - 1) = 1 by omega]
    exact List.rdropWhile_concat_neg _ _ _ (by decide)

theorem read_rowLine (localtime : UInt64 → LocalTime) {w : Nat} (wide : 2 ≤ w) (row : PacketRow) :
    readLine (rowLine localtime w row) =
      (fmtTimeLocal localtime row.m.tsNs, numbers row.m, shownDesc w row.desc) := by
  have time : padRight (fmtTimeLocal localtime row.m.tsNs) 8 = fmtTimeLocal localtime row.m.tsNs := by
    have eight := length_fmtTimeLocal localtime row.m.tsNs
    rw [padRight, if_pos (by omega), List.take_of_length_le (by omega)]
  rw [readLine, rowLine, cut_separated space (fills_cells localtime row.m), cells_eq]
  simp only [read_desc wide, List.headD_cons, List.tail_cons, List.map_cons, List.map_nil, time,
    padLeft_eq, read_number]
  rfl

theorem length_rowLine (localtime : UInt64 → LocalTime) (w : Nat) (row : PacketRow) :
    (rowLine localtime w row).length = baseW + w := by
  rw [rowLine, List.length_append, length_separated space (fills_cells localtime row.m), fills_padRight,
    List.map_map]
  rfl

theorem length_headerLine (w : Nat) : (headerLine w).length = baseW + w := by
  have fill : List.Forall₂ Fills (cols.map Col.w) (cols.map fun c => padRight c.name c.w) := by
    rw [List.forall₂_map_left_iff, List.forall₂_map_right_iff, List.forall₂_same]
    exact fun c _ => fills_padRight _ _
  rw [headerLine, List.length_append, length_separated space fill, fills_padRight, List.map_map]
  rfl

section Newlines

theorem plain_number (n : Nat) : 10 ∉ number n := by
  intro member
  have digit := number_digits n 10 member
  revert digit
  decide

theorem plain_leftpad {s : Text} (plain : 10 ∉ s) (w : Nat) {pad : UInt8} (other : 10 ≠ pad) :
    10 ∉ s.leftpad w pad := by
  rw [List.leftpad, List.mem_append, List.mem_replicate]
  rintro (⟨-, same⟩ | member)
  · exact other same
  · exact plain member

theorem plain_padRight {s : Text} (plain : 10 ∉ s) (w : Nat) : 10 ∉ padRight s w := by
  rw [padRight_eq, List.rightpad, List.mem_append, List.mem_replicate]
  rintro (member | ⟨-, same⟩)
  · exact plain (List.mem_of_mem_take member)
  · revert same
    decide

theorem plain_fmtTimeLocal (localtime : UInt64 → LocalTime) (tsNs : UInt64) :
    10 ∉ fmtTimeLocal localtime tsNs := by
  have digits : ∀ n, 10 ∉ twoDigits n := fun n => plain_leftpad (plain_number n) 2 (by decide)
  have colon : 10 ∉ text ":" := by decide
  simp only [fmtTimeLocal, List.mem_append, digits, colon, or_self, not_false_eq_true]

theorem plain_truncEllipsis {s : Text} (plain : 10 ∉ s) (w : Nat) : 10 ∉ truncEllipsis s w := by
  have shorter : ∀ n, 10 ∉ s.take n := fun n member => plain (List.mem_of_mem_take member)
  have dots : 10 ∉ ellipsis := by decide
  unfold truncEllipsis
  split
  next => exact List.not_mem_nil
  split
  next => exact plain
  split
  next => exact shorter 1
  next => simp only [List.mem_append, shorter, dots, or_self, not_false_eq_true]

theorem plain_separated {cells : List Text} (plain : ∀ cell ∈ cells, 10 ∉ cell) :
    10 ∉ separated space cells := by
  rw [separated, List.mem_flatMap]
  rintro ⟨cell, member, inside⟩
  rcases List.mem_append.mp inside with within | last
  · exact plain cell member within
  · revert last
    decide

-- Nothing that the program itself puts into a line ends it.
theorem plain_rowLine (localtime : UInt64 → LocalTime) (w : Nat) {row : PacketRow}
    (plain : 10 ∉ row.desc) : 10 ∉ rowLine localtime w row := by
  have left : ∀ n w, 10 ∉ padLeft (number n) w := by
    intro n w
    rw [padLeft_eq]
    exact plain_leftpad (plain_number n) w (by decide)
  rw [rowLine, List.mem_append, cells_eq]
  rintro (cells | desc)
  · refine plain_separated ?_ cells
    simp only [List.forall_mem_cons, left, not_false_eq_true, and_true, List.not_mem_nil,
      false_imp_iff, implies_true]
    exact plain_padRight (plain_fmtTimeLocal localtime _) 8
  · exact plain_padRight (plain_truncEllipsis plain w) w desc

theorem plain_headerLine (w : Nat) : 10 ∉ headerLine w := by
  rw [headerLine, List.mem_append]
  rintro (names | desc)
  · refine plain_separated (fun cell member => ?_) names
    obtain ⟨c, known, rfl⟩ := List.mem_map.mp member
    have plain : ∀ c ∈ cols, 10 ∉ c.name := by
      simp only [cols, List.forall_mem_cons]
      decide
    exact plain_padRight (plain c known) c.w
  · exact plain_padRight (by decide) w desc

end Newlines

theorem renderPacketTableText_lines (localtime : UInt64 → LocalTime) (rows : List PacketRow)
    (maxRows termW : Int) :
    renderPacketTableText localtime rows maxRows termW =
      separated 10 (headerLine (descW termW) :: ruleLine (descW termW) ::
        (rows.reverse.take maxRows.toNat).map (rowLine localtime (descW termW))) := by
  have newline : text "\n" = [10] := by decide
  simp only [renderPacketTableText, separated, newline, List.flatMap_cons, List.flatMap_map,
    List.append_assoc]

/-- Whatever the rows and the terminal: all lines are of one width, and each of the newest rows is found
in its line, with its time, its numbers and its description, the newest first. The lines are those that
are displayed if the descriptions hold no newlines. -/
theorem packet_table_reads_back (localtime : UInt64 → LocalTime) (rows : List PacketRow)
    (maxRows termW : Int) :
    let w := descW termW
    let shown := rows.reverse.take maxRows.toNat
    let table := renderPacketTableText localtime rows maxRows termW
    ∃ lines, table = separated 10 (headerLine w :: ruleLine w :: lines) ∧
      (∀ l ∈ headerLine w :: ruleLine w :: lines, l.length = baseW + w) ∧
      lines.map readLine = shown.map (fun row =>
        (fmtTimeLocal localtime row.m.tsNs, numbers row.m, shownDesc w row.desc)) ∧
      ((∀ row ∈ shown, 10 ∉ row.desc) →
        preformattedBlock table = headerLine w :: ruleLine w :: lines ++ [[]]) := by
  intro w shown table
  have wide : 2 ≤ w := Nat.le_trans (by omega) (descW_bounds termW).1
  have lines : table = separated 10 (headerLine w :: ruleLine w :: shown.map (rowLine localtime w)) :=
    renderPacketTableText_lines localtime rows maxRows termW
  refine ⟨shown.map (rowLine localtime w), lines, ?_, ?_, fun plain => ?_⟩
  · simp only [List.forall_mem_cons, List.forall_mem_map, length_headerLine, length_rowLine, ruleLine,
      List.length_replicate, implies_true, and_self]
  · rw [List.map_map]
    exact List.map_congr_left fun row _ => read_rowLine localtime wide row
  · rw [lines, preformattedBlock]
    refine splitOn_separated ?_
    simp only [List.forall_mem_cons, List.forall_mem_map]
    refine ⟨plain_headerLine w, ?_, fun row member => plain_rowLine localtime w (plain row member)⟩
    rw [ruleLine, List.mem_replicate]
    rintro ⟨-, same⟩
    revert same
    decide

end ExnGs.Ui
