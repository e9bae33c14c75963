import Mathlib.Data.List.Basic
import Mathlib.Tactic.IntervalCases

set_option autoImplicit false

-- The grammar of RFC 8259, read from the left; what each reader leaves is the rest of the text.
namespace Json

/-- A string is the code points written in it; a `\u` escape stands for the number its digits write,
so that the two halves of a surrogate pair stay apart. -/
inductive Value
  | null
  | bool (b : Bool)
  | number (lexeme : List Char)
  | string (units : List Nat)
  | array (elements : List Value)
  | object (members : List (List Nat × Value))

def isWs (c : Char) : Bool := c = ' ' ∨ c = '\t' ∨ c = '\n' ∨ c = '\r'

def ws (s : List Char) : List Char := s.dropWhile isWs

def hexDigit (c : Char) : Option Nat :=
  if '0' ≤ c ∧ c ≤ '9' then some (c.toNat - 48)
  else if 'a' ≤ c ∧ c ≤ 'f' then some (c.toNat - 87)
  else if 'A' ≤ c ∧ c ≤ 'F' then some (c.toNat - 55)
  else none

def hexUnit (a b c d : Char) : Option Nat := do
  return (((← hexDigit a) * 16 + (← hexDigit b)) * 16 + (← hexDigit c)) * 16 + (← hexDigit d)

-- What may follow a backslash, `u` apart.
def escape : Char → Option Nat
  | '"' => some 34
  | '\\' => some 92
  | '/' => some 47
  | 'b' => some 8
  | 'f' => some 12
  | 'n' => some 10
  | 'r' => some 13
  | 't' => some 9
  | _ => none

def unescaped (c : Char) : Bool := 32 ≤ c.toNat ∧ c ≠ '"' ∧ c ≠ '\\'

-- From behind the opening quotation mark.
def string : List Char → Option (List Nat × List Char)
  | '"' :: s => some ([], s)
  | '\\' :: 'u' :: a :: b :: c :: d :: s => do
    let unit ← hexUnit a b c d
    let (units, s) ← string s
    return (unit :: units, s)
  | '\\' :: c :: s => do
    let unit ← escape c
    let (units, s) ← string s
    return (unit :: units, s)
  | c :: s => do
    guard (unescaped c)
    let (units, s) ← string s
    return (c.toNat :: units, s)
  | [] => none

def digits (s : List Char) : Option (List Char × List Char) :=
  if s.takeWhile Char.isDigit = [] then none
  else some (s.takeWhile Char.isDigit, s.dropWhile Char.isDigit)

def minus : List Char → List Char × List Char
  | '-' :: s => (['-'], s)
  | s => ([], s)

def int : List Char → Option (List Char × List Char)
  | '0' :: s => some (['0'], s)
  | s => digits s

def frac : List Char → Option (List Char × List Char)
  | '.' :: s => (digits s).map fun (ds, s) => ('.' :: ds, s)
  | s => some ([], s)

def sign : List Char → List Char × List Char
  | '-' :: s => (['-'], s)
  | '+' :: s => (['+'], s)
  | s => ([], s)

def exp : List Char → Option (List Char × List Char)
  | 'e' :: s => (digits (sign s).2).map fun (ds, rest) => ('e' :: (sign s).1 ++ ds, rest)
  | 'E' :: s => (digits (sign s).2).map fun (ds, rest) => ('E' :: (sign s).1 ++ ds, rest)
  | s => some ([], s)

def number (s : List Char) : Option (List Char × List Char) := do
  let (m, s) := minus s
  let (i, s) ← int s
  let (f, s) ← frac s
  let (e, s) ← exp s
  return (m ++ i ++ f ++ e, s)

-- A member's name and the separator behind it.
def name : List Char → Option (List Nat × List Char)
  | '"' :: s => do
    let (key, s) ← string s
    match ws s with
    | ':' :: s => return (key, s)
    | _ => none
  | _ => none

mutual

-- `fuel` bounds the recursion; twice the length of the text is enough.
def value : Nat → List Char → Option (Value × List Char)
  | 0, _ => none
  | fuel + 1, s =>
    match ws s with
    | 'n' :: 'u' :: 'l' :: 'l' :: s => some (.null, s)
    | 't' :: 'r' :: 'u' :: 'e' :: s => some (.bool true, s)
    | 'f' :: 'a' :: 'l' :: 's' :: 'e' :: s => some (.bool false, s)
    | '"' :: s => (string s).map fun (units, s) => (.string units, s)
    | '[' :: s =>
      match ws s with
      | ']' :: s => some (.array [], s)
      | s => (elements fuel s).map fun (vs, s) => (.array vs, s)
    | '{' :: s =>
      match ws s with
      | '}' :: s => some (.object [], s)
      | s => (members fuel s).map fun (ms, s) => (.object ms, s)
    | s => (number s).map fun (lexeme, s) => (.number lexeme, s)

def elements : Nat → List Char → Option (List Value × List Char)
  | 0, _ => none
  | fuel + 1, s => do
    let (v, s) ← value fuel s
    match ws s with
    | ',' :: s => do
      let (vs, s) ← elements fuel s
      return (v :: vs, s)
    | ']' :: s => return ([v], s)
    | _ => none

def members : Nat → List Char → Option (List (List Nat × Value) × List Char)
  | 0, _ => none
  | fuel + 1, s => do
    let (key, s) ← name (ws s)
    let (v, s) ← value fuel s
    match ws s with
    | ',' :: s => do
      let (ms, s) ← members fuel s
      return ((key, v) :: ms, s)
    | '}' :: s => return ([(key, v)], s)
    | _ => none

end

def parse (s : List Char) : Option Value := do
  let (v, rest) ← value (2 * s.length + 1) s
  guard (ws rest = [])
  return v

-- A JSON text is encoded in UTF-8.
def read (bytes : List UInt8) : Option Value := do
  let s ← bytes.toByteArray.utf8Decode?
  parse s.toList

@[simp] theorem ws_cons {c : Char} (visible : isWs c = false) (s : List Char) : ws (c :: s) = c :: s := by
  rw [ws, List.dropWhile_cons_of_neg (by simp [visible])]

theorem string_unescaped {c : Char} (plain : unescaped c = true) (s : List Char) :
    string (c :: s) = (string s).map fun (units, s) => (c.toNat :: units, s) := by
  have bounds : 32 ≤ c.toNat ∧ c ≠ '"' ∧ c ≠ '\\' := by simpa [unescaped] using plain
  rw [string.eq_def]
  split
  next same => cases same; exact absurd rfl bounds.2.1
  next same => cases same; exact absurd rfl bounds.2.2
  next same => cases same; exact absurd rfl bounds.2.2
  next same =>
    cases same
    simp only [plain, guard_true]
    cases string s <;> rfl
  next same => cases same

theorem string_escape {c : Char} {unit : Nat} (known : escape c = some unit) (s : List Char) :
    string ('\\' :: c :: s) = (string s).map fun (units, s) => (unit :: units, s) := by
  rw [string.eq_def]
  split
  next same => cases same
  next same => cases same; cases known
  next same =>
    cases same
    rw [known]
    cases string s <;> rfl
  next other same => cases same; exact absurd rfl (other _ _ rfl)
  next same => cases same

theorem string_control {c : Char} (control : c.toNat < 32) (s : List Char) : string (c :: s) = none := by
  have refused : unescaped c = false := by simp [unescaped]; omega
  rw [string.eq_def]
  split
  next same => cases same; exact absurd control (by decide)
  next same => cases same; exact absurd control (by decide)
  next same => cases same; exact absurd control (by decide)
  next same =>
    cases same
    rw [refused]
    rfl
  next same => cases same

theorem string_plain (key s : List Char) (plain : ∀ c ∈ key, unescaped c = true) :
    string (key ++ '"' :: s) = some (key.map Char.toNat, s) := by
  induction key with
  | nil => rfl
  | cons c key ih =>
    rw [List.forall_mem_cons] at plain
    rw [List.cons_append, string_unescaped plain.1, ih plain.2]
    rfl

-- No leading zero, but in zero itself.
theorem toDigits_head (n : Nat) :
    ∃ d ds, Nat.toDigits 10 n = d :: ds ∧ d.isDigit = true ∧ (d = '0' → n = 0) := by
  induction n using Nat.strongRecOn with
  | ind n ih =>
    by_cases small : n < 10
    · refine ⟨n.digitChar, [], Nat.toDigits_of_lt_base small, ?_, ?_⟩
      · exact Nat.isDigit_of_mem_toDigits (b := 10) (n := n) (by omega) (by omega)
          (by simp [Nat.toDigits_of_lt_base small])
      · interval_cases n <;> decide
    · obtain ⟨d, ds, shape, digit, zero⟩ := ih (n / 10) (by omega)
      refine ⟨d, ds ++ [Nat.digitChar (n % 10)], ?_, digit, fun same => ?_⟩
      · rw [Nat.toDigits_of_base_le (by omega) (by omega), shape]
        rfl
      · have := zero same
        omega

theorem digits_comma {ds : List Char} (some : ds ≠ []) (all : ∀ d ∈ ds, d.isDigit = true) (s : List Char) :
    digits (ds ++ ',' :: s) = .some (ds, ',' :: s) := by
  have taken : (ds ++ ',' :: s).takeWhile Char.isDigit = ds := by
    rw [List.takeWhile_append_of_pos all, List.takeWhile_cons_of_neg (by decide), List.append_nil]
  have left : (ds ++ ',' :: s).dropWhile Char.isDigit = ',' :: s := by
    rw [List.dropWhile_append_of_pos all, List.dropWhile_cons_of_neg (by decide)]
  rw [digits, taken, left, if_neg some]

theorem int_toDigits (n : Nat) (s : List Char) :
    int (Nat.toDigits 10 n ++ ',' :: s) = some (Nat.toDigits 10 n, ',' :: s) := by
  obtain ⟨d, ds, shape, -, zero⟩ := toDigits_head n
  by_cases leading : d = '0'
  · rw [zero leading, Nat.toDigits_zero]
    rfl
  · have unfolded : int (Nat.toDigits 10 n ++ ',' :: s) = digits (Nat.toDigits 10 n ++ ',' :: s) := by
      rw [shape, List.cons_append, int]
      intro rest same
      exact leading (List.cons.inj same).1
    rw [unfolded, digits_comma Nat.toDigits_ne_nil]
    exact fun d member => Nat.isDigit_of_mem_toDigits (by omega) (by omega) member

theorem number_toDigits (n : Nat) (s : List Char) :
    number (Nat.toDigits 10 n ++ ',' :: s) = some (Nat.toDigits 10 n, ',' :: s) := by
  obtain ⟨d, ds, shape, digit, -⟩ := toDigits_head n
  have positive : minus (Nat.toDigits 10 n ++ ',' :: s) = ([], Nat.toDigits 10 n ++ ',' :: s) := by
    rw [shape, List.cons_append, minus]
    intro rest same
    rw [(List.cons.inj same).1] at digit
    exact absurd digit (by decide)
  simp [number, positive, int_toDigits, frac, exp]

-- What a lexeme followed by a comma is read as.
def Lexeme (lexeme : List Char) (v : Value) : Prop :=
  ∀ fuel s, value (fuel + 1) (lexeme ++ ',' :: s) = some (v, ',' :: s)

theorem isWs_of_isDigit {d : Char} (digit : d.isDigit = true) : isWs d = false := by
  simp only [isWs, decide_eq_false_iff_not]
  rintro (rfl | rfl | rfl | rfl) <;> exact absurd digit (by decide)

theorem lexeme_toDigits (n : Nat) : Lexeme (Nat.toDigits 10 n) (.number (Nat.toDigits 10 n)) := by
  intro fuel s
  have read := number_toDigits n s
  obtain ⟨d, ds, shape, digit, -⟩ := toDigits_head n
  have visible : ws (Nat.toDigits 10 n ++ ',' :: s) = Nat.toDigits 10 n ++ ',' :: s := by
    rw [shape, List.cons_append, ws_cons (isWs_of_isDigit digit)]
  have starts : ∀ {c : Char} {rest : List Char},
      Nat.toDigits 10 n ++ ',' :: s = c :: rest → c.isDigit = true := by
    intro c rest same
    rw [shape, List.cons_append] at same
    rw [← (List.cons.inj same).1, digit]
  rw [value, visible]
  split
  next same => exact absurd (starts same) (by decide)
  next same => exact absurd (starts same) (by decide)
  next same => exact absurd (starts same) (by decide)
  next same => exact absurd (starts same) (by decide)
  next same => exact absurd (starts same) (by decide)
  next same => exact absurd (starts same) (by decide)
  next =>
    rw [read]
    rfl

theorem value_string (fuel : Nat) (s : List Char) :
    value (fuel + 1) ('"' :: s) = (string s).map fun (units, s) => (.string units, s) := by
  rw [value, ws_cons (by decide)]
  rfl

theorem lexeme_string (key : List Char) (plain : ∀ c ∈ key, unescaped c = true) :
    Lexeme ('"' :: key ++ ['"']) (.string (key.map Char.toNat)) := by
  intro fuel s
  have text : '"' :: key ++ ['"'] ++ ',' :: s = '"' :: (key ++ '"' :: ',' :: s) := by simp
  rw [text, value_string, string_plain key _ plain]
  rfl

-- A member as an object's writer puts it down, with what its lexeme stands for.
structure Member where
  key : List Char
  lexeme : List Char
  value : Value
  plain : ∀ c ∈ key, unescaped c = true
  reads : Lexeme lexeme value

namespace Member

def text (m : Member) : List Char := '"' :: m.key ++ '"' :: ':' :: m.lexeme ++ [',']

def entry (m : Member) : List Nat × Value := (m.key.map Char.toNat, m.value)

end Member

theorem name_key {key : List Char} (plain : ∀ c ∈ key, unescaped c = true) (s : List Char) :
    name ('"' :: key ++ '"' :: ':' :: s) = some (key.map Char.toNat, s) := by
  rw [List.cons_append, name, string_plain key _ plain]
  simp [ws_cons, isWs]

-- Members read one after the other, up to one that needs another treatment.
theorem members_append (written : List Member) (fuel : Nat) (s : List Char) :
    members (fuel + 1 + written.length) (written.flatMap Member.text ++ s) =
      (members (fuel + 1) s).map fun (ms, s) => (written.map Member.entry ++ ms, s) := by
  induction written with
  | nil => simp
  | cons m written ih =>
    have text : (m :: written).flatMap Member.text ++ s =
        '"' :: m.key ++ '"' :: ':' :: (m.lexeme ++ ',' :: (written.flatMap Member.text ++ s)) := by
      simp [Member.text]
    have enough : fuel + 1 + written.length = fuel + written.length + 1 := by omega
    rw [text, List.length_cons, ← Nat.add_assoc, members]
    rw [List.cons_append, ws_cons (by decide), ← List.cons_append, name_key m.plain]
    rw [enough] at ih ⊢
    simp only [Option.bind_eq_bind, Option.bind_some]
    rw [m.reads]
    simp only [Option.bind_some]
    rw [ws_cons (by decide)]
    change Option.bind (members (fuel + written.length + 1) _) _ = _
    rw [ih]
    cases members (fuel + 1) s <;> rfl

-- A member that is a string is read as its string is.
theorem members_string {key : List Char} (plain : ∀ c ∈ key, unescaped c = true) (fuel : Nat)
    (s : List Char) :
    members (fuel + 2) ('"' :: key ++ '"' :: ':' :: '"' :: s) =
      (string s).bind fun (units, s) =>
        match ws s with
        | ',' :: s => (members (fuel + 1) s).map fun (ms, s) =>
            ((key.map Char.toNat, .string units) :: ms, s)
        | '}' :: s => some ([(key.map Char.toNat, .string units)], s)
        | _ => none := by
  rw [members, List.cons_append, ws_cons (by decide), ← List.cons_append, name_key plain]
  simp only [Option.bind_eq_bind, Option.bind_some]
  rw [value_string]
  cases string s with
  | none => rfl
  | some read =>
    simp only [Option.map_some, Option.bind_some]
    split
    next => cases members (fuel + 1) _ <;> rfl
    next => rfl
    next => rfl

theorem members_last {key : List Char} (plain : ∀ c ∈ key, unescaped c = true) {s rest : List Char}
    {units : List Nat} (closed : string s = some (units, '}' :: rest)) (fuel : Nat) :
    members (fuel + 2) ('"' :: key ++ '"' :: ':' :: '"' :: s) =
      some ([(key.map Char.toNat, .string units)], rest) := by
  rw [members_string plain, closed]
  rfl

theorem members_broken {key : List Char} (plain : ∀ c ∈ key, unescaped c = true) {s : List Char}
    (broken : string s = none) (fuel : Nat) :
    members (fuel + 2) ('"' :: key ++ '"' :: ':' :: '"' :: s) = none := by
  rw [members_string plain, broken]
  rfl

-- An object's text, up to the contents of the string that is its last member.
def opening (written : List Member) (key : List Char) : List Char :=
  '{' :: written.flatMap Member.text ++ '"' :: key ++ ['"', ':', '"']

theorem opening_append (written : List Member) (key s : List Char) :
    opening written key ++ s =
      '{' :: (written.flatMap Member.text ++ ('"' :: key ++ '"' :: ':' :: '"' :: s)) := by
  simp [opening]

theorem value_object (written : List Member) (key s : List Char) (fuel : Nat) :
    value (fuel + 1) (opening written key ++ s) =
      (members fuel (written.flatMap Member.text ++ ('"' :: key ++ '"' :: ':' :: '"' :: s))).map
        fun (ms, s) => (.object ms, s) := by
  obtain ⟨rest, starts⟩ : ∃ rest,
      written.flatMap Member.text ++ ('"' :: key ++ '"' :: ':' :: '"' :: s) = '"' :: rest := by
    cases written with
    | nil => exact ⟨_, rfl⟩
    | cons m written => exact ⟨_, rfl⟩
  rw [opening_append, value, ws_cons (by decide), starts]
  simp only
  rw [ws_cons (by decide)]
  rfl

theorem length_text (written : List Member) : written.length ≤ (written.flatMap Member.text).length := by
  induction written with
  | nil => exact Nat.zero_le 0
  | cons m written ih =>
    simp only [List.flatMap_cons, List.length_append, List.length_cons, Member.text]
    omega

theorem enough_fuel (written : List Member) (key s : List Char) :
    ∃ fuel, 2 * (opening written key ++ s).length = fuel + 2 + written.length := by
  have := length_text written
  refine ⟨2 * (opening written key ++ s).length - 2 - written.length, ?_⟩
  rw [opening_append]
  simp only [List.length_cons, List.length_append]
  omega

theorem parse_object (written : List Member) {key : List Char} (plain : ∀ c ∈ key, unescaped c = true)
    {s : List Char} {units : List Nat} (closed : string s = some (units, ['}'])) :
    parse (opening written key ++ s) =
      some (.object (written.map Member.entry ++ [(key.map Char.toNat, .string units)])) := by
  obtain ⟨fuel, enough⟩ := enough_fuel written key s
  rw [parse, value_object, enough, members_append, members_last plain closed]
  rfl

theorem parse_broken (written : List Member) {key : List Char} (plain : ∀ c ∈ key, unescaped c = true)
    {s : List Char} (broken : string s = none) : parse (opening written key ++ s) = none := by
  obtain ⟨fuel, enough⟩ := enough_fuel written key s
  rw [parse, value_object, enough, members_append, members_broken plain broken]
  rfl

theorem utf8EncodeChar_ofUInt8 {b : UInt8} (ascii : b.toNat < 128) :
    String.utf8EncodeChar (Char.ofUInt8 b) = [b] := by
  have val : (Char.ofUInt8 b).val.toNat = b.toNat := UInt8.toNat_toUInt32 b
  rw [String.utf8EncodeChar]
  simp only [val]
  rw [if_pos (by omega), UInt8.ofNat_toNat]

theorem read_ascii {bytes : List UInt8} (ascii : ∀ b ∈ bytes, b.toNat < 128) :
    read bytes = parse (bytes.map Char.ofUInt8) := by
  have encoded : (bytes.map Char.ofUInt8).flatMap String.utf8EncodeChar = bytes := by
    induction bytes with
    | nil => rfl
    | cons b bytes ih =>
      rw [List.forall_mem_cons] at ascii
      rw [List.map_cons, List.flatMap_cons, utf8EncodeChar_ofUInt8 ascii.1, ih ascii.2]
      rfl
  have decoded := List.utf8Decode?_utf8Encode (l := bytes.map Char.ofUInt8)
  rw [List.utf8Encode, encoded] at decoded
  rw [read, decoded]
  rfl

end Json
