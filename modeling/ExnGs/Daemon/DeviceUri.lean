import ExnGs.Lib.Decimal
import ExnGs.Daemon.SerialLink

set_option autoImplicit false

-- The `port` a link is configured with: a device, or `tcp://HOST:PORT`.
namespace ExnGs.Daemon

-- `std::invalid_argument` and `std::out_of_range`.
inductive StoiError
  | invalidArgument
  | outOfRange
  deriving DecidableEq, Repr

-- `std::isspace` in the "C" locale.
def isSpace (b : UInt8) : Bool := b = 32 ∨ 9 ≤ b ∧ b ≤ 13

def sign : Text → Bool × Text
  | 43 :: s => (false, s)
  | 45 :: s => (true, s)
  | s => (false, s)

def stoi (s : Text) : Except StoiError Int :=
  let (negative, s) := sign (s.dropWhile isSpace)
  let digits := s.takeWhile Decimal.isDigit
  if digits = [] then .error .invalidArgument
  else
    let n : Int := if negative then -Decimal.value digits else Decimal.value digits
    if n < -2147483648 ∨ 2147483647 < n then .error .outOfRange else .ok n

-- `host` and `port` are only written where it returns true or throws.
def parseTcpUri (s : Text) : Except StoiError (Option (Text × UInt16)) :=
  let pfx := text "tcp://"
  if pfx.isPrefixOf s = false then .ok none
  else
    let rest := s.drop pfx.length
    match rest.idxOf? 58 with
    | none => .ok none
    | some pos => (stoi (rest.drop (pos + 1))).map fun port => some (rest.take pos, UInt16.ofInt port)

-- The constructor.
def SerialLink.construct (port : Text) : Except StoiError SerialLink :=
  (parseTcpUri port).map fun
    | some (tcpHost, tcpPort) => { isTcp := true, tcpHost, tcpPort, port }
    | none => { port }

def hostText (s : Text) : Text := (s.drop 6).takeWhile fun b => b ≠ 58

def portText (s : Text) : Text := ((s.drop 6).dropWhile fun b => b ≠ 58).tail

def IsPort (s : Text) : Prop := Decimal.IsNumeral s ∧ Decimal.value s ≤ 65535

instance (s : Text) : Decidable (IsPort s) := inferInstanceAs (Decidable (_ ∧ _))

/-- A link is made, for a device unless a port is written, and for the host and port written
if one is. -/
def AcceptsGrammar (s : Text) : Prop :=
  ∃ link, SerialLink.construct s = .ok link ∧ (link.isTcp = true ↔ IsPort (portText s)) ∧
    (link.isTcp = true → link.tcpHost = hostText s ∧ link.tcpPort.toNat = Decimal.value (portText s))

-- The runs of the daemon begin with such a link: nothing of it is open, queued or under way.
theorem construct_fresh {port : Text} {link : SerialLink}
    (made : SerialLink.construct port = .ok link) :
    link.port = port ∧ link = { toTransport := link.toTransport } := by
  rw [SerialLink.construct] at made
  cases parsed : parseTcpUri port with
  | error err =>
    rw [parsed] at made
    cases made
  | ok found =>
    rw [parsed] at made
    cases found with
    | none =>
      cases made
      exact ⟨rfl, rfl⟩
    | some address =>
      cases made
      exact ⟨rfl, rfl⟩

theorem isDigit_not_isSpace {b : UInt8} (digit : Decimal.isDigit b = true) : isSpace b = false := by
  have bounds := Decimal.isDigit_bounds digit
  simp only [isSpace, UInt8.le_iff_toNat_le, ← UInt8.toNat_inj, decide_eq_false_iff_not]
  simp only [UInt8.reduceToNat]
  omega

theorem sign_digit {b : UInt8} {s : Text} (digit : Decimal.isDigit b = true) :
    sign (b :: s) = (false, b :: s) := by
  have bounds := Decimal.isDigit_bounds digit
  unfold sign
  split
  next plus => cases plus; simp at bounds
  next minus => cases minus; simp at bounds
  next => rfl

theorem stoi_port {s : Text} (port : IsPort s) : stoi s = .ok (Decimal.value s) := by
  obtain ⟨numeral, small⟩ := port
  cases s with
  | nil => exact absurd rfl numeral.1
  | cons b s =>
    have digit := numeral.2 b List.mem_cons_self
    have kept : (b :: s).dropWhile isSpace = b :: s := by
      rw [List.dropWhile_cons_of_neg (by simp [isDigit_not_isSpace digit])]
    simp only [stoi, kept, sign_digit digit, numeral.takeWhile]
    rw [if_neg (by simp), if_neg]
    · rfl
    · simp only [Bool.false_eq_true, if_false]
      omega

theorem take_idxOf? {s : Text} {pos : Nat} (found : s.idxOf? 58 = some pos) :
    s.take pos = s.takeWhile (fun b => b ≠ 58) ∧
      s.drop (pos + 1) = (s.dropWhile fun b => b ≠ 58).tail := by
  induction s generalizing pos with
  | nil => cases found
  | cons b s ih =>
    rw [List.idxOf?_cons] at found
    by_cases colon : b = 58
    · simp only [colon, beq_self_eq_true, if_true, Option.some.injEq] at found
      subst found
      simp [colon]
    · simp only [beq_iff_eq, colon, if_false, Option.map_eq_some_iff] at found
      obtain ⟨pos, found, rfl⟩ := found
      simpa [colon] using ih found

-- What the constructor does with the scheme and a later ':' in place.
theorem construct_tcp {s : Text} (scheme : text "tcp://" <+: s) (colon : 58 ∈ s.drop 6) :
    SerialLink.construct s = (stoi (portText s)).map fun port =>
      { isTcp := true, tcpHost := hostText s, tcpPort := UInt16.ofInt port, port := s } := by
  have six : (text "tcp://").length = 6 := by decide
  have found : ∃ pos, (s.drop 6).idxOf? 58 = some pos := by
    rw [← Option.isSome_iff_exists]
    simpa using colon
  obtain ⟨pos, found⟩ := found
  obtain ⟨before, after⟩ := take_idxOf? found
  rw [SerialLink.construct, parseTcpUri]
  simp only [List.isPrefixOf_iff_prefix.mpr scheme, six, found, before, after]
  rw [hostText, portText]
  cases stoi ((s.drop 6).dropWhile fun b => b ≠ 58).tail <;> rfl

-- The cast to `uint16_t` loses nothing here.
theorem ofInt_value {s : Text} (small : Decimal.value s ≤ 65535) :
    (UInt16.ofInt (Decimal.value s)).toNat = Decimal.value s := by
  change (UInt16.ofNat ((Decimal.value s : Int) % 2 ^ 16).toNat).toNat = _
  rw [UInt16.toNat_ofNat']
  omega

theorem device_uri_grammar (s : Text) (scheme : text "tcp://" <+: s) (colon : 58 ∈ s.drop 6) :
    AcceptsGrammar s ↔ IsPort (portText s) := by
  rw [AcceptsGrammar, construct_tcp scheme colon]
  constructor
  · rintro ⟨link, made, accepted, -⟩
    cases parsed : stoi (portText s) with
    | error err =>
      rw [parsed] at made
      cases made
    | ok port =>
      rw [parsed] at made
      cases made
      exact accepted.mp rfl
  · intro port
    rw [stoi_port port]
    exact ⟨_, rfl, by simpa using port, fun _ => ⟨rfl, ofInt_value port.2⟩⟩

theorem device_uri_grammar_sim :
    AcceptsGrammar (text "tcp://127.0.0.1:9000") :=
  (device_uri_grammar _ (by decide) (by decide)).mpr (by decide)

-- 70000 is written, and 70000 - 65536 is what the link connects to.
theorem device_uri_port_wraps :
    SerialLink.construct (text "tcp://127.0.0.1:70000") =
        .ok { isTcp := true, tcpHost := text "127.0.0.1", tcpPort := 4464,
              port := text "tcp://127.0.0.1:70000" } ∧
      ¬ AcceptsGrammar (text "tcp://127.0.0.1:70000") := by
  have made : SerialLink.construct (text "tcp://127.0.0.1:70000") =
      .ok { isTcp := true, tcpHost := text "127.0.0.1", tcpPort := 4464,
            port := text "tcp://127.0.0.1:70000" } := by decide
  refine ⟨made, ?_⟩
  rintro ⟨link, made', -, exact⟩
  rw [made] at made'
  cases made'
  exact absurd (exact rfl).2 (by decide)

end ExnGs.Daemon
