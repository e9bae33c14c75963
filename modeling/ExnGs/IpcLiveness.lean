import ExnGs.Daemon.IpcSession
import ExnGs.Ui.IpcClient

set_option autoImplicit false

-- What the readers of the IPC stream hold between two reads, and which streams they never leave.
namespace ExnGs

open Proto

/-- The bytes held are a proper beginning of a frame, and more bytes can make `try_decode` succeed. -/
def Alive (rxbuf : List UInt8) : Prop :=
  Incomplete rxbuf ∧ ∃ more rest f, tryDecode (rxbuf ++ more) .unset = some (true, rest, f)

def Daemon.IpcSession.StaysAlive (reads : List (List UInt8)) : Prop :=
  ∀ earlier, earlier <+: reads → ∃ session decoded,
    ({} : IpcSession).readAll earlier = some (session, decoded) ∧ Alive session.rxbuf

def Ui.IpcClient.StaysAlive (client : IpcClient) (reads : List (List UInt8)) : Prop :=
  ∀ earlier, earlier <+: reads → ∃ client' notices,
    ({ client with rxbuf := [] } : IpcClient).readAll earlier = some (client', notices) ∧
      Alive client'.rxbuf

-- Wherever a read ends, a header that follows the last whole frame is that of a possible frame.
def PossibleFields (reads : List (List UInt8)) : Prop :=
  ∀ earlier, earlier <+: reads → PossibleField (decodeAll earlier.flatten).2

theorem alive_iff (stream : List UInt8) :
    Alive (decodeAll stream).2 ↔ PossibleField (decodeAll stream).2 := by
  have waiting : ¬ HoldsFrame (decodeAll stream).2 := by
    intro holds
    have cut := frames_cut holds
    rw [decodeAll, frames.cut_residue] at cut
    contradiction
  rw [Alive, ← incomplete_iff waiting, and_iff_left_of_imp]
  intro incomplete
  obtain ⟨more, f, completed⟩ := incomplete.completed .unset
  exact ⟨more, [], f, completed⟩

theorem PossibleFields.safe {reads : List (List UInt8)} (possible : PossibleFields reads) :
    SafeReads [] reads :=
  fun earlier begins => (possible earlier begins).not_overruns

theorem PossibleFields.earlier {reads earlier : List (List UInt8)} (possible : PossibleFields reads)
    (begins : earlier <+: reads) : PossibleFields earlier :=
  fun first part => possible first (part.trans begins)

theorem nothing_held : decodeAll [] = ([], []) := decodeAll_wait incomplete_nil.not_holdsFrame

theorem Daemon.IpcSession.staysAlive_iff (reads : List (List UInt8)) :
    StaysAlive reads ↔ PossibleFields reads := by
  constructor
  · intro alive earlier begins
    obtain ⟨session, decoded, ran, holds⟩ := alive earlier begins
    have safe := readAll_safe earlier {} nothing_held incomplete_nil.not_overruns ran
    rw [readAll_decodeAll earlier {} nothing_held safe] at ran
    cases ran
    exact (alive_iff _).mp holds
  · intro possible earlier begins
    exact ⟨_, _, readAll_decodeAll earlier {} nothing_held (possible.earlier begins).safe,
      (alive_iff _).mpr (possible earlier begins)⟩

theorem Ui.IpcClient.staysAlive_iff (client : IpcClient) (reads : List (List UInt8)) :
    client.StaysAlive reads ↔ PossibleFields reads := by
  constructor
  · intro alive earlier begins
    obtain ⟨client', notices, ran, holds⟩ := alive earlier begins
    have safe := readAll_safe earlier { client with rxbuf := [] } nothing_held
      incomplete_nil.not_overruns ran
    rw [readAll_decodeAll earlier { client with rxbuf := [] } nothing_held safe] at ran
    cases ran
    exact (alive_iff _).mp holds
  · intro possible earlier begins
    exact ⟨_, _, readAll_decodeAll earlier { client with rxbuf := [] } nothing_held
      (possible.earlier begins).safe, (alive_iff _).mpr (possible earlier begins)⟩

/-- The readers stay able to decode on exactly the streams whose headers are possible ones. -/
theorem ipc_streams_alive_iff (client : Ui.IpcClient) (reads : List (List UInt8)) :
    (Daemon.IpcSession.StaysAlive reads ↔ PossibleFields reads) ∧
      (client.StaysAlive reads ↔ PossibleFields reads) :=
  ⟨Daemon.IpcSession.staysAlive_iff reads, client.staysAlive_iff reads⟩

-- After a length field below 2 nothing is decoded any more, and everything is kept.
theorem decodeAll_malformed {held : List UInt8} (long : 4 ≤ held.length)
    (malformed : lengthField held < 2) (later : List UInt8) :
    decodeAll (held ++ later) = ([], held ++ later) ∧ ¬ Overruns (held ++ later) := by
  have field := lengthField_append held later long
  refine ⟨decodeAll_wait ?_, ?_⟩
  · rintro ⟨_, atLeast, _⟩
    omega
  · rintro ⟨_, wraps, _⟩
    omega

theorem Daemon.IpcSession.readAll_malformed (s : IpcSession) (reads : List (List UInt8))
    (long : 4 ≤ s.rxbuf.length) (malformed : lengthField s.rxbuf < 2) :
    s.readAll reads = some ({ s with rxbuf := s.rxbuf ++ reads.flatten }, []) := by
  have kept := fun later => (decodeAll_malformed long malformed later).1
  have safe : SafeReads s.rxbuf reads := by
    intro earlier _
    rw [kept]
    exact (decodeAll_malformed long malformed _).2
  rw [readAll_decodeAll reads s (by simpa using kept []) safe, kept]

-- Four zero bytes: whatever follows them, the session decodes nothing and its buffer grows.
theorem ipc_session_dead :
    ¬ Daemon.IpcSession.StaysAlive [[0, 0, 0, 0]] ∧
      ∀ later, (({ rxbuf := [0, 0, 0, 0] } : Daemon.IpcSession).readAll later) =
        some ({ rxbuf := [0, 0, 0, 0] ++ later.flatten }, []) := by
  constructor
  · intro alive
    have possible := (Daemon.IpcSession.staysAlive_iff _).mp alive [[0, 0, 0, 0]] (List.prefix_refl _)
    have malformed : lengthField [0, 0, 0, 0] < 2 := by decide
    have kept := (decodeAll_malformed (by decide) malformed []).1
    rw [List.append_nil] at kept
    simp only [List.flatten_cons, List.flatten_nil, List.append_nil, kept] at possible
    exact absurd (possible (by decide)).1 (by decide)
  · intro later
    exact Daemon.IpcSession.readAll_malformed { rxbuf := [0, 0, 0, 0] } later (by simp) (by decide)

end ExnGs
