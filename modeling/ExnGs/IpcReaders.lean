import ExnGs.Daemon.IpcSession
import ExnGs.Tools.Gsdctl
import ExnGs.Ui.IpcClient

set_option autoImplicit false

-- The three readers of the IPC stream: the daemon's sessions, the clients, and `gsdctl`.
namespace ExnGs

open Proto

/-- However a stream of encoded frames, its last one possibly cut off, is cut into reads, every
reader finds the whole frames, in order, and is left with what was cut off. -/
theorem ipc_readers_deliver (fs : List Frame) (encodable : ∀ f ∈ fs, FitsField f)
    (tail : List UInt8) (incomplete : Incomplete tail) (reads : List (List UInt8))
    (cut : reads.flatten = encodeAll fs ++ tail) :
    (∀ session : Daemon.IpcSession, session.rxbuf = [] →
      session.readAll reads = some ({ session with rxbuf := tail }, fs)) ∧
    (∀ client : Ui.IpcClient, client.rxbuf = [] →
      client.readAll reads = some ({ client with rxbuf := tail }, fs.map .frame)) ∧
    ∀ calls, fs.length + reads.length < calls →
      Tools.readFrames calls reads [] .unset = some (fs, tail, true) := by
  have safe := safeReads_encodeAll fs tail encodable incomplete reads cut
  have whole := decodeAll_encodeAll fs tail encodable incomplete
  have empty := decodeAll_wait incomplete_nil.not_holdsFrame
  refine ⟨fun session fresh => ?_, fun client fresh => ?_, fun calls enough => ?_⟩
  · rw [session.readAll_decodeAll reads (by rw [fresh, empty]) (by rwa [fresh]), fresh,
      List.nil_append, cut, whole]
  · rw [client.readAll_decodeAll reads (by rw [fresh, empty]) (by rwa [fresh]), fresh,
      List.nil_append, cut, whole]
  · rw [Tools.readFrames_decodeAll calls reads [] .unset safe
      (by rw [List.nil_append, cut, whole]; exact enough), List.nil_append, cut, whole]

theorem ipc_readers_deliver_command :
    Tools.readFrames 7 [[0, 0, 0], [3, 0], [], [10, 65, 0], [0]] [] .unset =
      some ([{ type := .Command, payload := [65] }], [0, 0], true) :=
  (ipc_readers_deliver [{ type := .Command, payload := [65] }] (by simp [FitsField]) [0, 0]
    ⟨{ type := .Command, payload := [] }, by simp [FitsField], by decide, by decide⟩
    [[0, 0, 0], [3, 0], [], [10, 65, 0], [0]] (by decide)).2.2 7 (by decide)

end ExnGs
