import ExnGs.Daemon.IpcSession
import ExnGs.Ui.IpcClient

set_option autoImplicit false

-- The daemon's sessions and the clients write their queues alike, and alike they trust that the
-- queue is still the one a write was started on.
namespace ExnGs

open Proto EventLoop

/-- A session's and a client's writers take out of their queues what they wrote, in every order in
which handlers and closures can run, as long as no queue is cleared between a write and the handler
of its success. -/
theorem ipc_writers_pop_iff (host : Text) (port : UInt16)
    (session client : List (Action Completion Frame)) :
    (Machine.Along (step Daemon.IpcSession.party) Daemon.IpcSession.PopsItsBuffer
        Daemon.IpcSession.started session ↔
      Machine.Along (step Daemon.IpcSession.party) Daemon.IpcSession.WrittenWhileOpen
        Daemon.IpcSession.started session) ∧
    (Machine.Along (step Ui.IpcClient.party) Ui.IpcClient.PopsItsBuffer
        (Ui.IpcClient.started host port) client ↔
      Machine.Along (step Ui.IpcClient.party) Ui.IpcClient.WrittenSinceCleared
        (Ui.IpcClient.started host port) client) :=
  ⟨Daemon.IpcSession.along_popsItsBuffer_iff session,
    Ui.IpcClient.along_popsItsBuffer_iff host port client⟩

-- The greeting is written, the client hangs up, and the handler of the read runs before that of the
-- write, which then pops from an empty queue.
theorem ipc_session_pops_empty_queue :
    ¬ ∀ actions, Machine.Along (step Daemon.IpcSession.party) Daemon.IpcSession.PopsItsBuffer
      Daemon.IpcSession.started actions := by
  intro pops
  have run := pops [.closure 0, .finish 1 (.ok []), .finish 0 (.error (text "End of file")),
    .handler 0, .handler 0]
  have front := run.2.2.2.2.1 0 _ [] rfl rfl
  cases front

end ExnGs
