import ExnGs.Daemon.Delivery
import ExnGs.Ui.IpcClient

set_option autoImplicit false

-- What the daemon passes to `send` of a session, and what the client at the other end reads of it.
namespace ExnGs

open Proto Machine

-- The whole frames of what has come of a stream of frames are the first of them.
theorem Proto.frames_of_part {fs : List Frame} (fit : ∀ f ∈ fs, FitsField f) {part : List UInt8}
    (begins : part <+: encodeAll fs) :
    ∃ gs rest, part = encodeAll gs ++ rest ∧ gs <+: fs ∧ (∀ f ∈ gs, FitsField f) ∧ Incomplete rest := by
  have begins' : part <+: encodeAll fs ++ [] := by rwa [List.append_nil]
  obtain ⟨gs, rest, split, fits, incomplete⟩ := prefix_encodeAll fs [] fit incomplete_nil begins'
  refine ⟨gs, rest, split, ?_, fits, incomplete⟩
  obtain ⟨later, whole⟩ := begins
  have all := decodeAll_encodeAll fs [] fit incomplete_nil
  have appended := decodeAll_append part later
  rw [whole, ← List.append_nil (encodeAll fs), all, split, decodeAll_encodeAll gs rest fits incomplete]
    at appended
  exact ⟨_, (congrArg Prod.fst appended).symm⟩

namespace Daemon.App

-- The bytes of the writes of a session that ended well, in the course of a run.
def written (env : Env) (transport : Transport) (actions : List Action) (id : Nat) : List (List UInt8) :=
  observed (step env) (wired id) (initial transport) actions

-- What may have come to the client: all that was written, and what is being written.
def toClient (env : Env) (transport : Transport) (actions : List Action) (d : App) (id : Nat) : List UInt8 :=
  (written env transport actions id ++ (d.wire id).writing.map SharedBytes.bytes).flatten

variable {env : Env} {transport : Transport} {actions : List Action} {d : App}

theorem written_writing {id : Nat} {noted : List (List UInt8)} (carries : (d.wire id).Carries noted) :
    noted ++ (d.wire id).writing.map SharedBytes.bytes <+: (d.wire id).sent := by
  have few := carries.one_writing
  cases writing : (d.wire id).writing with
  | nil =>
    rw [List.map_nil, List.append_nil]
    exact carries.first
  | cons b rest =>
    rw [writing, List.length_cons] at few
    obtain rfl := List.eq_nil_of_length_eq_zero (show rest.length = 0 by omega)
    exact carries.last b (by rw [writing]; exact List.mem_cons_self)

theorem toClient_first (ran : run (step env) (initial transport) actions = some d) (id : Nat) :
    d.toClient env transport actions id <+: encodeAll (d.sentTo id) := by
  have sent : encodeAll (d.sentTo id) = (d.wire id).sent.flatten := List.flatMap_def
  obtain ⟨later, split⟩ := written_writing (carries_run id ran).1
  rw [sent, ← split, List.flatten_append]
  exact List.prefix_append _ _

-- A client that reads from the start finds whole frames, which are the first of those that were sent.
theorem client_reads (ran : run (step env) (initial transport) actions = some d) {id : Nat}
    (fit : ∀ f ∈ d.sentTo id, FitsField f) {client : Ui.IpcClient} (fresh : client.rxbuf = [])
    {reads : List (List UInt8)} (arrived : reads.flatten <+: d.toClient env transport actions id) :
    ∃ frames rest, client.readAll reads = some ({ client with rxbuf := rest }, frames.map .frame) ∧
      frames <+: d.sentTo id ∧ reads.flatten = encodeAll frames ++ rest ∧ Incomplete rest := by
  obtain ⟨frames, rest, split, first, fits, incomplete⟩ :=
    frames_of_part fit (arrived.trans (toClient_first ran id))
  have safe := safeReads_encodeAll frames rest fits incomplete reads split
  have whole := decodeAll_encodeAll frames rest fits incomplete
  have empty := decodeAll_wait incomplete_nil.not_holdsFrame
  refine ⟨frames, rest, ?_, first, split, incomplete⟩
  rw [client.readAll_decodeAll reads (by rw [fresh, empty]) (by rwa [fresh]), fresh, List.nil_append, split,
    whole]

/-- In every run what is written to a client are the first of the frames passed to `send` of its
session, one write at a time, and all of them once nothing is queued or posted and the socket is open.
However it comes, the client hands on the whole frames in what has come, and no others. -/
theorem client_stream (env : Env) (transport : Transport) (actions : List Action) (d : App)
    (ran : run (step env) (initial transport) actions = some d) (id : Nat) :
    written env transport actions id <+: (d.sentTo id).map encode ∧
    (d.wire id).writing.length ≤ 1 ∧
    (d.socketOpen id = true → d.txQueue id = [] → d.ready.filterMap (Task.sends id) = [] →
      written env transport actions id = (d.sentTo id).map encode) ∧
    ((∀ f ∈ d.sentTo id, FitsField f) → ∀ (client : Ui.IpcClient) (reads : List (List UInt8)),
      client.rxbuf = [] → reads.flatten <+: d.toClient env transport actions id →
        ∃ frames rest, client.readAll reads = some ({ client with rxbuf := rest }, frames.map .frame) ∧
          frames <+: d.sentTo id ∧ reads.flatten = encodeAll frames ++ rest ∧ Incomplete rest) := by
  have carries := (carries_run id ran).1
  refine ⟨carries.first, carries.one_writing, fun opened queue posted => ?_, fun fit client reads fresh arrived =>
    client_reads ran fit fresh arrived⟩
  exact carries.all opened queue posted

end Daemon.App

namespace Daemon

-- A packet is accepted for the device and another one received, while a client is told of them.
def traffic : List App.Action :=
  clientSends [] [packetSend] ++ [.finish 0 (.ok benchPacket), .run, .run, .run, .run,
    .finish 1 (.ok []), .run, .finish 4 (.ok []), .run, .finish 4 (.ok []), .run]

-- Of the fourth frame, which is being written, the last bytes have not come yet.
theorem client_stream_traffic :
    ∃ d, run (App.step benchEnv) (App.initial benchPort) traffic = some d ∧
      (d.sentTo 0).length = 4 ∧ (App.written benchEnv benchPort traffic 0).length = 3 ∧
      ∀ client : Ui.IpcClient, client.rxbuf = [] →
        ∃ frames rest, client.readAll
            [(d.toClient benchEnv benchPort traffic 0).take 30,
              ((d.toClient benchEnv benchPort traffic 0).drop 30).take 60] =
            some ({ client with rxbuf := rest }, frames.map .frame) ∧
          frames <+: d.sentTo 0 ∧ Incomplete rest := by
  have ran : (run (App.step benchEnv) (App.initial benchPort) traffic).map
      (fun d => (d.sentTo 0).map fun f => f.payload.length) = some [11, 26, 24, 24] := by
    decide +kernel
  have wrote : (App.written benchEnv benchPort traffic 0).length = 3 := by decide +kernel
  obtain ⟨d, reached, lengths⟩ := Option.map_eq_some_iff.mp ran
  have count : (d.sentTo 0).length = 4 := by
    rw [← List.length_map (fun f : Frame => f.payload.length), lengths]
    rfl
  have fit : ∀ f ∈ d.sentTo 0, FitsField f := by
    intro f member
    have one : f.payload.length ∈ [11, 26, 24, 24] :=
      lengths ▸ List.mem_map_of_mem (f := fun f => f.payload.length) member
    simp only [List.mem_cons, List.not_mem_nil, or_false] at one
    unfold FitsField
    omega
  have reads := (App.client_stream benchEnv benchPort traffic d reached 0).2.2.2 fit
  refine ⟨d, reached, count, wrote, fun client fresh => ?_⟩
  generalize stream : d.toClient benchEnv benchPort traffic 0 = bytes at reads
  have part : [bytes.take 30, (bytes.drop 30).take 60].flatten <+: bytes := by
    rw [List.flatten_cons, List.flatten_singleton, ← List.take_add]
    exact List.take_prefix _ _
  obtain ⟨frames, rest, found, first, -, incomplete⟩ := reads client _ fresh part
  exact ⟨frames, rest, found, first, incomplete⟩

end Daemon

end ExnGs
