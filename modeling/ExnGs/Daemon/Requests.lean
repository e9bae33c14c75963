import ExnGs.Daemon.App
import ExnGs.Daemon.LinkLoop

set_option autoImplicit false

-- What `on_frame` makes of the requests of the sessions.
namespace ExnGs.Daemon

open Proto SpacePacket Framer

namespace App

-- The frames that answer a request to the session it came from.
inductive Answer (d : App) : Frame → Prop
  | error (message : Text) : Answer d (makeErrorFrame message)
  | result (message : Text) : Answer d (makeQueryResult message)
  | status : Answer d d.currentLinkFrame

-- Whether a packet passes the checks that `on_frame` makes of it.
def accepts (env : Env) (d : App) (f : Frame) : Bool :=
  f.type = .PacketSend && d.link.opened &&
    ((decodeMeta env.lib (env.now d.clock) f.payload).map Except.isOk).getD false

-- The calls of the device link that a request makes.
def calls (env : Env) (d : App) (f : Frame) : List LinkCall :=
  if f.type = .PacketSend then
    if d.accepts env f then [.write f.payload] else []
  else
    match unpackString f.payload [] with
    | some (true, command) =>
      let command := uppercase command
      let serial := fun attempts => env.device (d.link.generation + attempts)
      if command = text "CONNECT" then if d.link.opened then [] else [.start (serial 1)]
      else if command = text "DISCONNECT" then [.stop]
      else if command = text "RECONNECT" then [.stop, .start (serial 2)]
      else []
    | _ => []

/-- What `on_frame` does with a request of session `id`. -/
inductive Handled (env : Env) (d : App) (f : Frame) (id : Nat) : App → Prop
  | rejected (message : Text) (type : f.type = .PacketSend) (calls : d.calls env f = []) :
      Handled env d f id ({ d with clock := d.clock + 1 }.send id (makeErrorFrame message))
  | sent {m : PacketMeta} {t : App} (calls : d.calls env f = [.write f.payload])
      (decoded : decodeMeta env.lib (env.now d.clock) f.payload = some (.ok m))
      (opened : d.link.opened = true)
      (posted : { d with clock := d.clock + 1 }.onLink env
        (d.link, d.link.writeBytes f.payload) = some t) :
      Handled env d f id ((t.modifyState fun state => state.onTx f.payload.length).broadcast
        (makePacketFrame .PacketTx m (text "TX")))
  | answered {g : Frame} (other : f.type ≠ .PacketSend) (calls : d.calls env f = [])
      (answers : d.Answer g) : Handled env d f id (d.send id g)
  | started {t : App} (calls : d.calls env f = [.start (env.device (d.link.generation + 1))])
      (started : d.onLink env (d.link.start env.device) = some t) : Handled env d f id t
  | stopped {t : App} (calls : d.calls env f = [.stop])
      (stopped : d.onLink env d.link.stop = some t) : Handled env d f id t
  | restarted {d' t : App}
      (calls : d.calls env f = [.stop, .start (env.device (d.link.generation + 2))])
      (stopped : d.onLink env d.link.stop = some d')
      (started : d'.onLink env (d'.link.start env.device) = some t) : Handled env d f id t

variable {env : Env} {d t : App} {f : Frame} {id : Nat}

theorem handled_packet (type : f.type = .PacketSend) (ran : d.onFrame env f id = some t) :
    Handled env d f id t := by
  have calls : d.calls env f = if d.accepts env f then [.write f.payload] else [] := if_pos type
  rw [onFrame, if_pos type] at ran
  simp only [Option.bind_eq_bind, Option.bind_eq_some_iff] at ran
  obtain ⟨decoded, inspected, ran⟩ := ran
  cases decoded with
  | error message =>
    cases ran
    have rejects : d.accepts env f = false := by
      simp [accepts, inspected, Except.isOk, Except.toBool]
    exact .rejected _ type (by rw [calls, rejects]; rfl)
  | ok m =>
    simp only at ran
    split at ran
    next closed =>
      cases ran
      have rejects : d.accepts env f = false := by simp [accepts, closed]
      exact .rejected _ type (by rw [calls, rejects]; rfl)
    next opened =>
      simp only [Option.bind_eq_some_iff] at ran
      obtain ⟨d', posted, ran⟩ := ran
      cases ran
      have opened : d.link.opened = true := by simpa using opened
      have accepts : d.accepts env f = true := by
        simp [accepts, type, inspected, opened, Except.isOk, Except.toBool]
      exact .sent (by rw [calls, if_pos accepts]) inspected opened posted

theorem handled_command (other : f.type ≠ .PacketSend) (ran : d.onFrame env f id = some t) :
    Handled env d f id t := by
  rw [onFrame, if_neg other] at ran
  simp only [Option.bind_eq_bind, Option.bind_eq_some_iff] at ran
  obtain ⟨⟨ok, command⟩, unpacked, ran⟩ := ran
  have calls : d.calls env f = _ := if_neg other
  rw [unpacked] at calls
  cases ok with
  | false =>
    cases ran
    exact .answered other calls (.error _)
  | true =>
    simp only [Bool.true_eq_false, if_false] at ran calls
    split at ran
    next connect =>
      rw [if_pos connect] at calls
      split at ran
      next opened =>
        cases ran
        exact .answered other (by rw [calls, if_pos opened]) .status
      next closed => exact .started (by rw [calls, if_neg closed]) ran
    next unconnected =>
    rw [if_neg unconnected] at calls
    split at ran
    next disconnect => exact .stopped (by rw [calls, if_pos disconnect]) ran
    next connected =>
    rw [if_neg connected] at calls
    split at ran
    next reconnect =>
      simp only [Option.bind_eq_some_iff] at ran
      obtain ⟨d', stopped, started⟩ := ran
      exact .restarted (by rw [calls, if_pos reconnect]) stopped started
    next ended =>
    rw [if_neg ended] at calls
    split at ran
    next => cases ran; exact .answered other calls (.result _)
    split at ran
    next => cases ran; exact .answered other calls .status
    split at ran
    next => cases ran; exact .answered other calls (.result _)
    next => cases ran; exact .answered other calls (.error _)

theorem handled_of_onFrame (ran : d.onFrame env f id = some t) : Handled env d f id t := by
  by_cases type : f.type = .PacketSend
  · exact handled_packet type ran
  · exact handled_command type ran

end App

end ExnGs.Daemon
