import ExnGs.Shared.StringPayload

set_option autoImplicit false

namespace ExnGs.Ui

open Proto

/-- What the user is shown of the daemon and of its link, without the tables of packets. -/
structure UiApp where
  daemonConnected : Bool := false
  deviceConnected : Bool := false
  daemonLine : Text := text "CONNECTING"
  deviceLine : Text := text "UNKNOWN"
  noticeLine : Text := []
  deriving DecidableEq, Repr

namespace UiApp

def startsWith (value : Text) (start : String) : Bool := (text start).isPrefixOf value

def setNotice (ui : UiApp) (message : Text) : UiApp := { ui with noticeLine := message }

-- The callback given to `set_on_connection_state`.
def onConnectionState (ui : UiApp) (connected : Bool) (detail : Text) : UiApp :=
  if connected then
    { ui with daemonConnected := true, daemonLine := text "CONNECTED " ++ detail }
  else
    { ui with
      daemonConnected := false
      deviceConnected := false
      daemonLine := text "RECONNECTING " ++ detail
      deviceLine := text "UNKNOWN" }

-- The callback given to `set_on_frame`; `none` is an access outside of the payload.
def onFrame (ui : UiApp) (f : Frame) : Option UiApp :=
  if f.type = .Hello then do
    let (ok, server) ← unpackString f.payload []
    return if ok then ui.setNotice (text "IPC handshake: " ++ server) else ui
  else if f.type = .LinkState then do
    let (ok, s) ← unpackString f.payload []
    if ok = false then return ui
    return { ui with deviceConnected := startsWith s "CONNECTED", deviceLine := s }
  else if f.type = .QueryResult then do
    let (ok, s) ← unpackString f.payload []
    return if ok then ui.setNotice s else ui
  else if f.type = .Error then do
    let (ok, s) ← unpackString f.payload []
    return if ok then ui.setNotice (text "ERROR: " ++ s) else ui
  -- `PacketRx` and `PacketTx` only add to the tables.
  else some ui

-- The frames that the callback gets of one session, one after the other.
def onFrames (ui : UiApp) (frames : List Frame) : Option UiApp := frames.foldlM onFrame ui

-- What the state of the link is said to be in a frame.
def shows (f : Frame) : Bool := startsWith (stringOf f.payload) "CONNECTED"

end UiApp

-- Frames whose payload is a string, where the callback reads one.
def CarriesText (f : Frame) : Prop :=
  f.type = .PacketRx ∨ f.type = .PacketTx ∨ ∃ s, f.payload = packString s

def latestStatus (last : Option Frame) (f : Frame) : Option Frame :=
  if f.type = .LinkState then some f else last

def lastStatus (frames : List Frame) : Option Frame := frames.foldl latestStatus none

@[simp] theorem lastStatus_append (frames : List Frame) (f : Frame) :
    lastStatus (frames ++ [f]) = latestStatus (lastStatus frames) f := by
  simp [lastStatus]

namespace UiApp

theorem onFrame_shows (ui : UiApp) {f : Frame} (carries : CarriesText f)
    (fits : f.payload.length < 2 ^ 32) :
    ∃ after, ui.onFrame f = some after ∧
      after.deviceConnected = if f.type = .LinkState then shows f else ui.deviceConnected := by
  rcases carries with received | sent | ⟨s, payload⟩
  · exact ⟨ui, by simp [onFrame, received, MsgType.PacketRx, MsgType.Hello, MsgType.LinkState,
      MsgType.QueryResult, MsgType.Error], by simp [received, MsgType.PacketRx, MsgType.LinkState]⟩
  · exact ⟨ui, by simp [onFrame, sent, MsgType.PacketTx, MsgType.Hello, MsgType.LinkState,
      MsgType.QueryResult, MsgType.Error], by simp [sent, MsgType.PacketTx, MsgType.LinkState]⟩
  · have short : s.length < 2 ^ 32 := by
      simp only [payload, packString, appendU32_bytes, List.length_append] at fits
      omega
    have unpacked : unpackString f.payload [] = some (true, s) := by
      rw [payload, unpackString_packString s [] short]
    have chars : stringOf f.payload = s := by rw [payload, stringOf_packString s short]
    rw [shows, chars]
    simp only [onFrame, unpacked, Option.bind_eq_bind, Option.bind_some]
    by_cases hello : f.type = .Hello
    · rw [if_pos hello, hello]
      exact ⟨_, rfl, rfl⟩
    by_cases status : f.type = .LinkState
    · rw [if_neg hello, if_pos status, if_pos status]
      exact ⟨_, rfl, rfl⟩
    by_cases result : f.type = .QueryResult
    · rw [if_neg hello, if_neg status, if_pos result, if_neg status]
      exact ⟨_, rfl, rfl⟩
    by_cases error : f.type = .Error
    · rw [if_neg hello, if_neg status, if_neg result, if_pos error, if_neg status]
      exact ⟨_, rfl, rfl⟩
    · rw [if_neg hello, if_neg status, if_neg result, if_neg error, if_neg status]
      exact ⟨_, rfl, rfl⟩

/-- Whatever the UI held before, it shows what the last frame that tells of the link says. -/
theorem onFrames_shows (frames : List Frame) (carry : ∀ f ∈ frames, CarriesText f)
    (fit : ∀ f ∈ frames, f.payload.length < 2 ^ 32) (ui : UiApp) :
    ∃ after, ui.onFrames frames = some after ∧
      ∀ f, lastStatus frames = some f → after.deviceConnected = shows f := by
  have all : ∀ (frames : List Frame) (ui : UiApp) (last : Option Frame),
      (∀ f ∈ frames, CarriesText f) → (∀ f ∈ frames, f.payload.length < 2 ^ 32) →
      (∀ f, last = some f → ui.deviceConnected = shows f) →
      ∃ after, ui.onFrames frames = some after ∧
        ∀ f, frames.foldl latestStatus last = some f → after.deviceConnected = shows f := by
    intro frames
    induction frames with
    | nil => exact fun ui last _ _ shown => ⟨ui, rfl, shown⟩
    | cons f rest ih =>
      intro ui last carry fit shown
      obtain ⟨carries, carry⟩ := List.forall_mem_cons.mp carry
      obtain ⟨fits, fit⟩ := List.forall_mem_cons.mp fit
      obtain ⟨next, handled, connected⟩ := onFrame_shows ui carries fits
      have told : ∀ g, latestStatus last f = some g → next.deviceConnected = shows g := by
        intro g latest
        rw [connected]
        unfold latestStatus at latest
        split at latest
        next status =>
          cases latest
          rw [if_pos status]
        next other => rw [if_neg other, shown g latest]
      obtain ⟨after, processed, shows⟩ := ih next (latestStatus last f) carry fit told
      refine ⟨after, ?_, shows⟩
      rw [onFrames, List.foldlM_cons, handled]
      exact processed
  exact all frames ui none carry fit (by simp)

end UiApp

end ExnGs.Ui
