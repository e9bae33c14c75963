import ExnGs.Daemon.StateHistory
import ExnGs.Shared.MetaPayload
import ExnGs.Ui.IpcClient
import ExnGs.Ui.PacketTable
import ExnGs.Ui.UiApp

set_option autoImplicit false

-- The rows of the tables of packets, and what the callbacks add to them.
namespace ExnGs.Ui

open Proto Machine Daemon Daemon.StateHistory

def trimRows (maxn : Nat) : List PacketRow → List PacketRow
  | [] => []
  | row :: rest => if maxn < rest.length + 1 then trimRows maxn rest else row :: rest

/-- What the user is shown, with the tables. -/
structure UiScreen extends UiApp where
  txRows : List PacketRow := []
  rxRows : List PacketRow := []
  deriving DecidableEq, Repr

namespace UiScreen

def pushTx (ui : UiScreen) (m : PacketMeta) (desc : Text) : UiScreen :=
  { ui with txRows := trimRows 5000 (ui.txRows ++ [{ m, desc }]) }

def pushRx (ui : UiScreen) (m : PacketMeta) (desc : Text) : UiScreen :=
  { ui with rxRows := trimRows 5000 (ui.rxRows ++ [{ m, desc }]) }

def onFrame (ui : UiScreen) (f : Frame) : Option UiScreen :=
  if f.type = .PacketRx then do
    let (ok, m, desc) ← unpackPacketMeta f.payload {} []
    return if ok then ui.pushRx m desc else ui
  else if f.type = .PacketTx then do
    let (ok, m, desc) ← unpackPacketMeta f.payload {} []
    return if ok then ui.pushTx m desc else ui
  else (ui.toUiApp.onFrame f).map fun toUiApp => { ui with toUiApp }

-- The callbacks given to the client.
def onNotice (ui : UiScreen) : Notice → Option UiScreen
  | .connectionState connected detail =>
    some { ui with toUiApp := ui.toUiApp.onConnectionState connected detail }
  | .frame f => ui.onFrame f

def onNotices (ui : UiScreen) (notices : List Notice) : Option UiScreen := notices.foldlM onNotice ui

end UiScreen

-- The row that a frame of this type adds.
def rowOf (type : MsgType) (f : Frame) : Option PacketRow :=
  if f.type = type then
    match unpackPacketMeta f.payload {} [] with
    | some (true, m, desc) => some { m, desc }
    | _ => none
  else none

def Notice.row (type : MsgType) : Notice → Option PacketRow
  | .connectionState _ _ => none
  | .frame f => rowOf type f

theorem trimRows_last (maxn : Nat) (rows : List PacketRow) : trimRows maxn rows = last maxn rows := by
  induction rows with
  | nil => rw [trimRows, last, List.drop_nil]
  | cons row rest ih =>
    rw [trimRows, last, List.length_cons]
    split
    next many =>
      have drops : rest.length + 1 - maxn = rest.length - maxn + 1 := by omega
      rw [ih, drops, List.drop_succ_cons, last]
    next few =>
      have keeps : rest.length + 1 - maxn = 0 := by omega
      rw [keeps, List.drop_zero]

theorem last_short {α : Type} {count : Nat} {xs : List α} (short : xs.length ≤ count) :
    last count xs = xs := by
  rw [last, Nat.sub_eq_zero_of_le short, List.drop_zero]

-- A table, after a row was added to it or none.
def added (rows : List PacketRow) : Option PacketRow → List PacketRow
  | none => rows
  | some row => trimRows 5000 (rows ++ [row])

theorem added_last {rows seen : List PacketRow} (shown : rows = last 5000 seen) (row : Option PacketRow) :
    added rows row = last 5000 (seen ++ row.toList) := by
  cases row with
  | none => rw [added, shown, Option.toList_none, List.append_nil]
  | some row => rw [added, trimRows_last, shown, last_concat, Option.toList_some]

theorem filterMap_cons_toList {α β : Type} (f : α → Option β) (x : α) (xs : List α) :
    (x :: xs).filterMap f = (f x).toList ++ xs.filterMap f := by
  cases shown : f x with
  | none => rw [List.filterMap_cons_none shown, Option.toList_none, List.nil_append]
  | some y => rw [List.filterMap_cons_some shown, Option.toList_some, List.singleton_append]

namespace UiScreen

variable {ui after : UiScreen}

theorem onFrame_rows {f : Frame} (handled : ui.onFrame f = some after) :
    after.rxRows = added ui.rxRows (rowOf .PacketRx f) ∧
    after.txRows = added ui.txRows (rowOf .PacketTx f) := by
  unfold onFrame at handled
  split at handled
  next received =>
    have other : rowOf .PacketTx f = none := if_neg (by rw [received]; decide)
    simp only [Option.bind_eq_bind, Option.bind_eq_some_iff] at handled
    obtain ⟨⟨ok, m, desc⟩, unpacked, handled⟩ := handled
    cases handled
    rw [other, rowOf, if_pos received, unpacked]
    cases ok with
    | false => exact ⟨rfl, rfl⟩
    | true => exact ⟨rfl, rfl⟩
  next other =>
  have unreceived : rowOf .PacketRx f = none := if_neg other
  split at handled
  next sent =>
    simp only [Option.bind_eq_bind, Option.bind_eq_some_iff] at handled
    obtain ⟨⟨ok, m, desc⟩, unpacked, handled⟩ := handled
    cases handled
    rw [unreceived, rowOf, if_pos sent, unpacked]
    cases ok with
    | false => exact ⟨rfl, rfl⟩
    | true => exact ⟨rfl, rfl⟩
  next other =>
    have unsent : rowOf .PacketTx f = none := if_neg other
    obtain ⟨toUiApp, _, rfl⟩ := Option.map_eq_some_iff.mp handled
    rw [unreceived, unsent]
    exact ⟨rfl, rfl⟩

theorem onNotice_rows {notice : Notice} (handled : ui.onNotice notice = some after) :
    after.rxRows = added ui.rxRows (notice.row .PacketRx) ∧
    after.txRows = added ui.txRows (notice.row .PacketTx) := by
  cases notice with
  | connectionState connected detail =>
    cases handled
    exact ⟨rfl, rfl⟩
  | frame f => exact onFrame_rows handled

/-- Whatever comes in between, and whether the daemon is lost in the meantime, the tables show the last
rows of all that the callbacks were ever given. -/
theorem onNotices_rows {notices : List Notice} (few : ui.rxRows.length ≤ 5000 ∧ ui.txRows.length ≤ 5000)
    (handled : ui.onNotices notices = some after) :
    after.rxRows = last 5000 (ui.rxRows ++ notices.filterMap (Notice.row .PacketRx)) ∧
    after.txRows = last 5000 (ui.txRows ++ notices.filterMap (Notice.row .PacketTx)) := by
  have kept := foldlM_invariant (motive := fun left u => ∃ received sent : List PacketRow,
      (u.rxRows = last 5000 received ∧ received ++ left.filterMap (Notice.row .PacketRx) =
        ui.rxRows ++ notices.filterMap (Notice.row .PacketRx)) ∧
      (u.txRows = last 5000 sent ∧ sent ++ left.filterMap (Notice.row .PacketTx) =
        ui.txRows ++ notices.filterMap (Notice.row .PacketTx)))
    (fun notice left u v before taken => ?_) notices
    ⟨ui.rxRows, ui.txRows, ⟨(last_short few.1).symm, rfl⟩, (last_short few.2).symm, rfl⟩ handled
  · obtain ⟨received, sent, ⟨rx, allReceived⟩, tx, allSent⟩ := kept
    rw [List.filterMap_nil, List.append_nil] at allReceived allSent
    exact ⟨allReceived ▸ rx, allSent ▸ tx⟩
  · obtain ⟨received, sent, ⟨rx, allReceived⟩, tx, allSent⟩ := before
    obtain ⟨rx', tx'⟩ := onNotice_rows taken
    rw [filterMap_cons_toList, ← List.append_assoc] at allReceived allSent
    exact ⟨_, _, ⟨rx'.trans (added_last rx _), allReceived⟩, tx'.trans (added_last tx _), allSent⟩

theorem unpackPacketMeta_some (p : List UInt8) : ∃ result, unpackPacketMeta p {} [] = some result := by
  by_cases holds : HoldsMeta p
  · obtain ⟨read, unpacked, _⟩ := unpackPacketMeta_whole holds {} []
    exact ⟨_, unpacked⟩
  · obtain ⟨read, unpacked⟩ := unpackPacketMeta_cut holds {} []
    exact ⟨_, unpacked⟩

theorem onFrame_handled (ui : UiScreen) {f : Frame} (carries : CarriesText f)
    (fits : f.payload.length < 2 ^ 32) : ∃ after, ui.onFrame f = some after := by
  obtain ⟨⟨ok, m, desc⟩, unpacked⟩ := unpackPacketMeta_some f.payload
  obtain ⟨toUiApp, shown, _⟩ := ui.toUiApp.onFrame_shows carries fits
  unfold onFrame
  rw [unpacked, shown]
  split
  next => exact ⟨_, rfl⟩
  next =>
    split
    next => exact ⟨_, rfl⟩
    next => exact ⟨_, rfl⟩

theorem onNotices_handled (frames : List Frame) (carry : ∀ f ∈ frames, CarriesText f)
    (fit : ∀ f ∈ frames, f.payload.length < 2 ^ 32) (ui : UiScreen) :
    ∃ after, ui.onNotices (frames.map .frame) = some after := by
  induction frames generalizing ui with
  | nil => exact ⟨ui, rfl⟩
  | cons f frames ih =>
    obtain ⟨carries, carry⟩ := List.forall_mem_cons.mp carry
    obtain ⟨fits, fit⟩ := List.forall_mem_cons.mp fit
    obtain ⟨shown, handled⟩ := onFrame_handled ui carries fits
    obtain ⟨after, processed⟩ := ih carry fit shown
    refine ⟨after, ?_⟩
    rw [onNotices, List.map_cons, List.foldlM_cons, onNotice, handled]
    exact processed

end UiScreen

-- The row of a frame that carries metadata.
theorem rowOf_packed {type : MsgType} (m : PacketMeta) {desc : Text} (fits : desc.length ≤ 65535) :
    rowOf type { type, payload := packPacketMeta m desc } = some { m, desc } := by
  have length := length_packPacketMeta m fits
  have whole : 22 + descLength (packPacketMeta m desc) = (packPacketMeta m desc).length := by
    rw [descLength_packed m fits, length]
  obtain ⟨read, unpacked, packed⟩ := unpackPacketMeta_whole ⟨by omega, Nat.le_of_eq whole⟩ {} []
  rw [whole, List.take_length] at unpacked packed
  have fits' : ((packPacketMeta m desc).drop 22).length ≤ 65535 := by
    rw [List.length_drop, length]
    omega
  obtain ⟨fields, description⟩ := packPacketMeta_injective fits' fits packed
  rw [rowOf, if_pos rfl, unpacked, fields, description]

theorem rows_filter (type : MsgType) (frames : List Frame) :
    (frames.map Notice.frame).filterMap (Notice.row type) =
      (frames.filter fun f => f.type = type).filterMap (rowOf type) := by
  rw [List.filterMap_map]
  induction frames with
  | nil => rfl
  | cons f frames ih =>
    by_cases mine : f.type = type
    · rw [List.filter_cons_of_pos (by simpa using mine), filterMap_cons_toList, filterMap_cons_toList, ih]
      rfl
    · have silent : (Notice.row type ∘ Notice.frame) f = none := if_neg mine
      rw [List.filter_cons_of_neg (by simpa using mine), List.filterMap_cons_none silent, ih]

end ExnGs.Ui
