import ExnGs.ClientStream
import ExnGs.LinkReports
import ExnGs.Ui.PacketRows

set_option autoImplicit false

-- From the packets of the device link to the rows of the tables.
namespace ExnGs

open Proto SpacePacket Framer Machine Ui Daemon Daemon.StateHistory

theorem forall₂_middle {α β : Type} {R : α → β → Prop} {before middle later : List α} {ys : List β}
    (all : List.Forall₂ R (before ++ (middle ++ later)) ys) :
    ∃ zs, zs <:+: ys ∧ List.Forall₂ R middle zs ∧ (later = [] → zs <:+ ys) := by
  have rest := List.forall₂_drop before.length all
  rw [List.drop_left] at rest
  have first := List.forall₂_take middle.length rest
  rw [List.take_left] at first
  refine ⟨_, (List.take_prefix _ _).isInfix.trans (List.drop_suffix _ _).isInfix, first, fun none => ?_⟩
  have length := rest.length_eq
  rw [none, List.append_nil] at length
  rw [length, List.take_length]
  exact List.drop_suffix _ _

theorem forall₂_last {α β : Type} {R : α → β → Prop} {xs : List α} {ys : List β}
    (all : List.Forall₂ R xs ys) (count : Nat) : List.Forall₂ R (last count xs) (last count ys) := by
  rw [last, last, all.length_eq]
  exact List.forall₂_drop _ all

namespace Ui

-- The row shows what `decode_meta` makes of the packet.
def PacketRow.Shows (env : Env) (desc : Text) (row : PacketRow) (packet : List UInt8) : Prop :=
  (∃ now, decodeMeta env.lib now packet = some (.ok row.m)) ∧ row.desc = desc

theorem rows_show {env : Env} {type : MsgType} {desc : Text} (fits : desc.length ≤ 65535) {frames : List Frame}
    {packets : List (List UInt8)}
    (announced : List.Forall₂ (fun f packet => ∃ now m, decodeMeta env.lib now packet = some (.ok m) ∧
      f = makePacketFrame type m desc) frames packets) :
    List.Forall₂ (PacketRow.Shows env desc) (frames.filterMap (rowOf type)) packets := by
  induction announced with
  | nil => exact .nil
  | @cons f packet frames packets first later ih =>
    obtain ⟨now, m, decoded, rfl⟩ := first
    have row : rowOf type (makePacketFrame type m desc) = some { m, desc } := rowOf_packed m fits
    rw [List.filterMap_cons_some row]
    exact .cons ⟨⟨now, decoded⟩, rfl⟩ ih

end Ui

namespace Daemon.App

variable {env : Env} {transport : Transport} {actions : List Action} {d : App}

-- What a session is sent of one kind are the last of all notifications of that kind.
theorem told_last (fanned : d.FannedOut) {type : MsgType} (kind : type = .PacketRx ∨ type = .PacketTx)
    (id : Nat) :
    (d.sentTo id).filter (fun f => f.type = type) <:+ d.told.filter fun f => f.type = type := by
  have suffix := (fanned.last id).filter fun f => decide (f.type = type)
  have same : (d.heard id).filter (fun f => decide (f.type = type)) =
      (d.sentTo id).filter fun f => decide (f.type = type) := by
    rw [heard, List.filter_filter]
    refine List.filter_congr fun f _ => ?_
    by_cases mine : f.type = type
    · rcases kind with rfl | rfl <;> simp [notifies, mine]
    · simp [mine]
  rw [← same]
  exact suffix

theorem table_shows (fanned : d.FannedOut) {type : MsgType} (kind : type = .PacketRx ∨ type = .PacketTx)
    {desc : Text} (fits : desc.length ≤ 65535) {packets : List (List UInt8)}
    (announced : List.Forall₂ (fun f packet => ∃ now m, decodeMeta env.lib now packet = some (.ok m) ∧
      f = makePacketFrame type m desc) (d.told.filter fun f => f.type = type) packets)
    {id : Nat} {frames : List Frame} (first : frames <+: d.sentTo id) :
    ∃ shown, shown <:+: packets ∧ shown.length = frames.countP (fun f => f.type = type) ∧
      List.Forall₂ (PacketRow.Shows env desc)
        (last 5000 ((frames.map Notice.frame).filterMap (Notice.row type))) (last 5000 shown) ∧
      (frames = d.sentTo id → shown <:+ packets) := by
  obtain ⟨before, split⟩ := told_last fanned kind id
  obtain ⟨later, whole⟩ := first
  rw [← split, ← whole, List.filter_append] at announced
  obtain ⟨shown, part, shows, ends⟩ := forall₂_middle announced
  refine ⟨shown, part, ?_, ?_, fun all => ends ?_⟩
  · rw [← shows.length_eq, List.countP_eq_length_filter]
  · rw [rows_filter]
    exact forall₂_last (rows_show fits shows) 5000
  · rw [← all] at whole
    rw [List.append_cancel_left (whole.trans (List.append_nil frames).symm), List.filter_nil]

theorem announced_reached (decodes : DecodesEmitted env.lib)
    (reached : Reaches (step env) (fun _ _ => True) (initial transport) d) :
    List.Forall₂ (Announces env) d.notified d.framedPackets := by
  have start : ∃ packets, HandsOn env packets (initial transport) (initial transport) :=
    ⟨[], .refl (initial transport)⟩
  obtain ⟨packets, handed⟩ := reached.invariant
    (fun _ _ _ before _ taken => step_hands decodes before taken) start
  obtain ⟨frames, notified, announced⟩ := handed.announced
  rw [notified, handed.framed]
  exact announced

theorem noted_reached (reached : Reaches (step env) (fun _ _ => True) (initial transport) d) :
    List.Forall₂ (AnnouncesSent env) d.sentNotes d.posted := by
  have start : (initial transport).Noted env := .nil
  exact reached.invariant (fun _ _ _ before _ taken => noted_step before taken) start

/-- However the stream of a session comes to its client, the rows that the client then shows are those
of a run of the packets framed, and of the packets accepted for the device, one row for each
notification that came, and the last of them when the tables are full. When all has come, they are the
last packets that there were. -/
theorem client_tables (env : Env) (header : DependsOnHeader env.lib.declaredPacketSize)
    (declares : DeclaresLength env.lib.declaredPacketSize) (parses : ParsesHeader env.lib)
    (transport : Transport) (actions : List Action) (d : App)
    (ran : run (step env) (initial transport) actions = some d) (id : Nat)
    (fit : ∀ f ∈ d.sentTo id, FitsField f) (client : IpcClient) (fresh : client.rxbuf = [])
    (reads : List (List UInt8)) (arrived : reads.flatten <+: d.toClient env transport actions id) :
    ∃ (frames : List Frame) (rest : List UInt8) (after : UiScreen) (received sent : List (List UInt8)),
      client.readAll reads = some ({ client with rxbuf := rest }, frames.map .frame) ∧
      UiScreen.onNotices {} (frames.map .frame) = some after ∧
      received <:+: d.framedPackets ∧ sent <:+: d.posted.map TxPacket.bytes ∧
      received.length = frames.countP (fun f => f.type = .PacketRx) ∧
      sent.length = frames.countP (fun f => f.type = .PacketTx) ∧
      List.Forall₂ (PacketRow.Shows env (text "RX")) after.rxRows (last 5000 received) ∧
      List.Forall₂ (PacketRow.Shows env (text "TX")) after.txRows (last 5000 sent) ∧
      (reads.flatten = encodeAll (d.sentTo id) → frames = d.sentTo id ∧
        received <:+ d.framedPackets ∧ sent <:+ d.posted.map TxPacket.bytes) := by
  have reached := reaches_of_run ran
  have fanned := (carries_run id ran).2
  have steps : ∀ (d : App) a t, d.Told d.link.opened → True → step env d a = .next t → t.Told t.link.opened :=
    fun _ _ _ told _ taken => told_step told taken
  have told : d.Told d.link.opened := reached.invariant steps (told_initial transport)
  obtain ⟨frames, rest, found, first, split, incomplete⟩ := client_reads ran fit fresh arrived
  have carry : ∀ f ∈ frames, CarriesText f := fun f member => told.texts id f (first.subset member)
  have short : ∀ f ∈ frames, f.payload.length < 2 ^ 32 := by
    intro f member
    have fits := fit f (first.subset member)
    unfold FitsField at fits
    omega
  obtain ⟨after, handled⟩ := UiScreen.onNotices_handled frames carry short {}
  obtain ⟨rx, tx⟩ := UiScreen.onNotices_rows ⟨Nat.zero_le _, Nat.zero_le _⟩ handled
  have receives := announced_reached (decodesEmitted header declares parses) reached
  rw [← told_notified] at receives
  have received := table_shows fanned (.inl rfl) (show (text "RX").length ≤ 65535 by decide)
    (receives.imp fun _ _ => fun ⟨reading, m, decoded, _, made⟩ => ⟨env.now reading, m, decoded, made⟩) first
  have sends := noted_reached reached
  rw [← told_sentNotes] at sends
  have sent := table_shows fanned (.inr rfl) (show (text "TX").length ≤ 65535 by decide)
    ((List.forall₂_map_right_iff (f := TxPacket.bytes)).mpr sends) first
  obtain ⟨rxShown, rxPart, rxCount, rxShows, rxLast⟩ := received
  obtain ⟨txShown, txPart, txCount, txShows, txLast⟩ := sent
  refine ⟨frames, rest, after, rxShown, txShown, found, handled, rxPart, txPart, rxCount, txCount, ?_, ?_,
    fun all => ?_⟩
  · rw [rx]
    exact rxShows
  · rw [tx]
    exact txShows
  · have fits : ∀ f ∈ frames, FitsField f := fun f member => fit f (first.subset member)
    have decoded := decodeAll_encodeAll frames rest fits incomplete
    rw [← split, all, ← List.append_nil (encodeAll _), decodeAll_encodeAll _ [] fit incomplete_nil] at decoded
    have whole : frames = d.sentTo id := (congrArg Prod.fst decoded).symm
    exact ⟨whole, rxLast whole, txLast whole⟩

end Daemon.App

namespace Daemon

-- The packet that was accepted and the one that was received are shown.
theorem client_tables_traffic :
    ∃ d after, run (App.step benchEnv) (App.initial benchPort) traffic = some d ∧
      (∃ read, ({ host := [], port := 7777 } : IpcClient).readAll [d.toClient benchEnv benchPort traffic 0] =
        some read ∧ UiScreen.onNotices {} read.2 = some after) ∧
      List.Forall₂ (PacketRow.Shows benchEnv (text "RX")) after.rxRows [benchPacket] ∧
      List.Forall₂ (PacketRow.Shows benchEnv (text "TX")) after.txRows [benchPacket] := by
  have ran : (run (App.step benchEnv) (App.initial benchPort) traffic).map
      (fun d => ((d.sentTo 0).map fun f => (f.type, f.payload.length),
        decide (d.toClient benchEnv benchPort traffic 0 = encodeAll (d.sentTo 0)),
        d.framedPackets, d.posted.map TxPacket.bytes)) =
      some ([(.Hello, 11), (.LinkState, 26), (.PacketTx, 24), (.PacketRx, 24)], true,
        [benchPacket], [benchPacket]) := by
    decide +kernel
  obtain ⟨d, reached, observed⟩ := Option.map_eq_some_iff.mp ran
  simp only [Prod.mk.injEq, decide_eq_true_eq] at observed
  obtain ⟨sentTo, all, framed, posted⟩ := observed
  have fit : ∀ f ∈ d.sentTo 0, FitsField f := by
    intro f member
    have one : (f.type, f.payload.length) ∈ [(MsgType.Hello, 11), (.LinkState, 26), (.PacketTx, 24),
        (.PacketRx, 24)] :=
      sentTo ▸ List.mem_map_of_mem (f := fun f : Frame => (f.type, f.payload.length)) member
    simp only [List.mem_cons, Prod.mk.injEq, List.not_mem_nil, or_false] at one
    unfold FitsField
    omega
  have count : ∀ type : MsgType, (d.sentTo 0).countP (fun f => f.type = type) =
      [(MsgType.Hello, 11), (.LinkState, 26), (.PacketTx, 24), (.PacketRx, 24)].countP
        fun seen => seen.1 = type := by
    intro type
    rw [← sentTo, List.countP_map]
    rfl
  have stream : [d.toClient benchEnv benchPort traffic 0].flatten = d.toClient benchEnv benchPort traffic 0 :=
    List.flatten_singleton
  obtain ⟨frames, rest, after, received, sent, found, handled, -, -, rxCount, txCount, rx, tx, whole⟩ :=
    App.client_tables benchEnv Reference.dependsOnHeader Reference.declaresLength Reference.parsesHeader
      benchPort traffic d reached 0 fit { host := [], port := 7777 } rfl [d.toClient benchEnv benchPort traffic 0]
      ⟨[], by rw [stream, List.append_nil]⟩
  obtain ⟨rfl, rxLast, txLast⟩ := whole (by rw [stream, all])
  rw [count] at rxCount txCount
  rw [framed] at rxLast
  rw [posted] at txLast
  have one : ∀ packets : List (List UInt8), packets.length = 1 → packets <:+ [benchPacket] →
      last 5000 packets = [benchPacket] := by
    intro packets length suffix
    rw [suffix.eq_of_length (by rw [length]; rfl)]
    rfl
  rw [one received rxCount rxLast] at rx
  rw [one sent txCount txLast] at tx
  exact ⟨d, after, reached, ⟨_, found, handled⟩, rx, tx⟩

end Daemon

end ExnGs
