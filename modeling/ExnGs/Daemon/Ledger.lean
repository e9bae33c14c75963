import ExnGs.Daemon.Announcements
import ExnGs.Daemon.PacketLog
import ExnGs.Daemon.StateHistory

set_option autoImplicit false

-- What the daemon keeps of the packets that it receives: their announcements, its log and its store.
namespace ExnGs.Daemon

open Proto SpacePacket Framer Machine StateHistory FileLoggerSink

-- What is read of a line of the log.
structure LogEntry where
  tsNs : Nat
  dir : List Nat
  apid : Nat
  seq : Nat
  service : Nat
  subservice : Nat
  summary : List Nat
  deriving DecidableEq, Repr

def natural : Json.Value → Option Nat
  | .number lexeme => if lexeme.all Char.isDigit then some (Nat.ofDigitChars 10 lexeme 0) else none
  | _ => none

def units : Json.Value → Option (List Nat)
  | .string units => some units
  | _ => none

def readEntry (line : Text) : Option LogEntry :=
  match Json.read line with
  | some (.object members) => do
    return {
      tsNs := ← natural (← members.lookup (key "ts_ns"))
      dir := ← units (← members.lookup (key "dir"))
      apid := ← natural (← members.lookup (key "apid"))
      seq := ← natural (← members.lookup (key "seq"))
      service := ← natural (← members.lookup (key "service"))
      subservice := ← natural (← members.lookup (key "subservice"))
      summary := ← units (← members.lookup (key "summary")) }
  | _ => none

-- Every line is ended by a newline.
def readLog (log : Text) : Option (List LogEntry) :=
  let lines := log.splitOn 10
  if lines.getLast? = some [] then lines.dropLast.mapM readEntry else none

def entryOf (record : PacketRecord) : LogEntry where
  tsNs := record.tsNs.toNat
  dir := key (if record.dir = .TC then "TC" else "TM")
  apid := record.apid.toNat
  seq := record.seq.toNat
  service := record.service.toNat
  subservice := record.subservice.toNat
  summary := record.summary.map UInt8.toNat

theorem read_line {record : PacketRecord} (ascii : ∀ b ∈ record.summary, b.toNat < 128)
    (clean : ∀ b ∈ record.summary, unescapedControl b = false) :
    Json.read (line record) = some (.object ((leading record).map Json.Member.entry ++
      [(key "summary", .string (record.summary.map UInt8.toNat))])) := by
  have closed := string_escape record.summary ['}']
  rw [if_neg (by simpa using clean)] at closed
  have plain : ∀ c ∈ "summary".toList, Json.unescaped c = true := List.all_eq_true.mp (by decide)
  have text : (line record).map Char.ofUInt8 = _ := chars_line record
  rw [Json.read_ascii fun b member => (visible_line ascii b member).1, text]
  exact Json.parse_object _ plain closed

theorem natural_toDigits (n : Nat) : natural (.number (Nat.toDigits 10 n)) = some n := by
  have digits : (Nat.toDigits 10 n).all Char.isDigit = true := by
    rw [List.all_eq_true]
    exact fun c member => Nat.isDigit_of_mem_toDigits (by omega) (by omega) member
  rw [natural, if_pos digits, Nat.ofDigitChars_toDigits (by omega) (by omega)]

theorem readEntry_line {record : PacketRecord} (ascii : ∀ b ∈ record.summary, b.toNat < 128)
    (clean : ∀ b ∈ record.summary, unescapedControl b = false) :
    readEntry (line record) = some (entryOf record) := by
  rw [readEntry, read_line ascii clean]
  simp [leading, Json.Member.entry, numberMember, dirMember, key, List.lookup_cons, natural_toDigits, units,
    entryOf]

theorem splitOn_lines_append {xs : Text} {ls : List Text} (whole : xs.splitOn 10 = ls ++ [[]]) (ys : Text) :
    (xs ++ ys).splitOn 10 = ls ++ ys.splitOn 10 := by
  induction xs generalizing ls with
  | nil =>
    have none : ls ++ [[]] = [] ++ [[]] := whole.symm
    rw [List.append_cancel_right none]
    rfl
  | cons x xs ih =>
    rw [List.splitOn_cons_eq_if_modifyHead] at whole
    rw [List.cons_append, List.splitOn_cons_eq_if_modifyHead]
    split at whole
    next newline =>
      cases ls with
      | nil => exact absurd (List.cons.inj whole).2 (List.splitOn_ne_nil 10 xs)
      | cons l ls =>
        obtain ⟨rfl, later⟩ := List.cons.inj whole
        rw [if_pos newline, ih later]
        rfl
    next other =>
      cases first : xs.splitOn 10 with
      | nil => exact absurd first (List.splitOn_ne_nil 10 xs)
      | cons l rest =>
        rw [first, List.modifyHead_cons] at whole
        cases ls with
        | nil => cases whole
        | cons l' ls =>
          obtain ⟨rfl, later⟩ := List.cons.inj whole
          have rest : xs.splitOn 10 = l :: ls ++ [[]] := by
            rw [first, later]
            rfl
          rw [if_neg other, ih rest]
          rfl

theorem readLog_append {log more : Text} {entries later : List LogEntry} (read : readLog log = some entries)
    (readMore : readLog more = some later) : readLog (log ++ more) = some (entries ++ later) := by
  simp only [readLog] at read readMore ⊢
  split at read
  next ended =>
    split at readMore
    next endedMore =>
      obtain ⟨ls, split⟩ := List.getLast?_eq_some_iff.mp ended
      obtain ⟨ms, splitMore⟩ := List.getLast?_eq_some_iff.mp endedMore
      rw [split, List.dropLast_concat] at read
      rw [splitMore, List.dropLast_concat] at readMore
      rw [splitOn_lines_append split, splitMore, ← List.append_assoc, List.getLast?_concat, if_pos rfl,
        List.dropLast_concat, List.mapM_append, read, readMore]
      rfl
    next => cases readMore
  next => cases read

theorem readLog_line {record : PacketRecord} (ascii : ∀ b ∈ record.summary, b.toNat < 128)
    (clean : ∀ b ∈ record.summary, unescapedControl b = false) :
    readLog (line record ++ [10]) = some [entryOf record] := by
  have lines : (line record ++ [10]).splitOn 10 = [line record, []] := by
    have whole : 10 ∉ line record := fun member => (visible_line ascii 10 member).2 rfl
    rw [List.splitOn_append_cons_self_of_not_mem whole]
    rfl
  simp only [readLog, lines]
  rw [List.getLast?_cons_cons, List.getLast?_singleton, if_pos rfl]
  change [line record].mapM readEntry = _
  rw [List.mapM_cons, readEntry_line ascii clean]
  rfl

-- A log that could be read still can, with an entry more for each record.
theorem readLog_store {records : List PacketRecord} (ascii : ∀ record ∈ records, ∀ b ∈ record.summary, b.toNat < 128)
    (clean : ∀ record ∈ records, ∀ b ∈ record.summary, unescapedControl b = false)
    {sink : FileLoggerSink} (usable : sink.bad = false) {entries : List LogEntry}
    (read : readLog sink.out = some entries) :
    readLog (records.foldl store sink).out = some (entries ++ records.map entryOf) := by
  induction records generalizing sink entries with
  | nil => rwa [List.map_nil, List.append_nil]
  | cons record records ih =>
    obtain ⟨asciiHere, ascii⟩ := List.forall_mem_cons.mp ascii
    obtain ⟨cleanHere, clean⟩ := List.forall_mem_cons.mp clean
    have stored := store_usable usable record
    have sound : (sink.store record).bad = false := by
      rw [stored]
      exact usable
    have logged : readLog (sink.store record).out = some (entries ++ [entryOf record]) := by
      rw [stored]
      exact readLog_append read (readLog_line asciiHere cleanHere)
    have later := ih ascii clean sound logged
    rwa [List.append_assoc] at later

def Event.record : Event → List PacketRecord
  | .stored record => [record]
  | _ => []

-- What `decode_meta` made of a packet, and the packet.
abbrev Inspected := PacketMeta × List UInt8

namespace Inspected

def announcement (k : Inspected) : Frame := makePacketFrame .PacketRx k.1 (text "RX")

-- Of a packet that was decoded the record has the time in its metadata.
def record (k : Inspected) : PacketRecord := App.rxRecord (.ok k.1) 0 k.2

end Inspected

namespace App

-- The records passed to `on_packet` of the store and to `store` of the log.
def records (d : App) : List PacketRecord := d.history.flatMap Event.record

/-- What was handed on by the framer, with what was made of it, and what is kept of it. -/
structure Keeps (env : Env) (d : App) (kept : List Inspected) : Prop where
  decoded : ∀ k ∈ kept, ∃ now, decodeMeta env.lib now k.2 = some (.ok k.1)
  framed : d.framedPackets = kept.map Prod.snd
  notified : d.notified = kept.map Inspected.announcement
  records : d.records = kept.map Inspected.record
  store : d.state.cap = 2000 ∧ d.state.ring = last 2000 d.records ∧
    d.state.snap.services = lastSeen (d.records.map .onPacket)

variable {env : Env} {d t : App} {kept : List Inspected}

theorem Keeps.same (keeps : d.Keeps env kept)
    (state : t.state.cap = d.state.cap ∧ t.state.ring = d.state.ring ∧
      t.state.snap.services = d.state.snap.services)
    (observed : t.framedPackets = d.framedPackets ∧ t.notified = d.notified ∧ t.records = d.records) :
    t.Keeps env kept := by
  obtain ⟨cap, ring, services⟩ := state
  obtain ⟨framed, notified, records⟩ := observed
  refine ⟨keeps.decoded, framed.trans keeps.framed, notified.trans keeps.notified,
    records.trans keeps.records, ?_⟩
  rw [cap, ring, services, records]
  exact keeps.store

theorem records_keep (d : App) (generation : Nat) (record : PacketRecord) :
    (d.keep generation record).records = d.records ++ [record] := by
  simp [records, keep, Event.record]

theorem records_broadcast (d : App) (f : Frame) : (d.broadcast f).records = d.records := by
  rw [records, observed_broadcast (fun _ _ => rfl)]
  exact List.append_nil _

theorem Keeps.broadcast (keeps : d.Keeps env kept) {f : Frame} (other : f.type ≠ .PacketRx) :
    (d.broadcast f).Keeps env kept := by
  refine keeps.same (by simp) ⟨framedPackets_broadcast d f, ?_, records_broadcast d f⟩
  rw [(observed_broadcasts d f).2.2, Event.notified, if_neg other, List.append_nil]

theorem Keeps.setLink (keeps : d.Keeps env kept) (st : LinkState) (detail : Text) :
    (d.modifyState fun state => state.setLink st detail).publishLinkState.Keeps env kept := by
  have set : (d.modifyState fun state => state.setLink st detail).Keeps env kept :=
    keeps.same ⟨rfl, rfl, rfl⟩ ⟨rfl, rfl, rfl⟩
  exact set.broadcast (show MsgType.LinkState ≠ .PacketRx by decide)

theorem Keeps.log_link (keeps : d.Keeps env kept) (event : LinkEvent) :
    (d.log (.link event)).Keeps env kept := by
  refine keeps.same ⟨rfl, rfl, rfl⟩ ⟨?_, ?_, ?_⟩
  · simp [App.framedPackets, log, Event.packet]
  · simp [App.notified, log, Event.notified]
  · simp [App.records, log, Event.record]

theorem lastSeen_record (records : List PacketRecord) (record : PacketRecord) :
    lastSeen ((records ++ [record]).map .onPacket) = fun service =>
      if service = record.service then some { lastSeenNs := record.tsNs }
      else lastSeen (records.map .onPacket) service := by
  funext service
  rw [List.map_append]
  exact lastSeen_concat _ record service

theorem Keeps.onPacket {generation : Nat} {packet : List UInt8} (keeps : d.Keeps env kept)
    (accepts : ∀ now, ∃ m, decodeMeta env.lib now packet = some (.ok m) ∧ m.len.toNat + 7 = packet.length)
    (handled : d.onPacket env generation packet = some t) : ∃ k, t.Keeps env (kept ++ [k]) := by
  obtain ⟨m, decoded, -⟩ := accepts (env.now d.clock)
  simp only [App.onPacket, decoded] at handled
  cases handled
  generalize now : env.now (d.clock + 1) = time
  have record : rxRecord (.ok m) time packet = Inspected.record (m, packet) := rfl
  have stored := records_keep d generation (rxRecord (.ok m) time packet)
  refine ⟨(m, packet), ?_, ?_, ?_, ?_, ?_⟩
  · intro k member
    rcases List.mem_append.mp member with before | here
    · exact keeps.decoded k before
    · rw [List.mem_singleton.mp here]
      exact ⟨_, decoded⟩
  · rw [framedPackets_broadcast, List.map_append, ← keeps.framed]
    simp [App.framedPackets, keep, Event.packet, rxRecord]
  · rw [(observed_broadcasts _ _).2.2, (observed_keep _ _ _).2.2, keeps.notified, List.map_append]
    rfl
  · rw [records_broadcast, stored, keeps.records, List.map_append, record]
    rfl
  · obtain ⟨cap, ring, services⟩ := keeps.store
    rw [records_broadcast, stored, broadcast_state, lastSeen_record, ← services, ← last_concat, ← ring, ← cap]
    exact ⟨rfl, rfl, rfl⟩

section

variable (decodes : DecodesEmitted env.lib)

include decodes

theorem Keeps.onLinkEvent {event : LinkEvent} (keeps : d.Keeps env kept)
    (handled : d.onLinkEvent env event = some t) : ∃ more, t.Keeps env (kept ++ more) := by
  have logged := keeps.log_link event
  have none : kept ++ [] = kept := List.append_nil kept
  cases event with
  | onBytes generation data =>
    have accepts := decodes d.framer data
    -- The packets that are left are still to be accepted.
    refine (foldlM_invariant (motive := fun packets u =>
      (∀ packet ∈ packets, ∀ now, ∃ m, decodeMeta env.lib now packet = some (.ok m) ∧
        m.len.toNat + 7 = packet.length) ∧ ∃ more, Keeps env u (kept ++ more))
      (fun packet packets u v before taken => ?_) _ ⟨accepts, [], ?_⟩ handled).2
    · obtain ⟨accepts, more, before⟩ := before
      obtain ⟨first, later⟩ := List.forall_mem_cons.mp accepts
      obtain ⟨k, after⟩ := before.onPacket first taken
      exact ⟨later, more ++ [k], List.append_assoc kept more [k] ▸ after⟩
    · rw [none]
      exact logged.same ⟨rfl, rfl, rfl⟩ ⟨rfl, rfl, rfl⟩
  | onState opened detail =>
    cases handled
    exact ⟨[], none.symm ▸ logged.setLink _ _⟩
  | onError err =>
    cases handled
    exact ⟨[], none.symm ▸ logged.setLink _ _⟩
  | _ =>
    cases handled
    exact ⟨[], none.symm ▸ logged.same ⟨rfl, rfl, rfl⟩ ⟨rfl, rfl, rfl⟩⟩

theorem Keeps.onLink {turn : SerialLink × List LinkEvent} (keeps : d.Keeps env kept)
    (handled : d.onLink env turn = some t) : ∃ kept, t.Keeps env kept := by
  have turned : Keeps env { d with link := turn.1 } kept := keeps.same ⟨rfl, rfl, rfl⟩ ⟨rfl, rfl, rfl⟩
  refine foldlM_invariant (motive := fun _ u => ∃ kept, Keeps env u kept)
    (fun event _ u v before taken => ?_) turn.2 ⟨kept, turned⟩ handled
  obtain ⟨kept, before⟩ := before
  obtain ⟨more, after⟩ := before.onLinkEvent decodes taken
  exact ⟨kept ++ more, after⟩

theorem Keeps.move {asker : Option Nat} (keeps : d.Keeps env kept) (move : Move env asker d t) :
    ∃ kept, t.Keeps env kept := by
  cases move with
  | quiet same =>
    have history := same.history
    refine ⟨kept, keeps.same (by simp [same.state]) ?_⟩
    rw [App.framedPackets, App.notified, App.records, history]
    exact ⟨rfl, rfl, rfl⟩
  | answered =>
    exact ⟨kept, keeps.same ⟨rfl, rfl, rfl⟩ ⟨observed_send (fun _ _ => rfl) _ _ _,
      observed_send (fun _ _ => rfl) _ _ _, observed_send (fun _ _ => rfl) _ _ _⟩⟩
  | turned _ _ handled => exact keeps.onLink decodes handled
  | @sent d' data m now _ _ _ posted =>
    obtain ⟨kept, after⟩ := keeps.onLink decodes posted
    have counted : (d'.modifyState fun state => state.onTx data.length).Keeps env kept :=
      after.same ⟨rfl, rfl, rfl⟩ ⟨rfl, rfl, rfl⟩
    have other : (makePacketFrame .PacketTx m (text "TX")).type ≠ .PacketRx := by
      change MsgType.PacketTx ≠ .PacketRx
      decide
    exact ⟨kept, counted.broadcast other⟩

theorem keeps_step {a : Action} (before : ∃ kept, d.Keeps env kept) (taken : step env d a = .next t) :
    ∃ kept, t.Keeps env kept := by
  have moves : ∀ asker d t, (∃ kept, Keeps env d kept) → Move env asker d t → ∃ kept, Keeps env t kept :=
    fun _ _ _ ⟨_, before⟩ move => before.move decodes move
  have welcomes : ∀ d : App, (∃ kept, Keeps env d kept) → d.greeting = none → ∃ kept, Keeps env d.welcome kept :=
    fun _ ⟨kept, before⟩ _ => ⟨kept, before.same ⟨rfl, rfl, rfl⟩ ⟨rfl, rfl, rfl⟩⟩
  refine step_preserves moves welcomes ?_ before taken
  rintro d id ⟨kept, before⟩ -
  refine ⟨kept, before.same ⟨rfl, rfl, rfl⟩ ⟨?_, ?_, ?_⟩⟩
  · simp [framedPackets, greet, App.send, Event.packet]
  · simp [notified, greet, App.send, Event.notified]
  · simp [records, greet, App.send, Event.record]

end

theorem keeps_initial (env : Env) (transport : Transport) : (initial transport).Keeps env [] := by
  have empty : last 2000 (initial transport).records = [] := List.drop_nil
  exact ⟨fun _ member => (by cases member), rfl, rfl, rfl, rfl, empty.symm, rfl⟩

end App

end ExnGs.Daemon
