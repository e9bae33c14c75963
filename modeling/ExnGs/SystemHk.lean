import ExnGs.Shared.PusAgreement
import ExnGs.Sim.Session
import ExnGs.Ui.Console

set_option autoImplicit false

-- The System HK, from the user who asks for it to the simulator that reports it.
namespace ExnGs.Ui

open Proto SpacePacket Machine Sim

/-- What a request for the System HK with this count comes to: a router takes it, and the simulator
makes one request of it, accepts it and reports to the ground. -/
structure AsksForHk (lib : TypedPack) (k : Nat) (packet : List UInt8) : Prop where
  inspected : ∀ now, ∃ m, decodeMeta lib.toCcsdsPack now packet = some (.ok m)
  answered : ∀ clock parsed, ∃ tc, onPacket lib clock parsed packet = (parsed + 1, [tc]) ∧
    tc.pktMeta.seq = count k ∧ reportsFor tc =
      [verification tc SUB_VERIFY_ACCEPT_OK (packet.take 4),
        { svc := SVC_HK, ssvc := SUB_SYS_HK_REPORT, destinationId := PUSID_GS
          applicationData := makeSystemHkReport tc }]

theorem hkFrame_asks {lib : TypedPack} (documented : Documented lib) {k : Nat}
    (built : (Console.systemHkTc lib.toCcsdsPack (count k)).ok = true) :
    AsksForHk lib k (hkFrame lib.toCcsdsPack k).payload := by
  have flags : EXN_PUS_TC_ACK_READ_DEFAULT < 16 := by decide
  refine ⟨fun now => ?_, fun clock parsed => ?_⟩
  · obtain ⟨m, agrees⟩ := tc_agrees documented now 0 flags built
    exact ⟨m, agrees.inspected⟩
  · obtain ⟨m, agrees⟩ := tc_agrees documented 0 (clock parsed) flags built
    obtain ⟨apid, seq, svc, ssvc⟩ := agrees.fields
    obtain ⟨info, read, source, acknowledged, requestId⟩ := agrees.parsed freshPus
    let tc : TcMessage := { pktMeta := { m with tsNs := clock parsed }, pus := info, applicationData := [] }
    have supported : supportedRequest tc = true := (supportedRequest_iff tc).mpr ⟨svc, .inr ssvc⟩
    refine ⟨tc, ?_, seq, ?_⟩
    · have here : parsePusCTc lib (clock parsed) (hkFrame lib.toCcsdsPack k).payload (some freshPus) = _ := read
      rw [onPacket, here]
      exact if_neg (not_not.mpr apid)
    · have accepted : asksFor tc EXN_PUS_TC_ACK_ACCEPTANCE = fun report => [report] := by
        funext report
        exact if_pos (acknowledged ▸ by decide)
      have unstarted : asksFor tc EXN_PUS_TC_ACK_START = fun _ => [] := by
        funext report
        exact if_neg (acknowledged ▸ by decide)
      have uncompleted : asksFor tc EXN_PUS_TC_ACK_COMPLETION = fun _ => [] := by
        funext report
        exact if_neg (acknowledged ▸ by decide)
      have other : tc.pktMeta.ssvc ≠ SUB_HK_REQUEST := ssvc ▸ by decide
      rw [reportsFor, if_pos supported, accepted, unstarted, uncompleted, hkReport, if_neg other]
      simp only [tc, requestId, source, List.append_nil, List.singleton_append]
      rfl

namespace Console

variable {Cursor : Type}

/-- Whatever is typed and whatever the daemon does in the meantime: the commands that are sent are plain,
and the packets that are sent are requests for the System HK, one for each time that one was asked
for, but for those that wait and for what comes after one that cannot be built. -/
theorem console_traffic (lib : TypedPack) (documented : Documented lib)
    (edit : Cursor → Text → Event → Cursor × Text) (cursor : Cursor) (actions : List Action)
    (c : Console Cursor) (ran : run (step lib.toCcsdsPack edit) { cursor } actions = some c) :
    let asked := observed (step lib.toCcsdsPack edit) asks { cursor } actions
    (c.cmdMode = true → c.helpMode = false) ∧
    (∀ f ∈ c.sent, f.type ≠ .PacketSend →
      ∃ command, Plain command ∧ f = { type := .Command, payload := packString command }) ∧
    ∃ n, c.sent.filter (fun f => f.type = .PacketSend) = (List.range n).map (hkFrame lib.toCcsdsPack) ∧
      (∀ k, k < n → AsksForHk lib k (hkFrame lib.toCcsdsPack k).payload) ∧
      n + c.posted ≤ asked.length ∧
      ((systemHkTc lib.toCcsdsPack (count n)).ok = true → n + c.posted = asked.length) := by
  have keeps : ∀ (c : Console Cursor) a t asked, c.Orderly lib.toCcsdsPack asked →
      c.step lib.toCcsdsPack edit a = .next t → t.Orderly lib.toCcsdsPack (asked ++ c.asks a) :=
    fun _ _ _ _ before taken => before.step taken
  have orderly := observed_invariant keeps actions (orderly_started lib.toCcsdsPack cursor) ran
  obtain ⟨n, packets, built, -, few, all⟩ := orderly.counted
  exact ⟨orderly.modes, orderly.plain.2, n, packets, fun k inside => hkFrame_asks documented (built k inside),
    few, all⟩

-- An input component that only appends.
def appending (_ : Unit) (input : Text) : Event → Unit × Text
  | .character typed => ((), input ++ typed)
  | _ => ((), input)

-- With all connected, the user enables the periodic HK, asks for one more and sends a command.
def session : List Action :=
  [.notice (.connectionState true []),
    .notice (.frame { type := .LinkState, payload := packString (text "CONNECTED") }),
    .event (.character (text "c"))] ++
  [.event (.character (text " hk_enable")), .event .Return, .advance, .advance, .advance, .tick] ++
  [.event (.character (text "hk_req")), .event .Return, .advance, .advance, .advance, .advance, .advance] ++
  [.event (.character (text "ping")), .event .Return, .advance, .advance, .advance, .advance] ++
  [.runHk, .event .Escape, .event (.character (text "q")), .stop]

theorem console_traffic_session :
    let lib := Reference.typedPack
    ∃ c, run (step lib.toCcsdsPack appending) { cursor := () } session = some c ∧ c.stopped = true ∧
      c.sent = [hkFrame lib.toCcsdsPack 0, { type := .Command, payload := packString (text "PING") },
        hkFrame lib.toCcsdsPack 1] ∧
      AsksForHk lib 1 (hkFrame lib.toCcsdsPack 1).payload := by
  intro lib
  have ran : (run (step lib.toCcsdsPack appending) { cursor := () } session).map
      (fun c => (c.stopped, c.posted, c.sent)) =
        some (true, 0, [hkFrame lib.toCcsdsPack 0, { type := .Command, payload := packString (text "PING") },
          hkFrame lib.toCcsdsPack 1]) := by
    decide +kernel
  obtain ⟨c, reached, shown⟩ := Option.map_eq_some_iff.mp ran
  simp only [Prod.mk.injEq] at shown
  obtain ⟨stopped, posted, sent⟩ := shown
  refine ⟨c, reached, stopped, sent, ?_⟩
  obtain ⟨n, packets, asks, -⟩ :=
    (console_traffic lib Reference.documented appending () session c reached).2.2
  have count := congrArg List.length packets
  rw [sent, List.length_map, List.length_range] at count
  have two : 1 < n := count ▸ (by decide)
  exact asks 1 two

end Console

end ExnGs.Ui
