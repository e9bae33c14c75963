import ExnGs.LinkReports
import ExnGs.Tools.Gsdctl

set_option autoImplicit false

-- Whose requests the frames answer that end a run of `gsdctl`.
namespace ExnGs.Daemon

open Proto SpacePacket Framer Machine Tools Relation

namespace App

-- What other requests and the link put into the frames of a session: broadcasts.
structure Foreign (id : Nat) (d t : App) : Prop where
  sessions : t.sessions.length = d.sessions.length
  history : d.history <+: t.history
  frames : ∃ more, t.sentTo id = d.sentTo id ++ more ∧ (d.sessions.length ≤ id → more = []) ∧
    ∀ f ∈ more, .broadcast f ∈ t.history ∧ f.type ≠ .QueryResult

variable {env : Env} {id : Nat} {d t : App}

theorem Foreign.quiet (sessions : t.sessions.length = d.sessions.length)
    (history : d.history <+: t.history) (sent : t.sentTo id = d.sentTo id) : Foreign id d t :=
  ⟨sessions, history, [], by rw [sent, List.append_nil], fun _ => rfl, by simp⟩

theorem Foreign.unseen (sessions : t.sessions.length = d.sessions.length)
    (history : t.history = d.history) : Foreign id d t := by
  refine .quiet sessions ?_ ?_
  · simp [history]
  · rw [sentTo, sentTo, history]

theorem Foreign.trans {d' : App} (first : Foreign id d d') (later : Foreign id d' t) :
    Foreign id d t := by
  obtain ⟨more, sent, none, broadcasts⟩ := first.frames
  obtain ⟨more', sent', none', broadcasts'⟩ := later.frames
  refine ⟨later.sessions.trans first.sessions, first.history.trans later.history, more ++ more', ?_,
    ?_, ?_⟩
  · rw [sent', sent, List.append_assoc]
  · intro outside
    rw [none outside, none' (first.sessions ▸ outside), List.append_nil]
  · intro f member
    rcases List.mem_append.mp member with old | new
    · exact ⟨later.history.subset (broadcasts f old).1, (broadcasts f old).2⟩
    · exact broadcasts' f new

theorem Foreign.broadcast (d : App) {f : Frame} (other : f.type ≠ .QueryResult) :
    Foreign id d (d.broadcast f) := by
  refine ⟨by simp, by simp [broadcast_history], _, sentTo_broadcast d f id, ?_, ?_⟩
  · intro outside
    rw [if_neg (by omega)]
  · intro g member
    split at member
    next =>
      rw [List.mem_singleton.mp member]
      exact ⟨by simp [broadcast_history], other⟩
    next => cases member

theorem Foreign.log (d : App) (event : LinkEvent) : Foreign id d (d.log (.link event)) :=
  .quiet rfl (by simp [App.log]) (sentTo_log d event id)

theorem Foreign.setLink (d : App) (st : LinkState) (detail : Text) :
    Foreign id d (d.modifyState fun state => state.setLink st detail).publishLinkState :=
  have set : Foreign id d (d.modifyState fun state => state.setLink st detail) := .unseen rfl rfl
  set.trans (.broadcast _ (show MsgType.LinkState ≠ .QueryResult by decide))

theorem Foreign.onPacket {generation : Nat} {packet : List UInt8}
    (handled : d.onPacket env generation packet = some t) : Foreign id d t := by
  simp only [App.onPacket, Option.bind_eq_bind, Option.bind_eq_some_iff] at handled
  obtain ⟨decoded, _, handled⟩ := handled
  generalize rxRecord decoded (env.now (d.clock + 1)) packet = record at handled
  have kept : Foreign id d (d.keep generation record) :=
    .quiet rfl (by simp [keep]) (by simp [sentTo, keep, Event.sentTo])
  cases decoded with
  | error message =>
    cases handled
    have counted : Foreign id d ((d.keep generation record).modifyState .onDecodeError) :=
      kept.trans (.unseen rfl rfl)
    exact counted.trans (.broadcast _ (show MsgType.Error ≠ .QueryResult by decide))
  | ok m =>
    cases handled
    exact kept.trans (.broadcast _ (show MsgType.PacketRx ≠ .QueryResult by decide))

theorem foldlM_foreign {α : Type} {f : App → α → Option App} {d t : App}
    (foreign : ∀ (d t : App) (x : α), f d x = some t → Foreign id d t) (xs : List α)
    (handled : xs.foldlM f d = some t) : Foreign id d t :=
  foldlM_related (fun _ => .unseen rfl rfl) .trans (fun u x v taken => foreign u v x taken) xs handled

theorem Foreign.onLinkEvent {event : LinkEvent} (handled : d.onLinkEvent env event = some t) :
    Foreign id d t := by
  have logged : Foreign id d (d.log (.link event)) := .log d event
  cases event with
  | onState opened detail =>
    cases handled
    exact logged.trans (.setLink _ _ _)
  | onError err =>
    cases handled
    exact logged.trans (.setLink _ _ _)
  | onBytes generation data =>
    have packet : ∀ (d t : App) (bytes : List UInt8), d.onPacket env generation bytes = some t →
        Foreign id d t :=
      fun _ _ _ handled => .onPacket handled
    have pushed : Foreign id d { d.log (.link (.onBytes generation data)) with
        framer := (pushBytes env.lib.declaredPacketSize d.framer data).1 } :=
      logged.trans (.unseen rfl rfl)
    exact pushed.trans (foldlM_foreign packet _ handled)
  | _ =>
    cases handled
    exact logged.trans (.unseen rfl rfl)

theorem Foreign.onLink {turn : SerialLink × List LinkEvent}
    (handled : d.onLink env turn = some t) : Foreign id d t := by
  have begun : Foreign id d { d with link := turn.1 } := .unseen rfl rfl
  exact begun.trans (foldlM_foreign (fun _ _ _ => .onLinkEvent) turn.2 handled)

theorem Move.sentTo {asker : Option Nat} (move : Move env asker d t) :
    Foreign id d t ∨
      ∃ f, asker = some id ∧ d.history <+: t.history ∧ t.sentTo id = d.sentTo id ++ [f] := by
  cases move with
  | quiet same => exact .inl (.unseen same.sessions same.history)
  | @answered session f asked =>
    by_cases same : session = id
    · refine .inr ⟨f, same ▸ asked, by simp [send], ?_⟩
      rw [sentTo_send, if_pos same]
    · refine .inl (.quiet rfl (by simp [send]) ?_)
      rw [sentTo_send, if_neg same, List.append_nil]
  | turned _ _ handled => exact .inl (.onLink handled)
  | @sent d' data m now _ _ _ posted =>
    have counted : Foreign id d (d'.modifyState fun state => state.onTx data.length) :=
      (Foreign.onLink posted).trans (.unseen rfl rfl)
    exact .inl (counted.trans (.broadcast _ (show MsgType.PacketTx ≠ .QueryResult by decide)))

theorem Move.idle {asker : Option Nat} (move : Move env asker d t) :
    d.Same t ∨ d.greeting = none := by
  cases move with
  | quiet same => exact .inl same
  | answered _ _ idle => exact .inr idle
  | turned _ idle => exact .inr idle
  | sent _ _ idle => exact .inr idle

theorem Foreign.moves {asker : Option Nat} (other : asker ≠ some id)
    (moves : ReflTransGen (Move env asker) d t) : Foreign id d t := by
  induction moves with
  | refl => exact .unseen rfl rfl
  | tail _ move ih =>
    rcases move.sentTo with foreign | ⟨_, asked, _⟩
    · exact ih.trans foreign
    · exact absurd asked other

theorem moves_append {asker : Option Nat} (moves : ReflTransGen (Move env asker) d t) (id : Nat) :
    d.history <+: t.history ∧ ∃ more, t.sentTo id = d.sentTo id ++ more := by
  induction moves with
  | refl => exact ⟨List.prefix_refl _, [], by simp⟩
  | tail _ move ih =>
    obtain ⟨history, more, sent⟩ := ih
    rcases move.sentTo with foreign | ⟨f, _, history', sent'⟩
    · obtain ⟨more', sent', _⟩ := foreign.frames
      exact ⟨history.trans foreign.history, more ++ more', by rw [sent', sent, List.append_assoc]⟩
    · exact ⟨history.trans history', more ++ [f], by rw [sent', sent, List.append_assoc]⟩

theorem onFrame_rejects {f : Frame} (type : f.type = .PacketSend) (rejects : d.accepts env f = false)
    (handled : d.onFrame env f id = some t) :
    ∃ message, t.sentTo id = d.sentTo id ++ [makeErrorFrame message] := by
  have uncalled : d.calls env f = [] := by rw [calls, if_pos type, rejects]; rfl
  cases handled_of_onFrame handled with
  | rejected message _ _ => exact ⟨message, by rw [sentTo_send, if_pos rfl]; rfl⟩
  | answered other _ _ => exact absurd type other
  | sent calls | started calls | stopped calls | restarted calls =>
    cases uncalled.symm.trans calls

-- The request of a session that an action hands to `on_frame`.
def requestFrom (d : App) (id : Nat) (a : Action) : Option Frame :=
  match d.request a with
  | some (asker, f) => if asker = id then some f else none
  | none => none

end App

/-- The daemon, and what has become of a run of `gsdctl` at one of its sessions. No code reads the
history: the requests of the session that were handled, with whether their packet was accepted, and the
frames that the session was sent before that and after its greeting. -/
structure Errand where
  daemon : App
  handled : List (Frame × Bool) := []
  early : List Frame := []

namespace Errand

def advance (env : Env) (id : Nat) (s : Errand) (a : App.Action) (t : App) : Errand :=
  match s.daemon.requestFrom id a with
  | some f => { s with daemon := t, handled := s.handled ++ [(f, s.daemon.accepts env f)] }
  | none =>
    if s.handled = [] ∧ s.daemon.greeting ≠ some id then
      { s with
        daemon := t
        early := s.early ++ (t.sentTo id).drop (s.daemon.sentTo id).length }
    else { s with daemon := t }

def step (env : Env) (id : Nat) (s : Errand) (a : App.Action) : Outcome Errand :=
  match s.daemon.step env a with
  | .next t => .next (s.advance env id a t)
  | .undefined => .undefined
  | .disabled => .disabled

-- The session asks for nothing but this.
def AsksOnly (id : Nat) (r : Request) (s : Errand) (a : App.Action) : Prop :=
  ∀ f ∈ s.daemon.requestFrom id a, f = r.request

instance (id : Nat) (r : Request) (s : Errand) (a : App.Action) : Decidable (AsksOnly id r s a) :=
  inferInstanceAs (Decidable (∀ f ∈ s.daemon.requestFrom id a, f = r.request))

/-- The daemon has handled this request, and accepted its packet if it is one. -/
def Answered (r : Request) (s : Errand) : Prop :=
  ∃ accepted, (r.request, accepted) ∈ s.handled ∧ (r.expected = .PacketTx → accepted = true)

-- How `gsdctl` stands once it has read all that its session was sent.
def stage (command : Text) (args : List Text) (id : Nat) (s : Errand) : Option Stage :=
  follow command args (s.daemon.sentTo id)

structure Kept (command : Text) (args : List Text) (r : Request) (id : Nat) (s : Errand) : Prop where
  told : s.daemon.Told s.daemon.link.opened
  own : ∀ x ∈ s.handled, x.1 = r.request
  greeted : s.handled ≠ [] → App.Greets (s.daemon.sentTo id)
  foreign : ∀ f ∈ s.early, .broadcast f ∈ s.daemon.history ∧ f.type ≠ .QueryResult
  ended : s.stage command args id = some (.exited 0) → (∃ f ∈ s.early, Ends r f) ∨ s.Answered r
  rejected : r.expected = .PacketTx → (r.request, false) ∈ s.handled →
    s.stage command args id ≠ some (.waiting r)

variable {env : Env} {command : Text} {args : List Text} {r : Request} {id : Nat} {s : Errand} {t : App}

theorem stage_greeted (known : requestOf command args = some r) {frames more : List Frame}
    (greets : App.Greets frames) {after : Stage}
    (followed : follow command args (frames ++ more) = some after) :
    (follow command args frames = some (.waiting r) ∧
      more.foldlM (onFrame command args) (.waiting r) = some after) ∨
    (follow command args frames = some after ∧ (after = .exited 1 ∨ after = .exited 0)) := by
  obtain ⟨hello, status, later, rfl, _, isStatus⟩ := greets
  rw [follow, List.foldlM_append, Option.bind_eq_bind, Option.bind_eq_some_iff] at followed
  obtain ⟨before, reached, followed⟩ := followed
  have waited := follow_greeted known isStatus later reached
  rcases foldlM_waiting later waited with rfl | rfl | ⟨rfl, _⟩
  · exact .inl ⟨reached, followed⟩
  · rw [foldlM_exited] at followed
    cases followed
    exact .inr ⟨reached, .inl rfl⟩
  · rw [foldlM_exited] at followed
    cases followed
    exact .inr ⟨reached, .inr rfl⟩

-- Frames that others cause before the request is handled are the early ones.
theorem Kept.early_step {more : List Frame} (kept : s.Kept command args r id)
    (known : requestOf command args = some r) (told : t.Told t.link.opened) (none : s.handled = [])
    (waits : s.daemon.greeting ≠ some id) (sent : t.sentTo id = s.daemon.sentTo id ++ more)
    (unborn : s.daemon.sessions.length ≤ id → more = [])
    (history : s.daemon.history <+: t.history)
    (broadcasts : ∀ f ∈ more, .broadcast f ∈ t.history ∧ f.type ≠ .QueryResult) :
    Kept command args r id { s with daemon := t, early := s.early ++ more } := by
  have before : s.stage command args id = some (.exited 0) → (∃ f ∈ s.early ++ more, Ends r f) ∨
      s.Answered r := by
    intro exits
    rcases kept.ended exits with ⟨f, member, ends⟩ | answered
    · exact .inl ⟨f, List.mem_append_left _ member, ends⟩
    · exact .inr answered
  refine ⟨told, kept.own, fun some => absurd none some, ?_, fun exits => ?_, fun _ member => ?_⟩
  · intro f member
    rcases List.mem_append.mp member with old | new
    · exact ⟨history.subset (kept.foreign f old).1, (kept.foreign f old).2⟩
    · exact broadcasts f new
  · change follow command args (t.sentTo id) = _ at exits
    rw [sent] at exits
    by_cases outside : s.daemon.sessions.length ≤ id
    · rw [unborn outside, List.append_nil] at exits
      exact before exits
    · have greets := kept.told.greeted id (Nat.lt_of_not_le outside) waits
      rcases stage_greeted known greets exits with ⟨_, ended⟩ | ⟨ended, _⟩
      · rcases foldlM_waiting more ended with waits | failed | ⟨_, f, member, ends⟩
        · cases waits
        · cases failed
        · exact .inl ⟨f, List.mem_append_right _ member, ends⟩
      · exact before ended
  · simp only [none] at member
    cases member

-- Later ones find that the request was answered.
theorem Kept.late_step {more : List Frame} (kept : s.Kept command args r id)
    (known : requestOf command args = some r) (told : t.Told t.link.opened) (some : s.handled ≠ [])
    (sent : t.sentTo id = s.daemon.sentTo id ++ more) (history : s.daemon.history <+: t.history) :
    Kept command args r id { s with daemon := t } := by
  have greets := kept.greeted some
  refine ⟨told, kept.own, fun _ => ?_, fun f member => ?_, fun exits => ?_, fun raw member => ?_⟩
  · change App.Greets (t.sentTo id)
    rw [sent]
    exact greets.append more
  · exact ⟨history.subset (kept.foreign f member).1, (kept.foreign f member).2⟩
  · change follow command args (t.sentTo id) = _ at exits
    rw [sent] at exits
    rcases stage_greeted known greets exits with ⟨waited, _⟩ | ⟨ended, _⟩
    · obtain ⟨⟨f, accepted⟩, member⟩ := List.exists_mem_of_ne_nil _ some
      obtain rfl : f = r.request := kept.own _ member
      refine .inr ⟨accepted, member, fun raw => ?_⟩
      cases accepted with
      | true => rfl
      | false => exact absurd waited (kept.rejected raw member)
    · exact kept.ended ended
  · change follow command args (t.sentTo id) ≠ _
    rw [sent]
    intro waits
    rcases stage_greeted known greets waits with ⟨waited, _⟩ | ⟨_, failed | ended⟩
    · exact kept.rejected raw member waited
    · cases failed
    · cases ended

theorem Kept.foreign_step {a : App.Action} {more : List Frame} (kept : s.Kept command args r id)
    (known : requestOf command args = some r) (told : t.Told t.link.opened)
    (silent : s.daemon.requestFrom id a = none) (waits : s.daemon.greeting ≠ some id)
    (sent : t.sentTo id = s.daemon.sentTo id ++ more)
    (unborn : s.daemon.sessions.length ≤ id → more = [])
    (history : s.daemon.history <+: t.history)
    (broadcasts : ∀ f ∈ more, .broadcast f ∈ t.history ∧ f.type ≠ .QueryResult) :
    (s.advance env id a t).Kept command args r id := by
  rw [advance, silent]
  simp only
  split
  next early =>
    rw [sent, List.drop_left]
    exact kept.early_step known told early.1 waits sent unborn history broadcasts
  next late =>
    have some : s.handled ≠ [] := fun none => late ⟨none, waits⟩
    exact kept.late_step known told some sent history

-- Handling the request answers it, or it ends the wait with an error.
theorem Kept.own_step {a : App.Action} {d : App} (kept : s.Kept command args r id)
    (known : requestOf command args = some r) (told : t.Told t.link.opened)
    (asks : s.daemon.requestFrom id a = some r.request)
    (here : id < s.daemon.sessions.length) (idle : s.daemon.greeting = none)
    (same : s.daemon.Same d) (clock : d.clock = s.daemon.clock)
    (handled : d.onFrame env r.request id = some t) :
    (s.advance env id a t).Kept command args r id := by
  have greets := kept.told.greeted id here (by simp [idle])
  have moves := App.onFrame_moves (same.sessions ▸ here) (same.greeting ▸ idle) handled
  have unread : d.sentTo id = s.daemon.sentTo id := by rw [App.sentTo, App.sentTo, same.history]
  obtain ⟨history, more, sent⟩ := App.moves_append moves id
  have acceptance : d.accepts env r.request = s.daemon.accepts env r.request := by
    rw [App.accepts, App.accepts, same.link, clock]
  have rejection : r.expected = .PacketTx → s.daemon.accepts env r.request = false →
      ∀ after, more.foldlM (onFrame command args) (.waiting r) = some after → after = .exited 1 := by
    intro raw rejects after followed
    obtain ⟨message, error⟩ := App.onFrame_rejects (requestOf_raw known raw)
      (acceptance.trans rejects) handled
    rw [sent, List.append_cancel_left_eq] at error
    rw [error] at followed
    simp only [List.foldlM_cons, Option.bind_eq_bind, Option.bind_eq_some_iff] at followed
    obtain ⟨next, replied, followed⟩ := followed
    cases followed
    exact onReply_error rfl replied
  rw [unread] at sent
  rw [same.history] at history
  rw [advance, asks]
  refine ⟨told, ?_, fun _ => ?_, fun f member => ?_, fun exits => ?_, fun raw member waits => ?_⟩
  · intro x member
    rcases List.mem_append.mp member with old | new
    · exact kept.own x old
    · rw [List.mem_singleton.mp new]
  · change App.Greets (t.sentTo id)
    rw [sent]
    exact greets.append more
  · exact ⟨history.subset (kept.foreign f member).1, (kept.foreign f member).2⟩
  · change follow command args (t.sentTo id) = _ at exits
    rw [sent] at exits
    rcases stage_greeted known greets exits with ⟨_, ended⟩ | ⟨ended, _⟩
    · refine .inr ⟨_, List.mem_append_right _ List.mem_cons_self, fun raw => ?_⟩
      cases accepted : s.daemon.accepts env r.request with
      | true => rfl
      | false => cases rejection raw accepted _ ended
    · rcases kept.ended ended with early | ⟨accepted, member, passed⟩
      · exact .inl early
      · exact .inr ⟨accepted, List.mem_append_left _ member, passed⟩
  · change follow command args (t.sentTo id) = _ at waits
    rw [sent] at waits
    rcases stage_greeted known greets waits with ⟨waited, followed⟩ | ⟨_, failed | ended⟩
    · rcases List.mem_append.mp member with old | new
      · exact kept.rejected raw old waited
      · have rejects : s.daemon.accepts env r.request = false :=
          (Prod.mk.inj (List.mem_singleton.mp new)).2.symm
        cases rejection raw rejects _ followed
    · cases failed
    · cases ended

theorem Kept.unchanged (kept : s.Kept command args r id) (told : t.Told t.link.opened)
    (sent : t.sentTo id = s.daemon.sentTo id) (history : s.daemon.history <+: t.history) :
    Kept command args r id { s with daemon := t } := by
  have same : stage command args id { s with daemon := t } = s.stage command args id := by
    rw [stage, stage, sent]
  refine ⟨told, kept.own, fun some => ?_, fun f member => ?_, fun exits => ?_, fun raw member => ?_⟩
  · change App.Greets (t.sentTo id)
    rw [sent]
    exact kept.greeted some
  · exact ⟨history.subset (kept.foreign f member).1, (kept.foreign f member).2⟩
  · exact kept.ended (same ▸ exits)
  · rw [same]
    exact kept.rejected raw member

theorem Kept.unchanged_step {a : App.Action} (kept : s.Kept command args r id)
    (told : t.Told t.link.opened) (silent : s.daemon.requestFrom id a = none)
    (sent : t.sentTo id = s.daemon.sentTo id) (history : s.daemon.history <+: t.history) :
    (s.advance env id a t).Kept command args r id := by
  have nothing : s.early ++ (t.sentTo id).drop (s.daemon.sentTo id).length = s.early := by
    rw [sent, List.drop_length, List.append_nil]
  rw [advance, silent, nothing]
  simp only [ite_self]
  exact kept.unchanged told sent history

theorem Kept.greet_step {a : App.Action} (kept : s.Kept command args r id)
    (known : requestOf command args = some r) (told : t.Told t.link.opened)
    (silent : s.daemon.requestFrom id a = none) (greeting : s.daemon.greeting = some id)
    (same : (s.daemon.greet id).Same t) : (s.advance env id a t).Kept command args r id := by
  have fresh := (kept.told.greeting id greeting).2
  have none : s.handled = [] := by
    by_contra some
    obtain ⟨_, _, _, greets, _⟩ := kept.greeted some
    rw [fresh] at greets
    cases greets
  have sent : t.sentTo id =
      [{ type := .Hello, payload := packString (text "exn_gsd") }, s.daemon.currentLinkFrame] := by
    have greeted := App.sentTo_greet s.daemon id id
    rw [fresh, if_pos rfl, List.nil_append] at greeted
    rw [← greeted, App.sentTo, App.sentTo, same.history]
  have history : s.daemon.history <+: t.history := by
    rw [same.history]
    simp [App.greet, App.send]
  rw [advance, silent]
  simp only [greeting, ne_eq, not_true_eq_false, and_false, if_false]
  refine ⟨told, kept.own, fun some => absurd none some, fun f member => ?_, fun exits => ?_,
    fun _ member => ?_⟩
  · exact ⟨history.subset (kept.foreign f member).1, (kept.foreign f member).2⟩
  · change follow command args (t.sentTo id) = _ at exits
    rw [sent] at exits
    cases follow_greeted known rfl [] exits
  · simp only [none] at member
    cases member

theorem requestFrom_silent {d : App} {a : App.Action} (silent : d.request a = none) :
    d.requestFrom id a = none := by
  rw [App.requestFrom, silent]

theorem Kept.step {a : App.Action} {s' : Errand} (kept : s.Kept command args r id)
    (known : requestOf command args = some r) (asks : AsksOnly id r s a)
    (taken : s.step env id a = .next s') : s'.Kept command args r id := by
  simp only [Errand.step] at taken
  split at taken
  next t stepped =>
    cases taken
    have told := App.told_step kept.told stepped
    cases App.step_stepped stepped with
    | @asked asker f d request here idle same clock handled =>
      by_cases own : asker = id
      · subst own
        have from_ : s.daemon.requestFrom asker a = some f := by simp [App.requestFrom, request]
        obtain rfl := asks f from_
        exact kept.own_step known told from_ here idle same clock handled
      · have silent : s.daemon.requestFrom id a = none := by simp [App.requestFrom, request, own]
        have moves := App.onFrame_moves (same.sessions ▸ here) (same.greeting ▸ idle) handled
        have begun : App.Foreign id s.daemon d := .unseen same.sessions same.history
        have foreign := begun.trans (App.Foreign.moves (fun same => own (Option.some.inj same)) moves)
        obtain ⟨more, sent, unborn, broadcasts⟩ := foreign.frames
        exact kept.foreign_step known told silent (by simp [idle]) sent unborn foreign.history
          broadcasts
    | @unasked d silent same move =>
      have begun : App.Foreign id s.daemon d := .unseen same.sessions same.history
      rcases move.idle with quiet | idle
      · have history : t.history = s.daemon.history := quiet.history.trans same.history
        refine kept.unchanged_step told (requestFrom_silent silent) ?_ ?_
        · rw [App.sentTo, App.sentTo, history]
        · simp [history]
      · have waits : s.daemon.greeting ≠ some id := by simp [← same.greeting, idle]
        have foreign := begun.trans (App.Foreign.moves (by simp) (.single move))
        obtain ⟨more, sent, unborn, broadcasts⟩ := foreign.frames
        exact kept.foreign_step known told (requestFrom_silent silent) waits sent unborn
          foreign.history broadcasts
    | @welcomed d silent same idle after =>
      have history : t.history = s.daemon.history := by rw [after, App.welcome, same.history]
      refine kept.unchanged_step told (requestFrom_silent silent) ?_ ?_
      · rw [App.sentTo, App.sentTo, history]
      · simp [history]
    | @greeted greeted silent greeting same =>
      by_cases own : greeted = id
      · subst own
        exact kept.greet_step known told (requestFrom_silent silent) greeting same
      · refine kept.unchanged_step told (requestFrom_silent silent) ?_ ?_
        · rw [App.sentTo, same.history]
          have others := App.sentTo_greet s.daemon greeted id
          rwa [if_neg own, List.append_nil] at others
        · rw [same.history]
          simp [App.greet, App.send]
  next => cases taken
  next => cases taken

/-- When what its session was sent makes `gsdctl` exit with status 0, the daemon had answered its
request before, unless a broadcast that was sent before the request was handled ended the wait. -/
theorem exit_own_or_early (env : Env) (transport : Transport) (id : Nat) (command : Text)
    (args : List Text) {r : Request} (known : requestOf command args = some r) {s : Errand}
    (path : Reaches (Errand.step env id) (AsksOnly id r) { daemon := App.initial transport } s)
    (exits : s.stage command args id = some (.exited 0)) :
    (r.expected = .QueryResult → s.Answered r) ∧
    ((∀ f ∈ s.early, ¬ Ends r f) → s.Answered r) ∧
    ∀ f ∈ s.early, .broadcast f ∈ s.daemon.history := by
  have start : Kept command args r id { daemon := App.initial transport } :=
    ⟨App.told_initial transport, fun _ member => (by cases member), fun some => absurd rfl some,
      fun _ member => (by cases member), fun exits => (by cases exits),
      fun _ member => (by cases member)⟩
  have steps : ∀ (s : Errand) a s', s.Kept command args r id → AsksOnly id r s a →
      s.step env id a = .next s' → s'.Kept command args r id :=
    fun _ _ _ kept asks taken => kept.step known asks taken
  have kept := path.invariant steps start
  refine ⟨fun query => ?_, fun none => ?_, fun f member => (kept.foreign f member).1⟩
  · rcases kept.ended exits with ⟨f, member, ends⟩ | answered
    · exact absurd (ends.type.trans query) (kept.foreign f member).2
    · exact answered
  · rcases kept.ended exits with ⟨f, member, ends⟩ | answered
    · exact absurd ends (none f member)
    · exact answered

end Errand

def benchPing : Request := { request := command "PING" }

theorem exit_own_or_early_ping :
    ∃ s, run (Errand.step benchEnv 0) { daemon := App.initial benchPort }
        (clientSends [] [command "PING"]) = some s ∧ s.Answered benchPing := by
  have ran : (run (Errand.step benchEnv 0) { daemon := App.initial benchPort }
      (clientSends [] [command "PING"])).map (Errand.stage (text "ping") [] 0) =
      some (some (.exited 0)) := by
    decide +kernel
  obtain ⟨s, reached, exits⟩ := Option.map_eq_some_iff.mp ran
  have path : Reaches (Errand.step benchEnv 0) (Errand.AsksOnly 0 benchPing)
      { daemon := App.initial benchPort } s :=
    reaches_of_along (by decide +kernel) reached
  have known : requestOf (text "ping") [] = some benchPing := by decide
  exact ⟨s, reached, (Errand.exit_own_or_early benchEnv benchPort 0 _ _ known path exits).1 rfl⟩

def benchRaw : Request := { request := packetSend, expected := .PacketTx }

-- The other client connects second. Its packet is sent and it closes the link, and only then the daemon
-- reads what `gsdctl` asked.
def othersFirst : List App.Action :=
  [.run, .finish 0 (.ok []), .run, .run, .run, .run, .finish 2 (.ok []), .run, .run, .run, .run,
    .finish 3 (.ok (encodeAll [packetSend, command "DISCONNECT"])), .run, .run, .run, .run] ++
  List.replicate 5 .run ++ [.finish 1 (.ok (encodeAll [packetSend])), .run, .run, .run]

theorem exit_for_others_packet :
    ¬ ∀ (command : Text) (args : List Text) (r : Request), requestOf command args = some r → ∀ s,
      Reaches (Errand.step benchEnv 0) (Errand.AsksOnly 0 r) { daemon := App.initial benchPort } s →
      s.stage command args 0 = some (.exited 0) → s.Answered r := by
  intro own
  have ran : (run (Errand.step benchEnv 0) { daemon := App.initial benchPort } othersFirst).map
        (fun s => (s.handled, s.stage (text "raw") [text "0000C00000002A"] 0)) =
      some ([(packetSend, false)], some (.exited 0)) := by
    decide +kernel
  obtain ⟨s, reached, both⟩ := Option.map_eq_some_iff.mp ran
  obtain ⟨handled, exits⟩ := Prod.mk.inj both
  have path : Reaches (Errand.step benchEnv 0) (Errand.AsksOnly 0 benchRaw)
      { daemon := App.initial benchPort } s :=
    reaches_of_along (by decide +kernel) reached
  have known : requestOf (text "raw") [text "0000C00000002A"] = some benchRaw := by decide
  obtain ⟨accepted, member, passed⟩ := own _ _ _ known s path exits
  rw [handled] at member
  have rejected := (Prod.mk.inj (List.mem_singleton.mp member)).2
  exact absurd ((passed rfl).symm.trans rejected) (by decide)

end ExnGs.Daemon
