import ExnGs.Shared.Types

set_option autoImplicit false

-- What a session sends, as its client receives it.
namespace ExnGs.Daemon

/-- What the daemon holds for one session as a writer: its queue, the closures of `send` and the handlers
of writes that are ready to run, and the writes that are outstanding. `sent` is history: all that was
ever passed to `send`, encoded. -/
structure Wire where
  known : Bool := false
  opened : Bool := false
  queue : List SharedBytes := []
  posted : List SharedBytes := []
  ended : List (SharedBytes × Bool) := []
  writing : List SharedBytes := []
  sent : List (List UInt8) := []
  deriving DecidableEq, Repr

namespace Wire

def sends (w : Wire) (more : List SharedBytes) : Wire :=
  { w with posted := w.posted ++ more, sent := w.sent ++ more.map SharedBytes.bytes }

def close (w : Wire) : Wire := { w with opened := false, queue := [] }

-- What can happen to a session, and what is then on its way to the client for good.
inductive Step (w : Wire) : List (List UInt8) → Wire → Prop
  | sends (more : List SharedBytes) (known : more ≠ [] → w.known = true) : Step w [] (w.sends more)
  | accepted (unknown : w.known = false) : Step w [] { w with known := true, opened := true }
  | dropped {b : SharedBytes} {rest : List SharedBytes} (closed : w.opened = false)
      (posted : w.posted = b :: rest) : Step w [] { w with posted := rest }
  | queued {b : SharedBytes} {rest : List SharedBytes} (opened : w.opened = true) (busy : w.queue ≠ [])
      (posted : w.posted = b :: rest) : Step w [] { w with posted := rest, queue := w.queue ++ [b] }
  | begins {b : SharedBytes} {rest : List SharedBytes} (opened : w.opened = true) (idle : w.queue = [])
      (posted : w.posted = b :: rest) :
      Step w [] { w with posted := rest, queue := [b], writing := w.writing ++ [b] }
  | ends {b : SharedBytes} {before after : List SharedBytes} (ok : Bool)
      (may : ok = true → w.opened = true) (writing : w.writing = before ++ b :: after) :
      Step w (if ok then [b.bytes] else [])
        { w with writing := before ++ after, ended := w.ended ++ [(b, ok)] }
  | pops {b q : SharedBytes} {rest : List (SharedBytes × Bool)} {qs : List SharedBytes}
      (ended : w.ended = (b, true) :: rest) (queue : w.queue = q :: qs) :
      Step w [] { w with
        ended := rest
        queue := qs
        writing := w.writing ++ if w.opened then qs.head?.toList else [] }
  | fails {b : SharedBytes} {rest : List (SharedBytes × Bool)} (ended : w.ended = (b, false) :: rest) :
      Step w [] { w.close with ended := rest }
  | forgets {e : SharedBytes × Bool} {rest : List (SharedBytes × Bool)} (unknown : w.known = false)
      (ended : w.ended = e :: rest) : Step w [] { w with ended := rest }
  | closes (known : w.known = true) : Step w [] w.close

/-- What the client has been sent is the first of what was passed to `send`, and of all that was, what
has not been sent yet is in the queue or posted, while the socket is open. -/
inductive Carries (w : Wire) (wired : List (List UInt8)) : Prop
  | absent (unknown : w = {}) (none : wired = [])
  | idle (known : w.known = true) (opened : w.opened = true) (queue : w.queue = []) (writing : w.writing = [])
      (ended : w.ended = []) (sent : w.sent = wired ++ w.posted.map SharedBytes.bytes)
  | busy {b : SharedBytes} {rest : List SharedBytes} (known : w.known = true) (opened : w.opened = true)
      (queue : w.queue = b :: rest) (writing : w.writing = [b]) (ended : w.ended = [])
      (sent : w.sent = wired ++ (w.queue ++ w.posted).map SharedBytes.bytes)
  | written {b : SharedBytes} {rest : List SharedBytes} (known : w.known = true) (opened : w.opened = true)
      (queue : w.queue = b :: rest) (writing : w.writing = []) (ended : w.ended = [(b, true)])
      (sent : w.sent = wired ++ (rest ++ w.posted).map SharedBytes.bytes)
  | failed {b : SharedBytes} {rest : List SharedBytes} (known : w.known = true) (opened : w.opened = true)
      (queue : w.queue = b :: rest) (writing : w.writing = []) (ended : w.ended = [(b, false)])
      (first : wired <+: w.sent)
  | closed (known : w.known = true) (closed : w.opened = false) (queue : w.queue = [])
      (few : w.writing.length ≤ 1) (first : wired <+: w.sent)
      (last : ∀ b ∈ w.writing, wired ++ [b.bytes] <+: w.sent)

variable {w w' : Wire} {wired now : List (List UInt8)}

theorem Carries.one_writing (carries : w.Carries wired) : w.writing.length ≤ 1 := by
  cases carries with
  | absent unknown => simp [unknown]
  | busy _ _ _ writing => simp [writing]
  | closed _ _ _ few => exact few
  | idle _ _ _ writing | written _ _ _ writing | failed _ _ _ writing => simp [writing]

theorem Carries.first (carries : w.Carries wired) : wired <+: w.sent := by
  cases carries with
  | absent _ none => exact none ▸ List.nil_prefix
  | idle _ _ _ _ _ sent | busy _ _ _ _ _ sent | written _ _ _ _ _ sent =>
    exact sent ▸ List.prefix_append _ _
  | failed _ _ _ _ _ first => exact first
  | closed _ _ _ _ first => exact first

theorem Carries.last (carries : w.Carries wired) : ∀ b ∈ w.writing, wired ++ [b.bytes] <+: w.sent := by
  have none : w.writing = [] → ∀ b ∈ w.writing, wired ++ [b.bytes] <+: w.sent := by
    intro writing b member
    rw [writing] at member
    cases member
  cases carries with
  | absent unknown => exact none (by rw [unknown])
  | @busy b rest _ _ queue writing _ sent =>
    intro other member
    rw [writing] at member
    obtain rfl := List.mem_singleton.mp member
    refine ⟨(rest ++ w.posted).map SharedBytes.bytes, ?_⟩
    rw [sent, queue, List.append_assoc]
    rfl
  | closed _ _ _ _ _ last => exact last
  | idle _ _ _ writing | written _ _ _ writing | failed _ _ _ writing => exact none writing

-- While the socket is open nothing is lost: with nothing queued and nothing posted, all was sent.
theorem Carries.all (carries : w.Carries wired) (opened : w.opened = true) (idle : w.queue = [])
    (unposted : w.posted = []) : wired = w.sent := by
  cases carries with
  | absent unknown => simp [unknown] at opened
  | idle _ _ _ _ _ sent => rw [sent, unposted, List.map_nil, List.append_nil]
  | busy _ _ queue | written _ _ queue | failed _ _ queue =>
    rw [idle] at queue
    cases queue
  | closed _ closed =>
    rw [opened] at closed
    cases closed

-- Giving a session up loses nothing of what is known about it.
theorem Carries.close (carries : w.Carries wired) (known : w.known = true) : w.close.Carries wired :=
  .closed known rfl rfl carries.one_writing carries.first carries.last

theorem Carries.sends (carries : w.Carries wired) (more : List SharedBytes)
    (known : more ≠ [] → w.known = true) : (w.sends more).Carries wired := by
  have further : ∀ held : List SharedBytes, w.sent = wired ++ (held ++ w.posted).map SharedBytes.bytes →
      (w.sends more).sent = wired ++ (held ++ (w.posted ++ more)).map SharedBytes.bytes := by
    intro held sent
    simp only [Wire.sends, sent, List.map_append, List.append_assoc]
  have later : ∀ {front : List (List UInt8)}, front <+: w.sent → front <+: (w.sends more).sent :=
    fun first => first.trans (List.prefix_append _ _)
  cases carries with
  | absent unknown none =>
    have silent : more = [] := by
      cases more with
      | nil => rfl
      | cons b rest =>
        have born := known (List.cons_ne_nil b rest)
        rw [unknown] at born
        cases born
    refine .absent ?_ none
    rw [silent, unknown]
    rfl
  | idle known opened queue writing ended sent =>
    exact .idle known opened queue writing ended (further [] sent)
  | busy known opened queue writing ended sent =>
    exact .busy known opened queue writing ended (further _ sent)
  | written known opened queue writing ended sent =>
    exact .written known opened queue writing ended (further _ sent)
  | failed known opened queue writing ended first =>
    exact .failed known opened queue writing ended (later first)
  | closed known closed queue few first last =>
    exact .closed known closed queue few (later first) fun b member => later (last b member)

theorem Carries.queued (carries : w.Carries wired) {b : SharedBytes} {rest : List SharedBytes}
    (opened : w.opened = true) (busy : w.queue ≠ []) (posted : w.posted = b :: rest) :
    Carries { w with posted := rest, queue := w.queue ++ [b] } wired := by
  cases carries with
  | absent unknown => simp [unknown] at opened
  | idle _ _ queue => exact absurd queue busy
  | @busy front tail known _ queue writing ended sent =>
    refine .busy known opened (by rw [queue, List.cons_append]) writing ended ?_
    rw [sent, posted, List.append_assoc, List.singleton_append]
  | written known _ queue writing ended sent =>
    refine .written known opened (by rw [queue, List.cons_append]) writing ended ?_
    rw [sent, posted, List.append_assoc, List.singleton_append]
  | failed known _ queue writing ended first =>
    exact .failed known opened (by rw [queue, List.cons_append]) writing ended first
  | closed _ closed =>
    rw [opened] at closed
    cases closed

theorem Carries.begins (carries : w.Carries wired) {b : SharedBytes} {rest : List SharedBytes}
    (opened : w.opened = true) (idle : w.queue = []) (posted : w.posted = b :: rest) :
    Carries { w with posted := rest, queue := [b], writing := w.writing ++ [b] } wired := by
  cases carries with
  | absent unknown => simp [unknown] at opened
  | idle known _ _ writing ended sent =>
    refine .busy known opened rfl (by rw [writing, List.nil_append]) ended ?_
    rw [sent, posted, List.singleton_append]
  | busy _ _ queue | written _ _ queue | failed _ _ queue =>
    rw [idle] at queue
    cases queue
  | closed _ closed =>
    rw [opened] at closed
    cases closed

theorem Carries.ends (carries : w.Carries wired) {b : SharedBytes} {before after : List SharedBytes}
    (ok : Bool) (may : ok = true → w.opened = true) (writing : w.writing = before ++ b :: after) :
    Carries { w with writing := before ++ after, ended := w.ended ++ [(b, ok)] }
      (wired ++ if ok then [b.bytes] else []) := by
  have none : w.writing ≠ [] := by
    rw [writing]
    simp
  cases carries with
  | absent unknown => exact absurd (by rw [unknown]) none
  | idle _ _ _ silent | written _ _ _ silent | failed _ _ _ silent => exact absurd silent none
  | @busy front tail known opened queue one ended sent =>
    rw [one] at writing
    obtain ⟨rfl, rfl, rfl⟩ : before = [] ∧ b = front ∧ after = [] := by
      simpa [List.cons_eq_append_iff] using writing
    cases ok with
    | true =>
      refine .written known opened queue rfl (by rw [ended]; rfl) ?_
      rw [sent, queue, List.append_assoc]
      rfl
    | false =>
      refine .failed known opened queue rfl (by rw [ended]; rfl) ?_
      simp only [Bool.false_eq_true, if_false, List.append_nil]
      rw [sent]
      exact List.prefix_append _ _
  | closed known closed queue few first last =>
    cases ok with
    | true =>
      rw [may rfl] at closed
      cases closed
    | false =>
      simp only [Bool.false_eq_true, if_false, List.append_nil]
      refine .closed known closed queue ?_ first fun other member => last other ?_
      · rw [writing, List.length_append, List.length_cons] at few
        simp only [List.length_append]
        omega
      · rw [writing]
        rcases List.mem_append.mp member with here | there
        · exact List.mem_append_left _ here
        · exact List.mem_append_right _ (List.mem_cons_of_mem _ there)

theorem Carries.pops (carries : w.Carries wired) {b q : SharedBytes} {rest : List (SharedBytes × Bool)}
    {qs : List SharedBytes} (ended : w.ended = (b, true) :: rest) (queue : w.queue = q :: qs) :
    Carries { w with
      ended := rest
      queue := qs
      writing := w.writing ++ if w.opened then qs.head?.toList else [] } wired := by
  cases carries with
  | absent unknown => simp [unknown] at ended
  | idle _ _ empty =>
    rw [queue] at empty
    cases empty
  | busy _ _ _ _ none =>
    rw [ended] at none
    cases none
  | written known opened held writing one sent =>
    rw [ended] at one
    rw [queue] at held
    cases one
    cases held
    have started : (w.writing ++ if w.opened then qs.head?.toList else []) = qs.head?.toList := by
      rw [opened, writing]
      rfl
    rw [started]
    cases qs with
    | nil => exact .idle known opened rfl rfl rfl sent
    | cons front tail => exact .busy known opened rfl rfl rfl sent
  | failed _ _ _ _ one =>
    rw [ended] at one
    cases one
  | closed _ _ empty =>
    rw [queue] at empty
    cases empty

theorem Carries.step (carries : w.Carries wired) (stepped : w.Step now w') : w'.Carries (wired ++ now) := by
  have silent : ∀ {v : Wire}, v.Carries wired → v.Carries (wired ++ []) :=
    fun carries => (List.append_nil wired).symm ▸ carries
  cases stepped with
  | sends more known => exact silent (carries.sends more known)
  | accepted unknown =>
    refine silent ?_
    cases carries with
    | absent fresh none =>
      rw [fresh, none]
      exact .idle rfl rfl rfl rfl rfl rfl
    | idle known | busy known | written known | failed known | closed known =>
      rw [unknown] at known
      cases known
  | dropped shut posted =>
    refine silent ?_
    cases carries with
    | absent unknown => simp [unknown] at posted
    | closed known closed queue few first last => exact .closed known closed queue few first last
    | idle _ opened | busy _ opened | written _ opened | failed _ opened =>
      rw [shut] at opened
      cases opened
  | queued opened busy posted => exact silent (carries.queued opened busy posted)
  | begins opened idle posted => exact silent (carries.begins opened idle posted)
  | ends ok may writing => exact carries.ends ok may writing
  | pops ended queue => exact silent (carries.pops ended queue)
  | fails ended =>
    refine silent ?_
    cases carries with
    | absent unknown => simp [unknown] at ended
    | idle _ _ _ _ none | busy _ _ _ _ none =>
      rw [ended] at none
      cases none
    | written _ _ _ _ one =>
      rw [ended] at one
      cases one
    | failed known _ _ writing _ first =>
      refine .closed known rfl rfl (by simp [Wire.close, writing]) first fun b member => ?_
      simp [Wire.close, writing] at member
    | closed known _ _ few first last => exact .closed known rfl rfl few first last
  | forgets unknown ended =>
    refine silent ?_
    cases carries with
    | absent fresh => simp [fresh] at ended
    | idle known | busy known | written known | failed known | closed known =>
      rw [unknown] at known
      cases known
  | closes known => exact silent (carries.close known)

end Wire

end ExnGs.Daemon
