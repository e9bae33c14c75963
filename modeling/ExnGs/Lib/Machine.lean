set_option autoImplicit false

/-- What an action does in a state: it cannot happen there, its behaviour is undefined, or it leads
to a next state. -/
inductive Outcome (σ : Type)
  | disabled
  | undefined
  | next (state : σ)

namespace Machine

variable {σ α : Type}

def outcome : Option σ → Outcome σ
  | none => .undefined
  | some state => .next state

theorem outcome_eq_next {result : Option σ} {s : σ} (taken : outcome result = .next s) :
    result = some s := by
  cases result with
  | none => cases taken
  | some t =>
    cases taken
    rfl

-- An action, or none.
def attempt (step : σ → α → Outcome σ) (s : σ) : Option α → Outcome σ
  | none => .next s
  | some a => step s a

def run (step : σ → α → Outcome σ) : σ → List α → Option σ
  | s, [] => some s
  | s, a :: rest =>
    match step s a with
    | .next t => run step t rest
    | _ => none

inductive Reaches (step : σ → α → Outcome σ) (guard : σ → α → Prop) (s : σ) : σ → Prop
  | refl : Reaches step guard s s
  | tail {t u : σ} {a : α} : Reaches step guard s t → guard t a → step t a = .next u →
      Reaches step guard s u

theorem Reaches.invariant {step : σ → α → Outcome σ} {guard : σ → α → Prop} {inv : σ → Prop}
    (preserved : ∀ s a t, inv s → guard s a → step s a = .next t → inv t)
    {s t : σ} (start : inv s) (path : Reaches step guard s t) : inv t := by
  induction path with
  | refl => exact start
  | tail _ met taken ih => exact preserved _ _ _ ih met taken

theorem Reaches.mono {step : σ → α → Outcome σ} {guard weaker : σ → α → Prop}
    (le : ∀ s a, guard s a → weaker s a) {s t : σ} (path : Reaches step guard s t) :
    Reaches step weaker s t := by
  induction path with
  | refl => exact .refl
  | tail _ met taken ih => exact ih.tail (le _ _ met) taken

theorem Reaches.trans {step : σ → α → Outcome σ} {guard : σ → α → Prop} {s t u : σ}
    (first : Reaches step guard s t) (later : Reaches step guard t u) : Reaches step guard s u := by
  induction later with
  | refl => exact first
  | tail _ met taken ih => exact ih.tail met taken

/-- Where another machine follows every step with steps of its own, some or none, it follows every
run. -/
theorem Reaches.followed {τ β : Type} {step : σ → α → Outcome σ} {guard : σ → α → Prop}
    {step' : τ → β → Outcome τ} {guard' : τ → β → Prop} {related : σ → τ → Prop}
    (follows : ∀ s a s' t, related s t → guard s a → step s a = .next s' →
      ∃ t', Reaches step' guard' t t' ∧ related s' t')
    {s s' : σ} {t : τ} (start : related s t) (path : Reaches step guard s s') :
    ∃ t', Reaches step' guard' t t' ∧ related s' t' := by
  induction path with
  | refl => exact ⟨t, .refl, start⟩
  | tail _ met taken ih =>
    obtain ⟨t', path, alike⟩ := ih
    obtain ⟨t'', more, alike⟩ := follows _ _ _ _ alike met taken
    exact ⟨t'', path.trans more, alike⟩

-- What an observer who sees a state and the action taken in it notes down in the course of a run.
def observed {ε : Type} (step : σ → α → Outcome σ) (observe : σ → α → List ε) : σ → List α → List ε
  | _, [] => []
  | s, a :: rest =>
    match step s a with
    | .next t => observe s a ++ observed step observe t rest
    | _ => []

theorem observed_invariant {ε : Type} {step : σ → α → Outcome σ} {observe : σ → α → List ε}
    {motive : σ → List ε → Prop}
    (each : ∀ s a t noted, motive s noted → step s a = .next t → motive t (noted ++ observe s a))
    (actions : List α) {s t : σ} (start : motive s []) (ran : run step s actions = some t) :
    motive t (observed step observe s actions) := by
  have extend : ∀ actions u noted, motive u noted → run step u actions = some t →
      motive t (noted ++ observed step observe u actions) := by
    intro actions
    induction actions with
    | nil =>
      intro u noted holds ran
      cases ran
      rw [observed, List.append_nil]
      exact holds
    | cons a rest ih =>
      intro u noted holds ran
      simp only [run] at ran
      split at ran
      next v taken =>
        simp only [observed, taken]
        rw [← List.append_assoc]
        exact ih v _ (each u a v noted holds taken) ran
      next => contradiction
  exact extend actions s [] start ran

-- The invariant may speak of the actions that are left.
theorem foldlM_invariant {step : σ → α → Option σ} {motive : List α → σ → Prop}
    (each : ∀ a rest s t, motive (a :: rest) s → step s a = some t → motive rest t)
    (actions : List α) {s t : σ} (start : motive actions s)
    (ran : actions.foldlM step s = some t) : motive [] t := by
  induction actions generalizing s with
  | nil =>
    cases ran
    exact start
  | cons a rest ih =>
    simp only [List.foldlM_cons, Option.bind_eq_bind, Option.bind_eq_some_iff] at ran
    obtain ⟨u, first, ran⟩ := ran
    exact ih (each a rest s u start first) ran

-- What relates a state to the next relates it to the last.
theorem foldlM_related {step : σ → α → Option σ} {related : σ → σ → Prop}
    (refl : ∀ s, related s s) (trans : ∀ {s t u : σ}, related s t → related t u → related s u)
    (each : ∀ s a t, step s a = some t → related s t) (actions : List α) {s t : σ}
    (ran : actions.foldlM step s = some t) : related s t :=
  foldlM_invariant (motive := fun _ u => related s u)
    (fun a _ u v before taken => trans before (each u a v taken)) actions (refl s) ran

/-- A condition that every action of a run meets in the state it is taken in. The run ends with its
first action that cannot happen or is undefined. -/
def Along (step : σ → α → Outcome σ) (p : σ → α → Prop) : σ → List α → Prop
  | _, [] => True
  | s, a :: rest =>
    p s a ∧ match step s a with
      | .next t => Along step p t rest
      | _ => True

instance decidableAlong (step : σ → α → Outcome σ) (p : σ → α → Prop) [∀ s a, Decidable (p s a)] :
    ∀ s actions, Decidable (Along step p s actions)
  | _, [] => .isTrue trivial
  | s, a :: rest =>
    have _later : Decidable (match step s a with
        | .next t => Along step p t rest
        | _ => True) :=
      match step s a with
      | .next t => decidableAlong step p t rest
      | .undefined | .disabled => .isTrue trivial
    inferInstanceAs (Decidable (p s a ∧ _))

def After (step : σ → α → Outcome σ) (p : σ → Prop) (s : σ) (a : α) : Prop :=
  ∀ t, step s a = .next t → p t

instance decidableAfter (step : σ → α → Outcome σ) (p : σ → Prop) [DecidablePred p] (s : σ) (a : α) :
    Decidable (After step p s a) :=
  match taken : step s a with
  | .next t => decidable_of_iff (p t)
      ⟨fun holds u next => Outcome.next.inj (taken.symm.trans next) ▸ holds, fun all => all t taken⟩
  | .undefined => .isTrue fun _ next => by cases taken.symm.trans next
  | .disabled => .isTrue fun _ next => by cases taken.symm.trans next

theorem reaches_of_along {step : σ → α → Outcome σ} {guard : σ → α → Prop} {s t : σ}
    {actions : List α} (along : Along step guard s actions) (ran : run step s actions = some t) :
    Reaches step guard s t := by
  have extend : ∀ actions u, Reaches step guard s u → Along step guard u actions →
      run step u actions = some t → Reaches step guard s t := by
    intro actions
    induction actions with
    | nil =>
      intro u path _ ran
      cases ran
      exact path
    | cons a rest ih =>
      intro u path along ran
      simp only [run] at ran
      split at ran
      next v taken =>
        simp only [Along, taken] at along
        exact ih v (path.tail along.1 taken) along.2 ran
      next => contradiction
  exact extend actions s .refl along ran

theorem along_of_forall {step : σ → α → Outcome σ} {p : σ → α → Prop} (all : ∀ s a, p s a)
    (actions : List α) (s : σ) : Along step p s actions := by
  induction actions generalizing s with
  | nil => trivial
  | cons a rest ih =>
    refine ⟨all s a, ?_⟩
    split
    next t _ => exact ih t
    next => trivial

theorem reaches_of_run {step : σ → α → Outcome σ} {s t : σ} {actions : List α}
    (ran : run step s actions = some t) : Reaches step (fun _ _ => True) s t :=
  reaches_of_along (along_of_forall (fun _ _ => trivial) actions s) ran

-- Two conditions that agree while one of them has held so far hold along the same runs.
theorem along_iff {step : σ → α → Outcome σ} {p q : σ → α → Prop} {inv : σ → Prop}
    (agree : ∀ s a, inv s → (p s a ↔ q s a))
    (preserved : ∀ s a t, inv s → q s a → step s a = .next t → inv t)
    {s : σ} (start : inv s) (actions : List α) :
    Along step p s actions ↔ Along step q s actions := by
  induction actions generalizing s with
  | nil => rfl
  | cons a rest ih =>
    simp only [Along]
    constructor
    · rintro ⟨here, later⟩
      have holds := (agree s a start).mp here
      refine ⟨holds, ?_⟩
      split
      next t taken =>
        rw [taken] at later
        exact (ih (preserved s a t start holds taken)).mp later
      next => trivial
    · rintro ⟨holds, later⟩
      refine ⟨(agree s a start).mpr holds, ?_⟩
      split
      next t taken =>
        rw [taken] at later
        exact (ih (preserved s a t start holds taken)).mpr later
      next => trivial

end Machine
