import Mathlib.Data.List.Basic

/-!
Runs of a deterministic transition function. A condition on the state before a
step and on the step's action is carried along a run by `Meets`; an invariant
that every such step preserves then holds in the last state of the run. The
second part is the same for steps that may have no result. The third part is
about traces of events of which each is judged by a summary of those before it.
-/

namespace Mgw.TransitionRuns

variable {State Action : Type*} (next : State → Action → State)

def run (state : State) (actions : List Action) : State := actions.foldl next state

/-- Every step of the run satisfies the condition in the state it starts from. -/
def Meets (condition : State → Action → Prop) : State → List Action → Prop
  | _, [] => True
  | state, action :: actions =>
      condition state action ∧ Meets condition (next state action) actions

variable {next}

@[simp] theorem run_nil (state : State) : run next state [] = state := rfl

@[simp] theorem run_cons (state : State) (action : Action) (actions : List Action) :
    run next state (action :: actions) = run next (next state action) actions := rfl

theorem run_append (state : State) (left right : List Action) :
    run next state (left ++ right) = run next (run next state left) right := by
  simp only [run, List.foldl_append]

theorem meets_of_forall {condition : State → Action → Prop}
    (always : ∀ state action, condition state action) (actions : List Action) (state : State) :
    Meets next condition state actions := by
  induction actions generalizing state with
  | nil => trivial
  | cons action actions ih => exact ⟨always state action, ih (next state action)⟩

/-- A condition on the actions alone. -/
theorem meets_of_mem {condition : Action → Prop} (actions : List Action)
    (each : ∀ action ∈ actions, condition action) (state : State) :
    Meets next (fun _ action => condition action) state actions := by
  induction actions generalizing state with
  | nil => trivial
  | cons action actions ih =>
      constructor
      · exact each action List.mem_cons_self
      · apply ih
        intro other member
        exact each other (List.mem_cons_of_mem _ member)

theorem meets_append {condition : State → Action → Prop} (left right : List Action)
    (state : State) :
    Meets next condition state (left ++ right) ↔
      Meets next condition state left ∧ Meets next condition (run next state left) right := by
  induction left generalizing state with
  | nil => simp only [List.nil_append, Meets, true_and, run_nil]
  | cons action left ih =>
      rw [List.cons_append, Meets, Meets, ih, run_cons, and_assoc]

theorem meets_and {left right : State → Action → Prop} {actions : List Action} {state : State}
    (meetsLeft : Meets next left state actions) (meetsRight : Meets next right state actions) :
    Meets next (fun state action => left state action ∧ right state action) state actions := by
  induction actions generalizing state with
  | nil => trivial
  | cons action actions ih =>
      exact ⟨⟨meetsLeft.1, meetsRight.1⟩, ih meetsLeft.2 meetsRight.2⟩

theorem run_invariant {invariant : State → Prop} {condition : State → Action → Prop}
    (step : ∀ state action, invariant state → condition state action →
      invariant (next state action))
    (actions : List Action) (state : State) (start : invariant state)
    (meets : Meets next condition state actions) : invariant (run next state actions) := by
  induction actions generalizing state with
  | nil => exact start
  | cons action actions ih =>
      exact ih (next state action) (step state action start meets.1) meets.2

instance meets_decidable (condition : State → Action → Prop)
    [∀ state action, Decidable (condition state action)] :
    ∀ (state : State) (actions : List Action), Decidable (Meets next condition state actions)
  | _, [] => inferInstanceAs (Decidable True)
  | state, action :: actions =>
      have := meets_decidable condition (next state action) actions
      inferInstanceAs (Decidable (condition state action ∧
        Meets next condition (next state action) actions))

section Partial

variable (step : State → Action → Option State)

def tryRun : State → List Action → Option State
  | state, [] => some state
  | state, action :: actions => (step state action).bind fun after => tryRun after actions

/-- Every step of the run, as far as it goes, satisfies the condition in the
state it starts from. -/
def TryMeets (condition : State → Action → Prop) : State → List Action → Prop
  | _, [] => True
  | state, action :: actions =>
      condition state action ∧
        ∀ after ∈ step state action, TryMeets condition after actions

variable {step}

theorem try_run_cons {state after : State} {action : Action}
    (result : step state action = some after) (actions : List Action) :
    tryRun step state (action :: actions) = tryRun step after actions := by
  rw [tryRun, result, Option.bind_some]

/-- Steps that have a result and keep the invariant make up a whole run. -/
theorem try_run_invariant {invariant : State → Prop} {condition : State → Action → Prop}
    (preserves : ∀ state action, invariant state → condition state action →
      ∃ after, step state action = some after ∧ invariant after)
    (actions : List Action) (state : State) (start : invariant state)
    (meets : TryMeets step condition state actions) :
    ∃ final, tryRun step state actions = some final ∧ invariant final := by
  induction actions generalizing state with
  | nil => exact ⟨state, rfl, start⟩
  | cons action actions ih =>
      obtain ⟨after, result, kept⟩ := preserves state action start meets.1
      obtain ⟨final, rest, holds⟩ := ih after kept (meets.2 after result)
      exact ⟨final, (try_run_cons result actions).trans rest, holds⟩

theorem try_meets_of_forall {condition : State → Action → Prop}
    (always : ∀ state action, condition state action) (actions : List Action) (state : State) :
    TryMeets step condition state actions := by
  induction actions generalizing state with
  | nil => trivial
  | cons action actions ih => exact ⟨always state action, fun after _ => ih after⟩

/-- Where a step may have no result, an invariant holds in every state that is reached. -/
theorem try_run_reached {invariant : State → Prop} {condition : State → Action → Prop}
    (preserves : ∀ state action after, invariant state → condition state action →
      step state action = some after → invariant after)
    (actions : List Action) (state final : State) (start : invariant state)
    (meets : TryMeets step condition state actions)
    (reached : tryRun step state actions = some final) : invariant final := by
  induction actions generalizing state with
  | nil =>
      rw [← Option.some.inj reached]
      exact start
  | cons action actions ih =>
      obtain ⟨after, result, rest⟩ := Option.bind_eq_some_iff.mp reached
      exact ih after (preserves state action after start meets.1 result) (meets.2 after result) rest

theorem try_meets_append {condition : State → Action → Prop} (left right : List Action)
    (state between : State) (meets : TryMeets step condition state (left ++ right))
    (reached : tryRun step state left = some between) :
    TryMeets step condition state left ∧ TryMeets step condition between right := by
  induction left generalizing state with
  | nil =>
      rw [← Option.some.inj reached]
      exact ⟨trivial, meets⟩
  | cons action left ih =>
      obtain ⟨after, result, rest⟩ := Option.bind_eq_some_iff.mp reached
      obtain ⟨first, later⟩ := ih after (meets.2 after result) rest
      refine ⟨⟨meets.1, fun other member => ?_⟩, later⟩
      have same : after = other := Option.some.inj (result.symm.trans member)
      rw [← same]
      exact first

/-- Where a total account says which steps have a result, it says which runs have one,
and goes along with them. -/
theorem try_run_tracked {Tracked : Type*} {track : Tracked → Action → Tracked}
    {allowed : Tracked → Action → Prop} {related : Tracked → State → Prop}
    (performs : ∀ tracked state action, related tracked state → allowed tracked action →
      ∃ after, step state action = some after ∧ related (track tracked action) after)
    (refuses : ∀ tracked state action, related tracked state → ¬allowed tracked action →
      step state action = none)
    (actions : List Action) (tracked : Tracked) (state : State) (start : related tracked state) :
    (Meets track allowed tracked actions →
      ∃ final, tryRun step state actions = some final ∧ related (run track tracked actions) final) ∧
    (¬Meets track allowed tracked actions → tryRun step state actions = none) := by
  induction actions generalizing tracked state with
  | nil => exact ⟨fun _ => ⟨state, rfl, start⟩, fun refused => absurd trivial refused⟩
  | cons action actions ih =>
      by_cases holds : allowed tracked action
      · obtain ⟨after, result, kept⟩ := performs tracked state action start holds
        rw [try_run_cons result]
        obtain ⟨whole, broken⟩ := ih (track tracked action) after kept
        exact ⟨fun meets => whole meets.2, fun refused => broken fun meets => refused ⟨holds, meets⟩⟩
      · refine ⟨fun meets => absurd meets.1 holds, fun _ => ?_⟩
        rw [tryRun, refuses tracked state action start holds, Option.bind_none]

/-- Steps that a condition lets through go along with an account of the actions. -/
theorem try_run_followed {Account : Type*} {account : Account → Action → Account}
    {condition : State → Action → Prop} {related : Account → State → Prop}
    (performs : ∀ known state action, related known state → condition state action →
      ∃ after, step state action = some after ∧ related (account known action) after)
    (actions : List Action) (known : Account) (state : State) (start : related known state)
    (meets : TryMeets step condition state actions) :
    ∃ final, tryRun step state actions = some final ∧ related (run account known actions) final := by
  induction actions generalizing known state with
  | nil => exact ⟨state, rfl, start⟩
  | cons action actions ih =>
      obtain ⟨after, result, kept⟩ := performs known state action start meets.1
      obtain ⟨final, rest, holds⟩ := ih (account known action) after kept (meets.2 after result)
      exact ⟨final, (try_run_cons result actions).trans rest, holds⟩

instance try_meets_decidable (condition : State → Action → Prop)
    [∀ state action, Decidable (condition state action)] :
    ∀ (state : State) (actions : List Action), Decidable (TryMeets step condition state actions)
  | _, [] => inferInstanceAs (Decidable True)
  | state, action :: actions =>
      match result : step state action with
      | none =>
          decidable_of_iff (condition state action)
            ⟨fun holds => ⟨holds, fun after member => by simp [result] at member⟩, fun meets => meets.1⟩
      | some after =>
          have := try_meets_decidable condition after actions
          decidable_of_iff (condition state action ∧ TryMeets step condition after actions)
            ⟨fun holds => ⟨holds.1, fun other member => by
                rw [result, Option.mem_some_iff] at member
                rw [← member]
                exact holds.2⟩,
              fun meets => ⟨meets.1, meets.2 after result⟩⟩

end Partial

section Traces

variable {Event Summary : Type*} (count : Summary → Event → Summary) (start : Summary)

def summary (trace : List Event) : Summary := trace.foldl count start

/-- Each event of the trace is allowed after the summary of those before it. -/
def EachAllowed (allowed : Summary → Event → Prop) (trace : List Event) : Prop :=
  ∀ before event after, trace = before ++ event :: after → allowed (summary count start before) event

variable {count start} {allowed : Summary → Event → Prop} {trace : List Event}

theorem summary_append (event : Event) :
    summary count start (trace ++ [event]) = count (summary count start trace) event := by
  rw [summary, List.foldl_append]
  rfl

theorem each_allowed_nil : EachAllowed count start allowed [] := by
  intro before event after impossible
  simp at impossible

theorem each_allowed_append {event : Event} (each : EachAllowed count start allowed trace)
    (last : allowed (summary count start trace) event) :
    EachAllowed count start allowed (trace ++ [event]) := by
  intro before other after parts
  rcases List.eq_nil_or_concat after with none | ⟨earlier, final, more⟩
  · rw [none] at parts
    obtain ⟨same, sameEvent⟩ := List.append_inj' parts rfl
    rw [← same, ← List.head_eq_of_cons_eq sameEvent]
    exact last
  · rw [more, List.concat_eq_append, ← List.cons_append, ← List.append_assoc] at parts
    exact each before other earlier (List.append_inj' parts rfl).1

end Traces

end Mgw.TransitionRuns
