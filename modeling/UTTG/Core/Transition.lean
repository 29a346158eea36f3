import Mathlib

/-!
# Transition systems with guarded steps

A system is a set of initial states and a partial step function: an action
that is not enabled in a state has no successor.  The step function is the
single place where guards are written, so a concrete run can be replayed by
evaluation and an invariant can be proved by induction over the same guards.
Runs may be restricted to steps that meet a side condition, which is how a
result about all runs "whose steps all ..." is stated.
-/

namespace UTTG.Transition

/-- Initial states and a partial step function. -/
structure System (State Action : Type*) where
  Init : State → Prop
  step : State → Action → Option State

namespace System

variable {State Action : Type*} (sys : System State Action)

/-- States reached by runs whose every step meets `Allowed`. -/
inductive ReachableVia (Allowed : State → Action → State → Prop) :
    State → Prop
  | init {state : State} (hinit : sys.Init state) :
      ReachableVia Allowed state
  | step {state next : State} {action : Action}
      (hreach : ReachableVia Allowed state)
      (hstep : sys.step state action = some next)
      (hallowed : Allowed state action next) :
      ReachableVia Allowed next

/-- States reached by any run. -/
abbrev Reachable : State → Prop :=
  sys.ReachableVia fun _ _ _ => True

variable {sys}

/-- A property that holds initially and that every allowed step preserves
holds in every state reached by allowed steps. -/
theorem ReachableVia.invariant
    {Allowed : State → Action → State → Prop} (Inv : State → Prop)
    (hinit : ∀ state, sys.Init state → Inv state)
    (hpreserve : ∀ state action next, Inv state →
      sys.step state action = some next → Allowed state action next →
        Inv next)
    {state : State} (hreach : sys.ReachableVia Allowed state) : Inv state := by
  induction hreach with
  | init hstart => exact hinit _ hstart
  | step _ hstep hallowed ih => exact hpreserve _ _ _ ih hstep hallowed

/-- The invariant rule for unrestricted runs. -/
theorem Reachable.invariant (Inv : State → Prop)
    (hinit : ∀ state, sys.Init state → Inv state)
    (hpreserve : ∀ state action next, Inv state →
      sys.step state action = some next → Inv next)
    {state : State} (hreach : sys.Reachable state) : Inv state :=
  ReachableVia.invariant Inv hinit
    (fun state action next hinv hstep _ =>
      hpreserve state action next hinv hstep) hreach

/-- Restricting the steps restricts the reachable states. -/
theorem ReachableVia.reachable
    {Allowed : State → Action → State → Prop} {state : State}
    (hreach : sys.ReachableVia Allowed state) : sys.Reachable state := by
  induction hreach with
  | init hinit => exact .init hinit
  | step _ hstep _ ih => exact .step ih hstep trivial

variable (sys)

/-- Replay a list of actions; `none` when one of them is not enabled. -/
def run : State → List Action → Option State
  | state, [] => some state
  | state, action :: rest =>
      (sys.step state action).bind fun next => run next rest

/-- Every state of the run from `state` along `actions` satisfies `P`. -/
def States (P : State → Prop) : State → List Action → Prop
  | state, [] => P state
  | state, action :: rest =>
      P state ∧ ∀ next, sys.step state action = some next →
        States P next rest

/-- Every step of the run from `state` along `actions` satisfies `P`. -/
def Steps (P : State → Action → State → Prop) : State → List Action → Prop
  | _, [] => True
  | state, action :: rest =>
      ∀ next, sys.step state action = some next →
        P state action next ∧ Steps P next rest

instance decidableSteps (P : State → Action → State → Prop)
    [∀ state action next, Decidable (P state action next)] :
    (state : State) → (actions : List Action) →
      Decidable (sys.Steps P state actions)
  | _, [] => isTrue trivial
  | state, action :: rest =>
      match hstep : sys.step state action with
      | none => isTrue fun next hnext => by simp [hstep] at hnext
      | some reached =>
          have := decidableSteps P reached rest
          if hboth : P state action reached ∧ sys.Steps P reached rest then
            isTrue fun next hnext => by
              obtain rfl : reached = next := by simpa [hstep] using hnext
              exact hboth
          else isFalse fun hall => hboth (hall reached hstep)

variable {sys}

theorem States.head {P : State → Prop} {state : State}
    {actions : List Action} (hstates : sys.States P state actions) :
    P state := by
  cases actions with
  | nil => exact hstates
  | cons action rest => exact hstates.1

/-- The end of a run whose steps are allowed is reachable by allowed steps. -/
theorem ReachableVia.run {Allowed : State → Action → State → Prop}
    {state final : State} {actions : List Action}
    (hreach : sys.ReachableVia Allowed state)
    (hsteps : sys.Steps Allowed state actions)
    (hrun : sys.run state actions = some final) :
    sys.ReachableVia Allowed final := by
  induction actions generalizing state with
  | nil =>
      obtain rfl : state = final := by simpa [System.run] using hrun
      exact hreach
  | cons action rest ih =>
      obtain ⟨next, hstep, hrest⟩ := Option.bind_eq_some_iff.mp hrun
      obtain ⟨hallowed, htail⟩ := hsteps next hstep
      exact ih (.step hreach hstep hallowed) htail hrest

theorem steps_true (state : State) (actions : List Action) :
    sys.Steps (fun _ _ _ => True) state actions := by
  induction actions generalizing state with
  | nil => trivial
  | cons action rest ih => exact fun next _ => ⟨trivial, ih next⟩

/-- The end of a run from an initial state is reachable. -/
theorem reachable_of_run {state final : State} {actions : List Action}
    (hinit : sys.Init state) (hrun : sys.run state actions = some final) :
    sys.Reachable final :=
  ReachableVia.run (.init hinit) (steps_true state actions) hrun

/-- Steps that are allowed have every property that an invariant of the
allowed steps gives an allowed step. -/
theorem Steps.of_invariant {Allowed P : State → Action → State → Prop}
    (Inv : State → Prop)
    (hpreserve : ∀ state action next, Inv state →
      sys.step state action = some next → Allowed state action next →
        Inv next)
    (hmeets : ∀ state action next, Inv state →
      sys.step state action = some next → Allowed state action next →
        P state action next)
    {state : State} {actions : List Action} (hstart : Inv state)
    (hsteps : sys.Steps Allowed state actions) :
    sys.Steps P state actions := by
  induction actions generalizing state with
  | nil => trivial
  | cons action rest ih =>
      intro next hstep
      obtain ⟨hallowed, htail⟩ := hsteps next hstep
      exact ⟨hmeets state action next hstart hstep hallowed,
        ih (hpreserve state action next hstart hstep hallowed) htail⟩

/-- An invariant of the allowed steps holds in every state of a run that takes
only these. -/
theorem States.of_invariant {Allowed : State → Action → State → Prop}
    {P : State → Prop} (Inv : State → Prop)
    (hholds : ∀ state, Inv state → P state)
    (hpreserve : ∀ state action next, Inv state →
      sys.step state action = some next → Allowed state action next →
        Inv next)
    {state : State} {actions : List Action} (hstart : Inv state)
    (hsteps : sys.Steps Allowed state actions) :
    sys.States P state actions := by
  induction actions generalizing state with
  | nil => exact hholds state hstart
  | cons action rest ih =>
      refine ⟨hholds state hstart, fun next hstep => ?_⟩
      obtain ⟨hallowed, htail⟩ := hsteps next hstep
      exact ih (hpreserve state action next hstart hstep hallowed) htail

/-- What every step of a run meets is met by the step that a part of it
leads to. -/
theorem Steps.of_run {P : State → Action → State → Prop}
    {state before after : State} {actions rest : List Action} {action : Action}
    (hsteps : sys.Steps P state (actions ++ action :: rest))
    (hrun : sys.run state actions = some before)
    (hstep : sys.step before action = some after) : P before action after := by
  induction actions generalizing state with
  | nil =>
      obtain rfl : state = before := by simpa [System.run] using hrun
      exact (hsteps after hstep).1
  | cons first others ih =>
      obtain ⟨next, hfirst, hothers⟩ := Option.bind_eq_some_iff.mp hrun
      exact ih (hsteps next hfirst).2 hothers

/-- Two step conditions that agree wherever an invariant holds, and under
which the invariant is preserved, select the same runs. -/
theorem steps_iff_of_invariant (Inv : State → Prop)
    {left right : State → Action → State → Prop}
    (hpreserve : ∀ state action next, Inv state →
      sys.step state action = some next → right state action next → Inv next)
    (hiff : ∀ state action next, Inv state →
      sys.step state action = some next →
        (left state action next ↔ right state action next))
    {state : State} {actions : List Action} (hstart : Inv state) :
    sys.Steps left state actions ↔ sys.Steps right state actions := by
  induction actions generalizing state with
  | nil => exact Iff.rfl
  | cons action rest ih =>
      constructor <;> intro hsteps next hstep
      · obtain ⟨hleft, htail⟩ := hsteps next hstep
        have hright := (hiff state action next hstart hstep).mp hleft
        exact ⟨hright,
          (ih (hpreserve state action next hstart hstep hright)).mp htail⟩
      · obtain ⟨hright, htail⟩ := hsteps next hstep
        exact ⟨(hiff state action next hstart hstep).mpr hright,
          (ih (hpreserve state action next hstart hstep hright)).mpr htail⟩

/-- A property holds in every state of a run exactly when each step meets a
condition, if a stronger one is kept under the condition and the property is
lost without it. -/
theorem states_iff_steps_of_stronger (Strong P : State → Prop)
    {Meets : State → Action → State → Prop}
    (hholds : ∀ state, Strong state → P state)
    (hkeeps : ∀ state action next, Strong state →
      sys.step state action = some next → Meets state action next →
        Strong next)
    (hbreaks : ∀ state action next, Strong state →
      sys.step state action = some next → P next → Meets state action next)
    {state : State} {actions : List Action} (hstart : Strong state) :
    sys.States P state actions ↔ sys.Steps Meets state actions := by
  induction actions generalizing state with
  | nil => exact iff_of_true (hholds state hstart) trivial
  | cons action rest ih =>
      constructor
      · intro hstates next hstep
        have htail := hstates.2 next hstep
        have hmeets := hbreaks state action next hstart hstep htail.head
        have hnext := hkeeps state action next hstart hstep hmeets
        exact ⟨hmeets, (ih hnext).mp htail⟩
      · intro hsteps
        refine ⟨hholds state hstart, fun next hstep => ?_⟩
        obtain ⟨hmeets, htail⟩ := hsteps next hstep
        exact (ih (hkeeps state action next hstart hstep hmeets)).mpr htail

/-- A property holds in every state of a run exactly when each step meets
the condition under which it is preserved. -/
theorem states_iff_steps (Inv P : State → Prop)
    {Meets : State → Action → State → Prop}
    (hpreserve : ∀ state action next, Inv state →
      sys.step state action = some next → Inv next)
    (hiff : ∀ state action next, Inv state → P state →
      sys.step state action = some next → (P next ↔ Meets state action next))
    {state : State} {actions : List Action} (hinv : Inv state)
    (hstart : P state) :
    sys.States P state actions ↔ sys.Steps Meets state actions := by
  apply states_iff_steps_of_stronger (fun state => Inv state ∧ P state) P
  · exact fun _ hboth => hboth.2
  · exact fun state action next hboth hstep hmeets =>
      ⟨hpreserve state action next hboth.1 hstep,
        (hiff state action next hboth.1 hboth.2 hstep).mpr hmeets⟩
  · exact fun state action next hboth hstep hnext =>
      (hiff state action next hboth.1 hboth.2 hstep).mp hnext
  · exact ⟨hinv, hstart⟩

theorem run_append (state : State) (first second : List Action) :
    sys.run state (first ++ second) =
      (sys.run state first).bind fun middle => sys.run middle second := by
  induction first generalizing state with
  | nil => rfl
  | cons action rest ih =>
      simp only [List.cons_append, run, Option.bind_assoc]
      exact congrArg _ (funext fun next => ih next)

theorem run_singleton (state : State) (action : Action) :
    sys.run state [action] = sys.step state action := by
  simp [run]

theorem Steps.concat {P : State → Action → State → Prop}
    {state last next : State} {actions : List Action} {action : Action}
    (hsteps : sys.Steps P state actions)
    (hrun : sys.run state actions = some last)
    (hstep : sys.step last action = some next) (hlast : P last action next) :
    sys.Steps P state (actions ++ [action]) := by
  induction actions generalizing state with
  | nil =>
      obtain rfl : state = last := by simpa [run] using hrun
      intro other hother
      obtain rfl : other = next := Option.some.inj (hother.symm.trans hstep)
      exact ⟨hlast, trivial⟩
  | cons first rest ih =>
      intro other hother
      obtain ⟨hfirst, hrest⟩ := hsteps other hother
      rw [run, hother, Option.bind_some] at hrun
      exact ⟨hfirst, ih hrest hrun⟩

/-- A property of a state and the actions that led to it holds at the end of a
run when it holds at its start and the last action keeps it. -/
theorem run_induction {start : State} (Inv : List Action → State → Prop)
    (hnil : Inv [] start)
    (hconcat : ∀ actions action state next, Inv actions state →
      sys.run start actions = some state →
        sys.step state action = some next → Inv (actions ++ [action]) next)
    {actions : List Action} {final : State}
    (hrun : sys.run start actions = some final) : Inv actions final := by
  induction actions using List.reverseRecOn generalizing final with
  | nil =>
      obtain rfl : start = final := by simpa [run] using hrun
      exact hnil
  | append_singleton actions action ih =>
      rw [run_append] at hrun
      obtain ⟨state, hbefore, hlast⟩ := Option.bind_eq_some_iff.mp hrun
      rw [run_singleton] at hlast
      exact hconcat actions action state final (ih hbefore) hbefore hlast

/-- A run is matched by one of another system, in which the images of its
actions are taken and the actions without an image are silent. -/
theorem run_filterMap {Other Image : Type*} {other : System Other Image}
    {Related : State → Other → Prop} {image : Action → Option Image}
    (hmatched : ∀ left right action matching next,
      image action = some matching → Related left right →
        sys.step left action = some next →
          ∃ reached, other.step right matching = some reached ∧
            Related next reached)
    (hsilent : ∀ left right action next, image action = none →
      Related left right → sys.step left action = some next →
        Related next right)
    {left final : State} {right : Other} {actions : List Action}
    (hrelated : Related left right)
    (hrun : sys.run left actions = some final) :
    ∃ reached, other.run right (actions.filterMap image) = some reached ∧
      Related final reached := by
  induction actions generalizing left right with
  | nil =>
      obtain rfl : left = final := by simpa [run] using hrun
      exact ⟨right, rfl, hrelated⟩
  | cons action rest ih =>
      obtain ⟨next, hstep, hrest⟩ := Option.bind_eq_some_iff.mp hrun
      cases himage : image action with
      | none =>
          rw [List.filterMap_cons_none himage]
          exact ih (hsilent left right action next himage hrelated hstep) hrest
      | some matching =>
          obtain ⟨middle, hmiddle, hnext⟩ :=
            hmatched left right action matching next himage hrelated hstep
          obtain ⟨reached, hreached, hfinal⟩ := ih hnext hrest
          refine ⟨reached, ?_, hfinal⟩
          rw [List.filterMap_cons_some himage, run, hmiddle]
          exact hreached

/-- A run goes on with some of its actions left out, from a state that is
related to its own, when the actions that stay are matched and the others
leave the relation as it is. -/
theorem run_filter {Related : State → State → Prop} {keep : Action → Bool}
    (hkeep : ∀ left right action next, keep action = true →
      Related left right → sys.step left action = some next →
        ∃ other, sys.step right action = some other ∧ Related next other)
    (hdrop : ∀ left right action next, keep action = false →
      Related left right → sys.step left action = some next →
        Related next right)
    {left right final : State} {actions : List Action}
    (hrelated : Related left right)
    (hrun : sys.run left actions = some final) :
    ∃ alone, sys.run right (actions.filter keep) = some alone ∧
      Related final alone := by
  rw [← List.filterMap_eq_filter]
  refine run_filterMap (fun left right action matching next himage => ?_)
    (fun left right action next himage => ?_) hrelated hrun
  · obtain ⟨rfl, haction⟩ := Option.guard_eq_some_iff.mp himage
    exact hkeep left right action next haction
  · exact hdrop left right action next (by simpa using himage)

variable (sys) in
/-- Some state of the run from `start` along `actions` satisfies `P`. -/
def Visits (P : State → Prop) (start : State) (actions : List Action) : Prop :=
  ∃ first state, first <+: actions ∧ sys.run start first = some state ∧ P state

theorem visits_of_run {P : State → Prop} {start state : State}
    {actions : List Action} (hrun : sys.run start actions = some state)
    (hstate : P state) : sys.Visits P start actions :=
  ⟨actions, state, List.prefix_rfl, hrun, hstate⟩

theorem Visits.append {P : State → Prop} {start : State}
    {actions : List Action} (hvisits : sys.Visits P start actions)
    (rest : List Action) : sys.Visits P start (actions ++ rest) := by
  obtain ⟨first, state, hprefix, hrun, hstate⟩ := hvisits
  exact ⟨first, state, hprefix.trans (List.prefix_append _ _), hrun, hstate⟩

/-! ## History variables -/

section Observe

variable {History : Type*} (start : History)
  (record : State → Action → History → History)

/-- The system with a variable that no step depends on; `record` tells what a
step from a state adds to it. -/
def observe (sys : System State Action) :
    System (State × History) Action where
  Init observed := sys.Init observed.1 ∧ observed.2 = start
  step observed action := (sys.step observed.1 action).map fun next =>
    (next, record observed.1 action observed.2)

variable {start record}

theorem step_observe {state next : State} {history later : History}
    {action : Action}
    (hstep : (sys.observe start record).step (state, history) action =
      some (next, later)) :
    sys.step state action = some next ∧ later = record state action history := by
  obtain ⟨reached, hreached, hpair⟩ := Option.map_eq_some_iff.mp hstep
  obtain ⟨rfl, rfl⟩ := Prod.mk.inj hpair
  exact ⟨hreached, rfl⟩

end Observe

end System

/-! ## Small systems -/

/-! The numbers of parties in the sample runs, named once so that every module
finds the same instances. -/

instance neZeroTwo : NeZero (2 : ℕ) := ⟨by decide⟩

instance neZeroThree : NeZero (3 : ℕ) := ⟨by decide⟩

instance neZeroSix : NeZero (6 : ℕ) := ⟨by decide⟩

instance neZeroThirtyTwo : NeZero (32 : ℕ) := ⟨by decide⟩

end UTTG.Transition
