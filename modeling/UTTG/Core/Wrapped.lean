import Mathlib

/-!
# Programs that receive through a wrapper

A program sends and receives messages one after another.  A wrapper hands it a
receive function that may raise; the program lets the exception through, and
the wrapper then sends messages of its own.  A program that is handed the plain
receive function waits for ever where no message is left.

As long as the wrapper raises nothing the program cannot tell the two apart.
So a wrapped call follows the plain call on the messages that the wrapper lets
through, up to the point where the plain call waits for another one.
-/

namespace UTTG.Wrapped

/-- What a program does next. -/
inductive Command (State In Out : Type*) where
  | returns
  | raises
  | send (message : Out) (next : State)
  | receive (next : In → State)

abbrev Program (State In Out : Type*) := State → Command State In Out

/-- A receive function with a memory, `none` where it raises, and what is sent
after it raised. -/
structure Wrapper (Memory In Out : Type*) where
  receive : Memory → In → Option Memory
  handler : List Out

/-- The receive function that raises nothing. -/
def Wrapper.plain (Memory In Out : Type*) : Wrapper Memory In Out where
  receive memory _ := some memory
  handler := []

/-- Where a call stands: in the program, or in what follows an exception of the
receive function, with the messages still to be sent. -/
inductive Phase (State Out : Type*) where
  | running (state : State)
  | handling (pending : List Out)
  | returned
  | raised

/-- A call with the messages still to come.  As observed histories it has the
messages that the program received, those that it sent, and all that were
sent. -/
structure Call (State Memory In Out : Type*) where
  phase : Phase State Out
  memory : Memory
  incoming : List In
  received : List In
  own : List Out
  sent : List Out

namespace Call

variable {State Memory In Out : Type*}

/-- A call about to enter a phase. -/
def start (phase : Phase State Out) (memory : Memory) (incoming : List In) :
    Call State Memory In Out :=
  ⟨phase, memory, incoming, [], [], []⟩

/-- The next step, which is none for a call that has ended or that waits. -/
def step (wrapper : Wrapper Memory In Out) (program : Program State In Out)
    (call : Call State Memory In Out) : Call State Memory In Out :=
  match call.phase with
  | .running state =>
      match program state with
      | .returns => { call with phase := .returned }
      | .raises => { call with phase := .raised }
      | .send message next =>
          { call with
            phase := .running next
            own := call.own ++ [message]
            sent := call.sent ++ [message] }
      | .receive next =>
          match call.incoming with
          | [] => call
          | message :: rest =>
              match wrapper.receive call.memory message with
              | none =>
                  { call with
                    phase := .handling wrapper.handler
                    incoming := rest }
              | some memory =>
                  { call with
                    phase := .running (next message)
                    memory := memory
                    incoming := rest
                    received := call.received ++ [message] }
  | .handling (message :: pending) =>
      { call with
        phase := .handling pending
        sent := call.sent ++ [message] }
  | .handling [] => { call with phase := .returned }
  | .returned => call
  | .raised => call

/-- The call after a number of steps. -/
def run (wrapper : Wrapper Memory In Out) (program : Program State In Out)
    (call : Call State Memory In Out) (steps : ℕ) :
    Call State Memory In Out :=
  (step wrapper program)^[steps] call

/-- The program waits for a message when none is left. -/
def Waits (program : Program State In Out) (call : Call State Memory In Out) :
    Prop :=
  ∃ state next, call.phase = .running state ∧
    program state = .receive next ∧ call.incoming = []

end Call

section Steps

variable {State Memory In Out : Type*} {wrapper : Wrapper Memory In Out}
  {program : Program State In Out} {call : Call State Memory In Out}

theorem run_succ (steps : ℕ) :
    call.run wrapper program (steps + 1) =
      (call.run wrapper program steps).step wrapper program :=
  Function.iterate_succ_apply' _ _ _

theorem run_add (first second : ℕ) :
    call.run wrapper program (first + second) =
      (call.run wrapper program first).run wrapper program second := by
  rw [Call.run, Call.run, Call.run, Nat.add_comm, Function.iterate_add_apply]

/-- A call that waits makes no step. -/
theorem Call.Waits.step_eq (hwaits : call.Waits program) :
    call.step wrapper program = call := by
  obtain ⟨state, next, hphase, hprogram, hincoming⟩ := hwaits
  simp only [Call.step, hphase, hprogram, hincoming]

end Steps

section Handling

variable {State Memory In Out : Type*} {wrapper : Wrapper Memory In Out}
  {program : Program State In Out} {call : Call State Memory In Out}
  {base handler : List Out}

/-- The call has left the program and has sent some messages of the handler
after those of `base`. -/
def Call.Handles (base handler : List Out) (call : Call State Memory In Out) :
    Prop :=
  ∃ finished pending, handler = finished ++ pending ∧
    call.sent = base ++ finished ∧
      (call.phase = .handling pending ∨
        call.phase = .returned ∧ pending = [])

theorem Call.handles_start (memory : Memory) (incoming : List In) :
    (Call.start (.handling handler) memory incoming :
      Call State Memory In Out).Handles [] handler :=
  ⟨[], handler, rfl, rfl, .inl rfl⟩

variable (wrapper program) in
theorem Call.Handles.step (hhandles : call.Handles base handler) :
    (call.step wrapper program).Handles base handler ∧
      (call.step wrapper program).received = call.received ∧
      (call.step wrapper program).own = call.own := by
  obtain ⟨finished, pending, hhandler, hsent, hphase⟩ := hhandles
  rcases hphase with hphase | ⟨hphase, rfl⟩
  · cases pending with
    | nil =>
        simp only [Call.step, hphase, and_true]
        exact ⟨finished, [], hhandler, hsent, .inr ⟨rfl, rfl⟩⟩
    | cons message pending =>
        simp only [Call.step, hphase, and_true]
        refine ⟨finished ++ [message], pending, ?_, ?_, .inl rfl⟩
        · rw [hhandler, List.append_assoc, List.singleton_append]
        · rw [hsent, List.append_assoc]
  · simp only [Call.step, hphase, and_true]
    exact ⟨finished, [], hhandler, hsent, .inr ⟨hphase, rfl⟩⟩

variable (wrapper program) in
theorem Call.Handles.run (hhandles : call.Handles base handler) (steps : ℕ) :
    (call.run wrapper program steps).Handles base handler ∧
      (call.run wrapper program steps).received = call.received ∧
      (call.run wrapper program steps).own = call.own := by
  induction steps with
  | zero => exact ⟨hhandles, rfl, rfl⟩
  | succ steps ih =>
      obtain ⟨hrun, hreceived, hown⟩ := ih
      obtain ⟨hstep, hreceivedStep, hownStep⟩ := hrun.step wrapper program
      rw [run_succ]
      exact ⟨hstep, hreceivedStep.trans hreceived, hownStep.trans hown⟩

/-- In the end all messages of the handler are sent. -/
theorem Call.Handles.exists_sent (hhandles : call.Handles base handler) :
    ∃ steps, (call.run wrapper program steps).sent = base ++ handler := by
  obtain ⟨finished, pending, hhandler, hsent, hphase⟩ := hhandles
  induction pending generalizing call finished with
  | nil =>
      refine ⟨0, ?_⟩
      rw [hhandler, List.append_nil]
      exact hsent
  | cons message pending ih =>
      have hphase : call.phase = .handling (message :: pending) :=
        hphase.resolve_right fun hreturned => List.cons_ne_nil _ _ hreturned.2
      have hsentStep : (call.step wrapper program).sent =
          base ++ (finished ++ [message]) := by
        simp only [Call.step, hphase, hsent, List.append_assoc]
      have hphaseStep : (call.step wrapper program).phase =
          .handling pending := by
        simp only [Call.step, hphase]
      obtain ⟨steps, hsteps⟩ := ih (finished ++ [message])
        (by rw [hhandler, List.append_assoc, List.singleton_append]) hsentStep
        (.inl hphaseStep)
      exact ⟨steps + 1, hsteps⟩

end Handling

section Simulation

variable {State Memory In Out : Type*} (wrapper : Wrapper Memory In Out)
  (program : Program State In Out)

/-- A wrapped call in step with a plain one, which has fewer messages to come:
the wrapper lets those through and ends with the memory `final`. -/
structure Follows (rest : List In) (final : Memory)
    (call plain : Call State Memory In Out) : Prop where
  phase : call.phase = plain.phase
  not_handling : ∀ pending, plain.phase ≠ .handling pending
  incoming : call.incoming = plain.incoming ++ rest
  received : call.received = plain.received
  own : call.own = plain.sent
  sent : call.sent = plain.sent
  memory : plain.incoming.foldlM wrapper.receive call.memory = some final

/-- A wrapped call that met a further message and went on to the handler where
the plain one waits. -/
structure Overran (rest : List In) (call plain : Call State Memory In Out) :
    Prop where
  more : rest ≠ []
  waits : plain.Waits program
  received : call.received = plain.received
  own : call.own = plain.sent
  handled : call.Handles plain.sent wrapper.handler

variable {wrapper program} {rest : List In} {final : Memory}
  {call plain : Call State Memory In Out}

/-- Where the plain call waits, the wrapped one waits as well or meets a message
that the wrapper does not let through. -/
theorem Follows.step_of_waits
    (hrefused : ∀ message tail, rest = message :: tail →
      wrapper.receive final message = none)
    (hfollows : Follows wrapper rest final call plain)
    (hwaits : plain.Waits program) :
    call.step wrapper program = call ∧ rest = [] ∨
      Overran wrapper program rest (call.step wrapper program) plain := by
  obtain ⟨state, next, hphase, hprogram, hincoming⟩ := id hwaits
  have hcallPhase : call.phase = .running state := hfollows.phase.trans hphase
  have hcallIncoming : call.incoming = rest := by
    rw [hfollows.incoming, hincoming, List.nil_append]
  have hmemory : call.memory = final := by
    have hfold := hfollows.memory
    rw [hincoming, List.foldlM_nil] at hfold
    exact Option.some.inj hfold
  cases rest with
  | nil =>
      left
      have hcallWaits : call.Waits program :=
        ⟨state, next, hcallPhase, hprogram, hcallIncoming⟩
      exact ⟨hcallWaits.step_eq, rfl⟩
  | cons message tail =>
      right
      have hnone : wrapper.receive call.memory message = none := by
        rw [hmemory]
        exact hrefused message tail rfl
      have hstep : call.step wrapper program =
          { call with
            phase := .handling wrapper.handler
            incoming := tail } := by
        simp only [Call.step, hcallPhase, hprogram, hcallIncoming, hnone]
      rw [hstep]
      refine ⟨List.cons_ne_nil _ _, hwaits, hfollows.received, hfollows.own,
        [], wrapper.handler, rfl, ?_, .inl rfl⟩
      rw [List.append_nil]
      exact hfollows.sent

/-- A step of both calls, unless the plain one waits. -/
theorem Follows.step
    (hrefused : ∀ message tail, rest = message :: tail →
      wrapper.receive final message = none)
    (hfollows : Follows wrapper rest final call plain) :
    Follows wrapper rest final (call.step wrapper program)
        (plain.step (.plain Memory In Out) program) ∨
      Overran wrapper program rest (call.step wrapper program) plain := by
  obtain ⟨hphase, hhandling, hincoming, hreceived, hown, hsent, hmemory⟩ :=
    id hfollows
  cases hplain : plain.phase with
  | running state =>
      rw [hplain] at hphase
      cases hprogram : program state with
      | returns =>
          left
          simp only [Call.step, hplain, hphase, hprogram]
          exact ⟨rfl, nofun, hincoming, hreceived, hown, hsent, hmemory⟩
      | raises =>
          left
          simp only [Call.step, hplain, hphase, hprogram]
          exact ⟨rfl, nofun, hincoming, hreceived, hown, hsent, hmemory⟩
      | send message next =>
          left
          simp only [Call.step, hplain, hphase, hprogram]
          exact ⟨rfl, nofun, hincoming, hreceived,
            congrArg (· ++ [message]) hown, congrArg (· ++ [message]) hsent,
            hmemory⟩
      | receive next =>
          cases hleft : plain.incoming with
          | nil =>
              have hwaits : plain.Waits program :=
                ⟨state, next, hplain, hprogram, hleft⟩
              rcases hfollows.step_of_waits hrefused hwaits with
                ⟨hstays, -⟩ | hoverran
              · rw [hstays, hwaits.step_eq]
                exact .inl hfollows
              · exact .inr hoverran
          | cons message others =>
              left
              rw [hleft, List.foldlM_cons] at hmemory
              obtain ⟨memory, hreceive, hothers⟩ :=
                Option.bind_eq_some_iff.mp hmemory
              rw [hleft, List.cons_append] at hincoming
              simp only [Call.step, hplain, hphase, hprogram, hleft, hincoming,
                hreceive, Wrapper.plain]
              exact ⟨rfl, nofun, rfl, congrArg (· ++ [message]) hreceived,
                hown, hsent, hothers⟩
  | handling pending => exact absurd hplain (hhandling pending)
  | returned =>
      left
      rw [hplain] at hphase
      simp only [Call.step, hplain, hphase]
      exact hfollows
  | raised =>
      left
      rw [hplain] at hphase
      simp only [Call.step, hplain, hphase]
      exact hfollows

/-- What follows the exception leaves the messages of the program alone. -/
theorem Overran.step (hoverran : Overran wrapper program rest call plain) :
    Overran wrapper program rest (call.step wrapper program) plain := by
  obtain ⟨hhandles, hreceived, hown⟩ := hoverran.handled.step wrapper program
  exact ⟨hoverran.more, hoverran.waits, hreceived.trans hoverran.received,
    hown.trans hoverran.own, hhandles⟩

variable (program) in
/-- A wrapped call follows the plain call on the messages that the wrapper lets
through, and goes on to the handler only where that one waits. -/
theorem follows_or_overran
    (hrefused : ∀ message tail, rest = message :: tail →
      wrapper.receive final message = none)
    (hfollows : Follows wrapper rest final call plain) (steps : ℕ) :
    Follows wrapper rest final (call.run wrapper program steps)
        (plain.run (.plain Memory In Out) program steps) ∨
      Overran wrapper program rest (call.run wrapper program steps)
        (plain.run (.plain Memory In Out) program steps) := by
  induction steps with
  | zero => exact .inl hfollows
  | succ steps ih =>
      rw [run_succ, run_succ]
      rcases ih with hfollows | hoverran
      · rcases hfollows.step hrefused with hfollows | hoverran
        · exact .inl hfollows
        · right
          rw [hoverran.waits.step_eq]
          exact hoverran
      · rw [hoverran.waits.step_eq]
        exact .inr hoverran.step

/-- Where the plain call waits and a message is left, all messages of the
handler are sent in the end. -/
theorem exists_handled
    (hrefused : ∀ message tail, rest = message :: tail →
      wrapper.receive final message = none) (hrest : rest ≠ [])
    (hfollows : Follows wrapper rest final call plain) {steps : ℕ}
    (hwaits : (plain.run (.plain Memory In Out) program steps).Waits program) :
    ∃ further, (call.run wrapper program further).sent =
      (plain.run (.plain Memory In Out) program steps).sent ++
        wrapper.handler := by
  have hoverran : ∃ later, Overran wrapper program rest
      (call.run wrapper program later)
      (plain.run (.plain Memory In Out) program steps) := by
    rcases follows_or_overran program hrefused hfollows steps with
      hfollows | hoverran
    · rcases hfollows.step_of_waits hrefused hwaits with ⟨-, hnil⟩ | hoverran
      · exact absurd hnil hrest
      · refine ⟨steps + 1, ?_⟩
        rw [run_succ]
        exact hoverran
    · exact ⟨steps, hoverran⟩
  obtain ⟨later, hoverran⟩ := hoverran
  obtain ⟨more, hmore⟩ := hoverran.handled.exists_sent
  refine ⟨later + more, ?_⟩
  rw [run_add]
  exact hmore

theorem Follows.start {state : State} {memory final : Memory}
    {before rest : List In}
    (haccepts : before.foldlM wrapper.receive memory = some final) :
    Follows wrapper rest final (.start (.running state) memory (before ++ rest))
      (.start (.running state) memory before) :=
  ⟨rfl, nofun, rfl, rfl, rfl, rfl, haccepts⟩

/-- The messages that a plain call received are the first of those that were to
come. -/
theorem received_append_incoming (steps : ℕ) :
    (plain.run (.plain Memory In Out) program steps).received ++
        (plain.run (.plain Memory In Out) program steps).incoming =
      plain.received ++ plain.incoming := by
  have hstep : ∀ plain : Call State Memory In Out,
      (plain.step (.plain Memory In Out) program).received ++
          (plain.step (.plain Memory In Out) program).incoming =
        plain.received ++ plain.incoming := by
    intro plain
    fun_cases Call.step (.plain Memory In Out) program plain with
    -- The plain receive function raises nothing.
    | case5 state _ next _ message rest _ hreceive => cases hreceive
    | case6 state _ next _ message rest hincoming memory _ =>
        rw [hincoming, List.append_assoc, List.singleton_append]
    | _ => rfl
  induction steps with
  | zero => rfl
  | succ steps ih =>
      rw [run_succ, hstep]
      exact ih

end Simulation

end UTTG.Wrapped
