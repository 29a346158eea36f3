import UTTG.Core.Table
import UTTG.Core.Transition
import UTTG.Ingestion.Launches
import UTTG.Python.Text

/-!
# Provider health

`_write_provider_health` reads the row of a provider, assigns its columns and
commits, so that calls of several schedulers may overlap.  The mapper writes the
columns that differ from what was read.  As long as the calls for one provider
do not overlap, its row tells the outcomes recorded for it: the last one, and
the times of the last success and of the last failure.
-/

namespace UTTG.Health

open Python UTTG.Transition
open Launches (Instant)

/-- The values of `status` that the scheduler writes. -/
inductive Status where
  | active
  | error
  deriving DecidableEq

/-- A row of `provider_health`. -/
structure ProviderHealth where
  id : Text
  status : Status
  lastSuccessAt : Option Instant
  lastErrorAt : Option Instant
  errorMessage : Option Text
  deriving DecidableEq

abbrev HealthTable := Table ProviderHealth.id

/-- The arguments of a call. -/
structure Write where
  providerId : Text
  status : Status
  error : Option Text
  deriving DecidableEq

/-- `error[:1000] if error else None`. -/
def Write.message (write : Write) : Option Text :=
  if write.error.getD [] = [] then none
  else write.error.map fun error => error.take 1000

/-- The assignments to the columns. -/
def Write.assign (write : Write) (now : Instant) (row : ProviderHealth) :
    ProviderHealth :=
  match write.status with
  | .active =>
      { row with
        status := .active
        lastSuccessAt := some now
        errorMessage := none }
  | .error =>
      { row with
        status := .error
        lastErrorAt := some now
        errorMessage := write.message }

/-- `ProviderHealth(id=provider_id, status=status)`. -/
def Write.newRow (write : Write) : ProviderHealth :=
  ⟨write.providerId, write.status, none, none, none⟩

/-- The columns of the `UPDATE`: those whose value is not the one loaded. -/
def flush (loaded assigned row : ProviderHealth) : ProviderHealth :=
  { row with
    status := if assigned.status = loaded.status then row.status
      else assigned.status
    lastSuccessAt := if assigned.lastSuccessAt = loaded.lastSuccessAt then
      row.lastSuccessAt else assigned.lastSuccessAt
    lastErrorAt := if assigned.lastErrorAt = loaded.lastErrorAt then
      row.lastErrorAt else assigned.lastErrorAt
    errorMessage := if assigned.errorMessage = loaded.errorMessage then
      row.errorMessage else assigned.errorMessage }

theorem flush_id (loaded assigned row : ProviderHealth) :
    (flush loaded assigned row).id = row.id := rfl

/-- A call after its `SELECT`, with the row that it loaded. -/
structure Pending where
  call : ℕ
  write : Write
  loaded : Option ProviderHealth
  deriving DecidableEq

/-- A call that has committed. -/
structure Outcome where
  write : Write
  now : Instant
  deriving DecidableEq

/-- The table, the calls between `SELECT` and commit, and the outcomes recorded
so far with the last one first. -/
structure HealthState where
  table : HealthTable
  pending : List Pending
  recorded : List Outcome

inductive HealthAction where
  | select (call : ℕ) (write : Write)
  | commit (call : ℕ) (now : Instant)
  /-- A command raises, which the caller logs. -/
  | fail (call : ℕ)

def HealthState.without (state : HealthState) (call : ℕ) : HealthState :=
  { state with pending := state.pending.filter fun pending =>
      pending.call ≠ call }

/-- The commit of a call.  The insert of a row that another call has inserted
meanwhile raises. -/
def Pending.commit (pending : Pending) (now : Instant) (table : HealthTable) :
    Option HealthTable :=
  match pending.loaded with
  | none => table.insert (pending.write.assign now pending.write.newRow)
  | some loaded =>
      some (table.modify pending.write.providerId
        (flush loaded (pending.write.assign now loaded)) (flush_id loaded _))

/-- One command of one call. -/
def healthStep (state : HealthState) : HealthAction → Option HealthState
  | .select call write =>
      if ∀ pending ∈ state.pending, pending.call ≠ call then
        some { state with
          pending := ⟨call, write, state.table.find write.providerId⟩ ::
            state.pending }
      else none
  | .commit call now =>
      (state.pending.find? fun pending => pending.call = call).map
        fun pending =>
          (pending.commit now state.table).elim (state.without call)
            fun table =>
              { state.without call with
                table := table
                recorded := ⟨pending.write, now⟩ :: state.recorded }
  | .fail call => some (state.without call)

def healthSystem : System HealthState HealthAction where
  Init state := state = ⟨Table.empty, [], []⟩
  step := healthStep

/-- The step does not begin a call while another one for the provider has not
ended. -/
def Serial (state : HealthState) : HealthAction → HealthState → Prop
  | .select _ write, _ =>
      ∀ pending ∈ state.pending, pending.write.providerId ≠ write.providerId
  | .commit _ _, _ => True
  | .fail _, _ => True

instance decidableSerial (state : HealthState) :
    (action : HealthAction) → (next : HealthState) →
      Decidable (Serial state action next)
  | .select _ write, _ => inferInstanceAs (Decidable
      (∀ pending ∈ state.pending, pending.write.providerId ≠ write.providerId))
  | .commit _ _, _ => isTrue trivial
  | .fail _, _ => isTrue trivial

/-! ## The outcomes of one provider -/

def Outcome.succeeded (outcome : Outcome) : Bool :=
  outcome.write.status = .active

/-- The outcomes of a provider, the last one first. -/
def own (recorded : List Outcome) (providerId : Text) : List Outcome :=
  recorded.filter fun outcome => outcome.write.providerId = providerId

/-- The time of the last success of a provider. -/
def lastSuccess (recorded : List Outcome) (providerId : Text) :
    Option Instant :=
  ((own recorded providerId).find? Outcome.succeeded).map Outcome.now

/-- The time of the last failure of a provider. -/
def lastFailure (recorded : List Outcome) (providerId : Text) :
    Option Instant :=
  ((own recorded providerId).find? fun outcome =>
    !outcome.succeeded).map Outcome.now

/-- The row that tells the outcomes of a provider. -/
def summary (recorded : List Outcome) (providerId : Text) :
    Option ProviderHealth :=
  (own recorded providerId).head?.map fun latest =>
    { id := providerId
      status := latest.write.status
      lastSuccessAt := lastSuccess recorded providerId
      lastErrorAt := lastFailure recorded providerId
      errorMessage :=
        if latest.succeeded then none else latest.write.message }

/-- The provider's last outcome is a success. -/
def isActive (recorded : List Outcome) (providerId : Text) : Bool :=
  (own recorded providerId).head?.any Outcome.succeeded

theorem summary_of_other {recorded : List Outcome} {outcome : Outcome}
    {providerId : Text} (hother : outcome.write.providerId ≠ providerId) :
    summary (outcome :: recorded) providerId =
      summary recorded providerId := by
  have hown : own (outcome :: recorded) providerId =
      own recorded providerId :=
    List.filter_cons_of_neg (by simpa using hother)
  simp only [summary, lastSuccess, lastFailure, hown]

/-- The assignments make the summary of one outcome more. -/
theorem assign_summary (recorded : List Outcome) (write : Write)
    (now : Instant) :
    summary (⟨write, now⟩ :: recorded) write.providerId =
      some (write.assign now
        ((summary recorded write.providerId).getD write.newRow)) := by
  have hown : own (⟨write, now⟩ :: recorded) write.providerId =
      ⟨write, now⟩ :: own recorded write.providerId :=
    List.filter_cons_of_pos (by simp)
  obtain ⟨providerId, status, error⟩ := write
  cases howned : own recorded providerId with
  | nil =>
      cases status <;>
        simp [summary, lastSuccess, lastFailure, hown, howned,
          Outcome.succeeded, Write.assign, Write.newRow]
  | cons latest rest =>
      cases status <;>
        simp [summary, lastSuccess, lastFailure, hown, howned,
          Outcome.succeeded, Write.assign]

/-- The rows tell the outcomes, and every call that has not ended loaded the row
that is there, with no other call for its provider. -/
structure Summarised (state : HealthState) : Prop where
  rows : ∀ providerId,
    state.table.find providerId = summary state.recorded providerId
  loaded : ∀ pending ∈ state.pending,
    pending.loaded = state.table.find pending.write.providerId
  alone : (state.pending.map fun pending => pending.write.providerId).Nodup

theorem flush_loaded (loaded assigned : ProviderHealth)
    (hid : assigned.id = loaded.id) : flush loaded assigned loaded = assigned := by
  obtain ⟨id, status, lastSuccessAt, lastErrorAt, errorMessage⟩ := assigned
  obtain rfl : id = loaded.id := hid
  simp only [flush, ProviderHealth.mk.injEq, ite_eq_right_iff, true_and]
  exact ⟨Eq.symm, Eq.symm, Eq.symm, Eq.symm⟩

theorem assign_id (write : Write) (now : Instant) (row : ProviderHealth) :
    (write.assign now row).id = row.id := by
  unfold Write.assign
  cases write.status <;> rfl

/-- A call that loaded the row that is there commits, and its outcome is all
that it adds. -/
theorem commit_of_loaded {table : HealthTable} {recorded : List Outcome}
    (hrows : ∀ providerId, table.find providerId = summary recorded providerId)
    {pending : Pending}
    (hloaded : pending.loaded = table.find pending.write.providerId)
    (now : Instant) :
    ∃ next, pending.commit now table = some next ∧ ∀ providerId,
      next.find providerId =
        summary (⟨pending.write, now⟩ :: recorded) providerId := by
  have hassigned := assign_summary recorded pending.write now
  rw [← hrows, ← hloaded] at hassigned
  unfold Pending.commit
  cases hrow : pending.loaded with
  | none =>
      rw [hrow, Option.getD_none] at hassigned
      have hid : (pending.write.assign now pending.write.newRow).id =
          pending.write.providerId := assign_id _ _ _
      rw [hrow] at hloaded
      have habsent : table.find
          (pending.write.assign now pending.write.newRow).id = none := by
        rw [hid, ← hloaded]
      obtain ⟨next, hnext⟩ := Option.ne_none_iff_exists'.mp
        (mt (table.insert_eq_none_iff _).mp (not_not.mpr habsent))
      refine ⟨next, hnext, fun providerId => ?_⟩
      rw [Table.find_insert hnext, hid]
      by_cases hprovider : pending.write.providerId = providerId
      · rw [if_pos hprovider, ← hprovider, hassigned]
      · rw [if_neg hprovider, summary_of_other hprovider, hrows]
  | some row =>
      rw [hrow, Option.getD_some] at hassigned
      refine ⟨_, rfl, fun providerId => ?_⟩
      rw [Table.find_modify]
      by_cases hprovider : providerId = pending.write.providerId
      · rw [if_pos hprovider, hprovider, ← hloaded, hrow, hassigned,
          Option.map_some, flush_loaded _ _ (assign_id _ _ _)]
      · rw [if_neg hprovider, summary_of_other (Ne.symm hprovider), hrows]

theorem Summarised.without {state : HealthState} (hsum : Summarised state)
    (call : ℕ) : Summarised (state.without call) :=
  ⟨hsum.rows, fun pending hpending =>
    hsum.loaded pending (List.mem_of_mem_filter hpending),
    (List.filter_sublist.map _).nodup hsum.alone⟩

theorem Summarised.step {state next : HealthState} {action : HealthAction}
    (hsum : Summarised state) (hstep : healthSystem.step state action =
      some next) (hserial : Serial state action next) : Summarised next := by
  cases action with
  | select call write =>
      obtain ⟨-, hnext⟩ := Option.ite_none_right_eq_some.mp hstep
      obtain rfl := Option.some.inj hnext
      refine ⟨hsum.rows, List.forall_mem_cons.mpr ⟨rfl, hsum.loaded⟩,
        List.nodup_cons.mpr ⟨fun hmem => ?_, hsum.alone⟩⟩
      obtain ⟨pending, hpending, hprovider⟩ := List.mem_map.mp hmem
      exact hserial pending hpending hprovider
  | commit call now =>
      obtain ⟨pending, hpending, rfl⟩ := Option.map_eq_some_iff.mp hstep
      have hmem := List.mem_of_find?_eq_some hpending
      have hcall : pending.call = call := by
        simpa using List.find?_some hpending
      obtain ⟨table, hcommit, hrows⟩ := commit_of_loaded hsum.rows
        (hsum.loaded pending hmem) now
      rw [hcommit]
      refine ⟨hrows, fun other hother => ?_, (hsum.without call).alone⟩
      obtain ⟨hotherMem, hne⟩ := List.mem_filter.mp hother
      have hdifferent : pending.write.providerId ≠ other.write.providerId := by
        intro hprovider
        obtain rfl := List.inj_on_of_nodup_map hsum.alone hmem hotherMem
          hprovider
        simp [hcall] at hne
      change other.loaded = table.find other.write.providerId
      rw [hrows, summary_of_other hdifferent, ← hsum.rows,
        hsum.loaded other hotherMem]
  | fail call =>
      obtain rfl := Option.some.inj hstep
      exact hsum.without call

/-- In every run whose calls for one provider do not overlap, the table is the
summary of the outcomes. -/
theorem summarised {state : HealthState}
    (hreach : healthSystem.ReachableVia Serial state) : Summarised state := by
  refine System.ReachableVia.invariant Summarised ?_
    (fun _ _ _ hsum hstep hserial => hsum.step hstep hserial) hreach
  rintro state rfl
  exact ⟨fun _ => rfl, by simp, List.nodup_nil⟩

end UTTG.Health
