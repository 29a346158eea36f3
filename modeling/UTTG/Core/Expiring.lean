import Mathlib

/-!
# Keys that expire

One key of an in-memory store whose keys may carry a deadline.  A key is
readable strictly before its deadline; afterwards every command sees the key
as absent.  The commands below are the ones a client can send for a single
key; a store with many keys is a function into slots.
-/

namespace UTTG.Expiring

variable {Value Time : Type*}

/-- A stored value and the instant at which it lapses; `none` never lapses. -/
structure Entry (Value Time : Type*) where
  value : Value
  deadline : Option Time
  deriving DecidableEq, Repr

/-- How a command ends for its sender: with the reply, with an exception after
it ran, or with an exception and without having run. -/
inductive Reply where
  | answered
  | lost
  | refused
  deriving DecidableEq

/-- The content of one key. -/
abbrev Slot (Value Time : Type*) := Option (Entry Value Time)

namespace Slot

variable [LinearOrder Time]

/-- The deadline of the entry is reached.  A store that still has a key at the
very instant of its deadline differs at that instant only. -/
def lapsed (now : Time) (entry : Entry Value Time) : Bool :=
  match entry.deadline with
  | none => false
  | some deadline => decide (deadline ≤ now)

/-- `GET`: the value a command executed at `now` sees. -/
def get (now : Time) (slot : Slot Value Time) : Option Value :=
  slot.bind fun entry => if lapsed now entry then none else some entry.value

/-- `EXISTS`. -/
def exist (now : Time) (slot : Slot Value Time) : Bool :=
  (slot.get now).isSome

/-- `SET key value EX`: unconditional, replaces value and deadline. -/
def set (value : Value) (deadline : Time) : Slot Value Time :=
  some ⟨value, some deadline⟩

/-- `SET key value NX EX`: succeeds only when the key is absent. -/
def setNx (now : Time) (value : Value) (deadline : Time)
    (slot : Slot Value Time) : Bool × Slot Value Time :=
  if slot.exist now then (false, slot) else (true, set value deadline)

/-- `DEL`. -/
def del : Slot Value Time := none

/-- `EXPIRE`: a new deadline for a key that is present. -/
def expire (now deadline : Time) (slot : Slot Value Time) : Slot Value Time :=
  (slot.get now).map fun value => ⟨value, some deadline⟩

/-- `INCR`: an absent key counts from zero and has no deadline; a present key
keeps its deadline. -/
def incr (now : Time) (slot : Slot ℕ Time) : ℕ × Slot ℕ Time :=
  match slot with
  | none => (1, some ⟨1, none⟩)
  | some entry =>
      if lapsed now entry then (1, some ⟨1, none⟩)
      else (entry.value + 1, some { entry with value := entry.value + 1 })

@[simp]
theorem get_none (now : Time) : get now (none : Slot Value Time) = none := rfl

@[simp]
theorem get_del (now : Time) : get now (del : Slot Value Time) = none := rfl

theorem get_some (now : Time) (value : Value) (deadline : Time) :
    get now (some ⟨value, some deadline⟩) =
      if deadline ≤ now then none else some value := by
  simp [get, lapsed]

theorem get_set (now : Time) (value : Value) (deadline : Time) :
    get now (set value deadline) =
      if deadline ≤ now then none else some value :=
  get_some now value deadline

/-- What a command reads is what the key holds. -/
theorem exists_entry_of_get {now : Time} {slot : Slot Value Time}
    {value : Value} (hget : slot.get now = some value) :
    ∃ entry, slot = some entry ∧ entry.value = value := by
  obtain ⟨entry, hslot, hentry⟩ := Option.bind_eq_some_iff.mp hget
  refine ⟨entry, hslot, ?_⟩
  split at hentry
  · simp at hentry
  · exact Option.some.inj hentry

theorem exist_some_iff (now : Time) (value : Value) (deadline : Time) :
    exist now (some ⟨value, some deadline⟩) = true ↔ now < deadline := by
  by_cases hlapsed : deadline ≤ now
  · simp [exist, get_some, hlapsed]
  · simp [exist, get_some, hlapsed, not_le.mp hlapsed]

theorem exist_of_lt_deadline {now deadline : Time} {slot : Slot Value Time}
    (hdeadline : slot.bind Entry.deadline = some deadline)
    (hlive : now < deadline) : slot.exist now = true := by
  obtain ⟨⟨value, _⟩, rfl, rfl⟩ := Option.bind_eq_some_iff.mp hdeadline
  exact (exist_some_iff now value deadline).mpr hlive

theorem exist_eq_false_iff (now : Time) (slot : Slot Value Time) :
    slot.exist now = false ↔ slot.get now = none := by
  simp [exist]

/-- A lapsed key stays lapsed. -/
theorem get_none_of_le {now later : Time} {slot : Slot Value Time}
    (hle : now ≤ later) (hnone : slot.get now = none) :
    slot.get later = none := by
  rcases slot with _ | ⟨value, _ | deadline⟩
  · rfl
  · simp [get, lapsed] at hnone
  · rw [get_some] at hnone ⊢
    split at hnone
    · next hlapsed => rw [if_pos (hlapsed.trans hle)]
    · simp at hnone

/-- As time passes a key keeps its value until it lapses. -/
theorem get_later (slot : Slot Value Time) {now later : Time}
    (hle : now ≤ later) :
    slot.get later = none ∨ slot.get later = slot.get now := by
  rcases slot with _ | ⟨value, _ | deadline⟩
  · exact .inl rfl
  · exact .inr rfl
  · rw [get_some, get_some]
    by_cases hlapsed : deadline ≤ later
    · exact .inl (if_pos hlapsed)
    · have hlive : ¬deadline ≤ now := fun hdead => hlapsed (hdead.trans hle)
      rw [if_neg hlapsed, if_neg hlive]
      exact .inr rfl

/-- An increment creates the key without a deadline or keeps the one it has. -/
theorem incr_cases (now : Time) (slot : Slot ℕ Time) :
    (slot.get now = none ∧ slot.incr now = (1, some ⟨1, none⟩)) ∨
      ∃ count deadline, slot = some ⟨count, deadline⟩ ∧
        slot.get now = some count ∧
        slot.incr now = (count + 1, some ⟨count + 1, deadline⟩) := by
  rcases slot with _ | ⟨count, deadline⟩
  · exact .inl ⟨rfl, rfl⟩
  · by_cases hlapsed : lapsed now (⟨count, deadline⟩ : Entry ℕ Time) = true
    · exact .inl ⟨if_pos hlapsed, if_pos hlapsed⟩
    · exact .inr ⟨count, deadline, rfl, if_neg hlapsed, if_neg hlapsed⟩

theorem get_incr (now : Time) (slot : Slot ℕ Time) :
    (slot.incr now).2.get now = some (slot.incr now).1 := by
  rcases incr_cases now slot with
    ⟨-, hincr⟩ | ⟨count, deadline, rfl, hget, hincr⟩
  · rw [hincr]
    rfl
  · rw [hincr]
    have hlive : lapsed now (⟨count, deadline⟩ : Entry ℕ Time) = false := by
      rw [get, Option.bind_some] at hget
      split at hget
      · simp at hget
      · exact Bool.eq_false_iff.mpr ‹_›
    exact if_neg (Bool.eq_false_iff.mp hlive)

/-- An increment adds one to what the key counts. -/
theorem incr_eq (now : Time) (slot : Slot ℕ Time) :
    (slot.incr now).1 = (slot.get now).getD 0 + 1 := by
  rcases incr_cases now slot with
    ⟨hget, hincr⟩ | ⟨count, deadline, -, hget, hincr⟩
  · rw [hget, hincr, Option.getD_none]
  · rw [hget, hincr, Option.getD_some]

/-- A new deadline does not change what the key holds, unless it is past. -/
theorem get_expire (now deadline : Time) (slot : Slot Value Time) :
    (slot.expire now deadline).get now =
      if deadline ≤ now then none else slot.get now := by
  rw [expire]
  cases slot.get now with
  | none => simp [get_none]
  | some value => rw [Option.map_some, get_some]

/-- A conditional set succeeds exactly on an absent key, and then installs
the new entry; otherwise it changes nothing. -/
theorem setNx_cases (now : Time) (value : Value) (deadline : Time)
    (slot : Slot Value Time) :
    (slot.exist now = false ∧
        slot.setNx now value deadline = (true, set value deadline)) ∨
      (slot.exist now = true ∧
        slot.setNx now value deadline = (false, slot)) := by
  cases hexist : slot.exist now with
  | false => exact .inl ⟨rfl, by simp [setNx, hexist]⟩
  | true => exact .inr ⟨rfl, by simp [setNx, hexist]⟩

end Slot

end UTTG.Expiring
