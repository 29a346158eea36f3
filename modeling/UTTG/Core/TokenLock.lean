import Mathlib

/-!
# Locks that name their owner

A lock holds the token of the party that was elected, and every party is
elected at most once.  The owner may commit (publish a result and give the
lock back) or release it; the lock may also lapse or be reset by anybody.
Commits and releases are conditional on ownership, so each of them directly
follows the election it belongs to in the log of effective events.  All
ordering facts below follow from this one invariant.
-/

namespace UTTG.TokenLock

variable {Token : Type*}

/-- An operation that took effect. -/
inductive Event (Token : Type*) where
  | elected (token : Token)
  | committed (token : Token)
  | released (token : Token)
  | reset
  deriving DecidableEq

/-- The owner of the lock and the effective events, oldest first. -/
structure State (Token : Type*) where
  holder : Option Token
  log : List (Event Token)

/-- What can happen to the lock. -/
inductive Step : State Token → State Token → Prop
  | idle (state : State Token) : Step state state
  | lapse (state : State Token) : Step state { state with holder := none }
  | elect (state : State Token) (token : Token)
      (hfree : state.holder = none)
      (hfresh : Event.elected token ∉ state.log) :
      Step state ⟨some token, state.log ++ [.elected token]⟩
  | commit (state : State Token) (token : Token)
      (howned : state.holder = some token) :
      Step state ⟨none, state.log ++ [.committed token]⟩
  | release (state : State Token) (token : Token)
      (howned : state.holder = some token) :
      Step state ⟨none, state.log ++ [.released token]⟩
  | reset (state : State Token) : Step state ⟨none, state.log ++ [.reset]⟩

/-- The entries of a log that was extended by one event. -/
theorem getElem?_concat {log : List (Event Token)}
    {event found : Event Token} {index : ℕ} :
    (log ++ [event])[index]? = some found ↔
      log[index]? = some found ∨ (index = log.length ∧ event = found) := by
  rcases lt_trichotomy index log.length with hlt | rfl | hgt
  · rw [List.getElem?_append_left hlt]
    simp [hlt.ne]
  · simp
  · have hout : (log ++ [event])[index]? = none :=
      List.getElem?_eq_none (by simpa using hgt)
    have hnone : log[index]? = none := List.getElem?_eq_none hgt.le
    simp [hout, hnone, hgt.ne']

/-- The log ends with the election of the owner, nobody is elected twice, and
every commit or release directly follows the election of its token. -/
structure Owned (state : State Token) : Prop where
  held : ∀ token, state.holder = some token →
    ∃ last, last + 1 = state.log.length ∧
      state.log[last]? = some (.elected token)
  once : ∀ (token : Token) (left right : ℕ),
    state.log[left]? = some (.elected token) →
      state.log[right]? = some (.elected token) → left = right
  committed : ∀ (token : Token) (index : ℕ),
    state.log[index]? = some (.committed token) → ∃ before, before + 1 = index ∧
      state.log[before]? = some (.elected token)
  released : ∀ (token : Token) (index : ℕ),
    state.log[index]? = some (.released token) → ∃ before, before + 1 = index ∧
      state.log[before]? = some (.elected token)

theorem Owned.init {state : State Token} (hfree : state.holder = none)
    (hlog : state.log = []) : Owned state where
  held token hheld := by simp [hfree] at hheld
  once token left right hleft := by simp [hlog] at hleft
  committed token index hget := by simp [hlog] at hget
  released token index hget := by simp [hlog] at hget

/-- Losing the lock without a trace keeps the log as it is. -/
theorem Owned.lapse {state : State Token} (howned : Owned state) :
    Owned { state with holder := none } where
  held token hheld := by simp at hheld
  once := howned.once
  committed := howned.committed
  released := howned.released

/-- Any event other than an election, provided that it is backed by the
election before it where it is a commit or a release. -/
theorem Owned.concat {state : State Token} (howned : Owned state)
    {event : Event Token} (helected : ∀ token, event ≠ .elected token)
    (hbacked : ∀ token, event = .committed token ∨ event = .released token →
      state.holder = some token) :
    Owned ⟨none, state.log ++ [event]⟩ where
  held token hheld := by simp at hheld
  once token left right hleft hright := by
    have hold : ∀ index : ℕ,
        (state.log ++ [event])[index]? = some (.elected token) →
          state.log[index]? = some (.elected token) := by
      intro index hget
      rcases getElem?_concat.mp hget with hget | ⟨-, heq⟩
      · exact hget
      · exact absurd heq (helected token)
    exact howned.once token left right (hold left hleft) (hold right hright)
  committed token index hget := by
    rcases getElem?_concat.mp hget with hget | ⟨rfl, heq⟩
    · obtain ⟨before, hbefore, helect⟩ := howned.committed token index hget
      exact ⟨before, hbefore, getElem?_concat.mpr (.inl helect)⟩
    · obtain ⟨last, hlast, helect⟩ :=
        howned.held token (hbacked token (.inl heq))
      exact ⟨last, hlast, getElem?_concat.mpr (.inl helect)⟩
  released token index hget := by
    rcases getElem?_concat.mp hget with hget | ⟨rfl, heq⟩
    · obtain ⟨before, hbefore, helect⟩ := howned.released token index hget
      exact ⟨before, hbefore, getElem?_concat.mpr (.inl helect)⟩
    · obtain ⟨last, hlast, helect⟩ :=
        howned.held token (hbacked token (.inr heq))
      exact ⟨last, hlast, getElem?_concat.mpr (.inl helect)⟩

theorem Owned.elect {state : State Token} (howned : Owned state)
    {token : Token} (hfresh : Event.elected token ∉ state.log) :
    Owned ⟨some token, state.log ++ [.elected token]⟩ where
  held other hheld := by
    obtain rfl : token = other := by simpa using hheld
    exact ⟨state.log.length, by simp, getElem?_concat.mpr (.inr ⟨rfl, rfl⟩)⟩
  once other left right hleft hright := by
    rcases getElem?_concat.mp hleft with hleft | ⟨rfl, heq⟩ <;>
      rcases getElem?_concat.mp hright with hright | ⟨rfl, heq'⟩
    · exact howned.once other left right hleft hright
    · rw [heq'] at hfresh
      exact absurd (List.mem_of_getElem? hleft) hfresh
    · rw [heq] at hfresh
      exact absurd (List.mem_of_getElem? hright) hfresh
    · rfl
  committed other index hget := by
    rcases getElem?_concat.mp hget with hget | ⟨-, heq⟩
    · obtain ⟨before, hbefore, helect⟩ := howned.committed other index hget
      exact ⟨before, hbefore, getElem?_concat.mpr (.inl helect)⟩
    · simp at heq
  released other index hget := by
    rcases getElem?_concat.mp hget with hget | ⟨-, heq⟩
    · obtain ⟨before, hbefore, helect⟩ := howned.released other index hget
      exact ⟨before, hbefore, getElem?_concat.mpr (.inl helect)⟩
    · simp at heq

/-- Ownership is preserved by every step. -/
theorem Owned.step {state next : State Token} (howned : Owned state)
    (hstep : Step state next) : Owned next := by
  cases hstep with
  | idle => exact howned
  | lapse => exact howned.lapse
  | elect token hfree hfresh => exact howned.elect hfresh
  | commit token hheld =>
      refine howned.concat (by simp) fun other hevent => ?_
      obtain rfl : token = other := by simpa using hevent
      exact hheld
  | release token hheld =>
      refine howned.concat (by simp) fun other hevent => ?_
      obtain rfl : token = other := by simpa using hevent
      exact hheld
  | reset => exact howned.concat (by simp) (by simp)

/-- Nobody comes to own the lock without being elected. -/
theorem Step.holder_ne {state next : State Token} {token : Token}
    (hstep : Step state next) (hholder : state.holder ≠ some token)
    (helected : Event.elected token ∈ next.log →
      Event.elected token ∈ state.log) : next.holder ≠ some token := by
  cases hstep with
  | idle => exact hholder
  | elect elected hfree hfresh =>
      intro heq
      obtain rfl : elected = token := Option.some.inj heq
      exact hfresh (helected (by simp))
  | lapse | commit | release | reset => simp

/-- A token commits at most once. -/
theorem Owned.commit_once {state : State Token} (howned : Owned state)
    {token : Token} {left right : ℕ}
    (hleft : state.log[left]? = some (.committed token))
    (hright : state.log[right]? = some (.committed token)) : left = right := by
  obtain ⟨before, rfl, helect⟩ := howned.committed token left hleft
  obtain ⟨before', rfl, helect'⟩ := howned.committed token right hright
  rw [howned.once token before before' helect helect']

/-- The party with this token was elected as event `first` and its commit is
event `last`. -/
structure Tenure (log : List (Event Token)) (token : Token)
    (first last : ℕ) : Prop where
  elected : log[first]? = some (.elected token)
  committed : log[last]? = some (.committed token)

/-- A tenure that ends in a commit has nothing between its ends. -/
theorem Owned.tenure_adjacent {state : State Token} (howned : Owned state)
    {token : Token} {first last : ℕ}
    (htenure : Tenure state.log token first last) : first + 1 = last := by
  obtain ⟨before, hbefore, helect⟩ :=
    howned.committed token last htenure.committed
  rw [howned.once token first before htenure.elected helect, hbefore]

/-- Every commit ends a tenure. -/
theorem Owned.exists_tenure {state : State Token} (howned : Owned state)
    {token : Token} {last : ℕ}
    (hcommit : state.log[last]? = some (.committed token)) :
    ∃ first, Tenure state.log token first last := by
  obtain ⟨before, -, helect⟩ := howned.committed token last hcommit
  exact ⟨before, helect, hcommit⟩

/-- Tenures of different parties that end in commits do not overlap. -/
theorem Owned.tenures_disjoint {state : State Token} (howned : Owned state)
    {left right : Token} (hne : left ≠ right)
    {leftFirst leftLast rightFirst rightLast : ℕ}
    (hleft : Tenure state.log left leftFirst leftLast)
    (hright : Tenure state.log right rightFirst rightLast) :
    leftLast < rightFirst ∨ rightLast < leftFirst := by
  have hleftLast := howned.tenure_adjacent hleft
  have hrightLast := howned.tenure_adjacent hright
  have hfirst : leftFirst ≠ rightFirst := by
    rintro rfl
    exact hne (by simpa using hleft.elected.symm.trans hright.elected)
  have hcross : leftLast ≠ rightFirst := by
    rintro rfl
    simpa using hleft.committed.symm.trans hright.elected
  have hcross' : rightLast ≠ leftFirst := by
    rintro rfl
    simpa using hright.committed.symm.trans hleft.elected
  omega

/-- Commits happen in the order of the elections. -/
theorem Owned.commits_in_order {state : State Token} (howned : Owned state)
    {left right : Token} {leftFirst leftLast rightFirst rightLast : ℕ}
    (hleft : Tenure state.log left leftFirst leftLast)
    (hright : Tenure state.log right rightFirst rightLast) :
    leftFirst < rightFirst ↔ leftLast < rightLast := by
  have hleftLast := howned.tenure_adjacent hleft
  have hrightLast := howned.tenure_adjacent hright
  omega

/-- Whoever commits after an event other than an election was elected after
it. -/
theorem Owned.elected_after {state : State Token} (howned : Owned state)
    {event : Event Token} (hevent : ∀ token, event ≠ .elected token)
    {token : Token} {index first last : ℕ}
    (hget : state.log[index]? = some event) (hlt : index < last)
    (htenure : Tenure state.log token first last) : index < first := by
  have hlast := howned.tenure_adjacent htenure
  have hne : index ≠ first := by
    rintro rfl
    exact hevent token (by simpa using hget.symm.trans htenure.elected)
  omega

end UTTG.TokenLock
