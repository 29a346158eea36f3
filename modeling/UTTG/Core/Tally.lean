import Mathlib

/-!
# Counters and gauges

Counters with labels go up by one, and series with labels get one more reading,
for every entry of a log.  A gauge goes up where a key begins and down where it
ends.  So the counters count the entries of the log, the series list its
readings, and the gauge counts the keys that have begun and not ended.
-/

namespace UTTG.Tally

section Counters

variable {Entry Key Reading : Type*} [DecidableEq Key]

/-- One more under the label, if any. -/
def increment (counts : Key → ℕ) : Option Key → Key → ℕ
  | none => counts
  | some key => Function.update counts key (counts key + 1)

/-- How often each label occurs in a log. -/
def tally (label : Entry → Option Key) (log : List Entry) (key : Key) : ℕ :=
  log.countP fun entry => label entry = some key

/-- One more reading under the label. -/
def observe (series : Key → List Reading) (key : Key) (reading : Reading) :
    Key → List Reading :=
  Function.update series key (series key ++ [reading])

/-- The readings of each label in a log. -/
def readings (label : Entry → Key) (reading : Entry → Reading)
    (log : List Entry) (key : Key) : List Reading :=
  (log.filter fun entry => label entry = key).map reading

@[simp]
theorem tally_nil (label : Entry → Option Key) :
    tally label [] = fun _ => 0 := by
  funext key
  rfl

theorem tally_concat (label : Entry → Option Key) (log : List Entry)
    (entry : Entry) :
    tally label (log ++ [entry]) = increment (tally label log) (label entry) := by
  funext key
  rw [tally, List.countP_append, List.countP_singleton]
  cases hlabel : label entry with
  | none => simp [increment, tally]
  | some other =>
      by_cases hsame : key = other
      · subst hsame
        simp [increment, tally]
      · simp [increment, tally, Function.update_of_ne hsame, Ne.symm hsame]

@[simp]
theorem readings_nil (label : Entry → Key) (reading : Entry → Reading) :
    readings label reading [] = fun _ => [] := by
  funext key
  rfl

theorem readings_concat (label : Entry → Key) (reading : Entry → Reading)
    (log : List Entry) (entry : Entry) :
    readings label reading (log ++ [entry]) =
      observe (readings label reading log) (label entry) (reading entry) := by
  funext key
  rw [readings, List.filter_append, List.map_append]
  by_cases hsame : key = label entry
  · subst hsame
    simp [observe, readings]
  · simp [observe, readings, Function.update_of_ne hsame, Ne.symm hsame]

end Counters

section Gauges

variable {Key : Type*} [DecidableEq Key] {keys : List Key} {key : Key}
  (before after : Key → Bool)

/-- What has ended, where the key was the one of its kind, has one less. -/
theorem countP_leave (hdistinct : keys.Nodup) (hmem : key ∈ keys)
    (hbefore : before key = true) (hafter : after key = false)
    (hothers : ∀ other, other ≠ key → after other = before other) :
    keys.countP before = keys.countP after + 1 := by
  have hrest : ∀ other ∈ keys.erase key, after other = before other := by
    intro other hother
    apply hothers
    rintro rfl
    exact hdistinct.not_mem_erase hother
  have hperm := List.perm_cons_erase hmem
  rw [hperm.countP_eq before, hperm.countP_eq after, List.countP_cons,
    List.countP_cons, hbefore, hafter, if_pos rfl, if_neg Bool.false_ne_true,
    Nat.add_zero, Nat.add_right_cancel_iff]
  apply List.countP_congr
  intro other hother
  rw [hrest other hother]

omit [DecidableEq Key] in
/-- A new key, which has begun or not. -/
theorem countP_enter (habsent : key ∉ keys)
    (hothers : ∀ other, other ≠ key → after other = before other) :
    (keys ++ [key]).countP after =
      keys.countP before + (if after key then 1 else 0) := by
  rw [List.countP_append, List.countP_singleton, Nat.add_right_cancel_iff]
  apply List.countP_congr
  intro other hother
  rw [hothers]
  rintro rfl
  exact habsent hother

end Gauges

end UTTG.Tally
