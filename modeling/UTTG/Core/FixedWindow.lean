import UTTG.Core.Expiring

/-!
# Counting in fixed windows

A counter that is incremented at each event and given an expiry by the event
that finds it absent counts in windows of fixed length: a window starts at
the first event after the previous window and is not extended by later ones.
The events of the current window are compared with the events of the sliding
window that ends at the newest event.  Lists of events are newest first.
-/

namespace UTTG.FixedWindow

open UTTG.Expiring

variable {Time : Type*} [LinearOrder Time] [Add Time] (length : Time)

/-- `INCR`, then `EXPIRE` if the counter has just been created. -/
def record (now : Time) (slot : Slot ℕ Time) : ℕ × Slot ℕ Time :=
  let (total, counted) := slot.incr now
  (total, if total = 1 then counted.expire now (now + length) else counted)

/-- The first event of a window creates the counter with its expiry. -/
theorem record_none (now : Time) :
    record length now none = (1, some ⟨1, some (now + length)⟩) := by
  simp [record, Slot.incr, Slot.expire, Slot.get, Slot.lapsed]

/-- A later event of the window keeps the expiry. -/
theorem record_live {now deadline : Time} (hlive : now < deadline) {count : ℕ}
    (hcount : count ≠ 0) :
    record length now (some ⟨count, some deadline⟩) =
      (count + 1, some ⟨count + 1, some deadline⟩) := by
  simp [record, Slot.incr, Slot.lapsed, not_le.mpr hlive, hcount]

/-- The events of the window that the newest event belongs to. -/
def current : List Time → List Time
  | [] => []
  | time :: earlier =>
      match (current earlier).getLast? with
      | none => [time]
      | some start =>
          if start + length ≤ time then [time] else time :: current earlier

/-- The counter after these events. -/
def counter (events : List Time) : Slot ℕ Time :=
  (current length events).getLast?.map fun start =>
    ⟨(current length events).length, some (start + length)⟩

theorem current_cons (time : Time) (earlier : List Time) :
    (∃ start, (current length earlier).getLast? = some start ∧
        ¬ start + length ≤ time ∧
        current length (time :: earlier) =
          time :: current length earlier) ∨
      (((current length earlier).getLast? = none ∨
          ∃ start, (current length earlier).getLast? = some start ∧
            start + length ≤ time) ∧
        current length (time :: earlier) = [time]) := by
  cases hlast : (current length earlier).getLast? with
  | none => exact .inr ⟨.inl rfl, by simp [current, hlast]⟩
  | some start =>
      by_cases hover : start + length ≤ time
      · exact .inr ⟨.inr ⟨start, rfl, hover⟩, by simp [current, hlast, hover]⟩
      · exact .inl ⟨start, rfl, hover, by simp [current, hlast, hover]⟩

/-- The counter of the store is the counter of the current window. -/
theorem record_counter (now : Time) (events : List Time) :
    record length now (counter length events) =
      ((current length (now :: events)).length,
        counter length (now :: events)) := by
  rcases current_cons length now events with
    ⟨start, hlast, hopen, hcons⟩ | ⟨hclosed, hcons⟩
  · have hne : current length events ≠ [] := by
      rintro hnil
      simp [hnil] at hlast
    have hlast' : (now :: current length events).getLast? = some start := by
      rw [List.getLast?_cons, hlast]
      rfl
    simp [record, counter, hcons, hlast, hlast', Slot.incr, Slot.lapsed,
      hopen, hne]
  · have hincr : (counter length events).incr now = (1, some ⟨1, none⟩) := by
      rcases hclosed with hnone | ⟨start, hlast, hover⟩
      · simp [counter, hnone, Slot.incr]
      · simp [counter, hlast, Slot.incr, Slot.lapsed, hover]
    simp only [record, hincr, if_true]
    simp [counter, hcons, Slot.expire, Slot.get, Slot.lapsed]

theorem current_sublist (events : List Time) :
    (current length events).Sublist events := by
  induction events with
  | nil => exact .slnil
  | cons time earlier ih =>
      rcases current_cons length time earlier with
        ⟨start, -, -, hcons⟩ | ⟨-, hcons⟩
      · rw [hcons]
        exact ih.cons_cons time
      · rw [hcons]
        exact (List.nil_sublist earlier).cons_cons time

omit [Add Time] in
/-- The last element of a newest-first list is its oldest event. -/
theorem getLast?_le {events : List Time}
    (hordered : events.Pairwise (· ≥ ·)) {start : Time}
    (hlast : events.getLast? = some start) :
    ∀ time ∈ events, start ≤ time := by
  obtain ⟨before, rfl⟩ := List.getLast?_eq_some_iff.mp hlast
  intro time hmem
  rcases List.mem_append.mp hmem with hbefore | hstart
  · exact (List.pairwise_append.mp hordered).2.2 time hbefore start
      (List.mem_singleton_self start)
  · exact (List.mem_singleton.mp hstart).ge

/-- Every event of the current window is less than its length old. -/
theorem recent_of_mem_current [AddRightMono Time]
    (hlength : ∀ time : Time, time < time + length)
    {now : Time} {earlier : List Time}
    (hordered : (now :: earlier).Pairwise (· ≥ ·)) :
    ∀ time ∈ current length (now :: earlier), now < time + length := by
  intro time hmem
  rcases current_cons length now earlier with
    ⟨start, hlast, hopen, hcons⟩ | ⟨-, hcons⟩
  · rw [hcons] at hmem
    rcases List.mem_cons.mp hmem with rfl | hmem
    · exact hlength time
    · have hsorted : (current length earlier).Pairwise (· ≥ ·) :=
        (List.pairwise_cons.mp hordered).2.sublist
          (current_sublist length earlier)
      have hstart := getLast?_le hsorted hlast time hmem
      exact (not_le.mp hopen).trans_le (by gcongr)
  · rw [hcons, List.mem_singleton] at hmem
    exact hmem ▸ hlength now

/-- The current window holds at most the events of the sliding window. -/
theorem length_current_le [AddRightMono Time]
    (hlength : ∀ time : Time, time < time + length)
    {now : Time} {earlier : List Time}
    (hordered : (now :: earlier).Pairwise (· ≥ ·)) :
    (current length (now :: earlier)).length ≤
      (now :: earlier).countP fun time => now < time + length := by
  calc
    (current length (now :: earlier)).length =
        (current length (now :: earlier)).countP
          fun time => now < time + length := by
      symm
      rw [List.countP_eq_length]
      simpa using recent_of_mem_current length hlength hordered
    _ ≤ (now :: earlier).countP fun time => now < time + length :=
      (current_sublist length (now :: earlier)).countP_le

end UTTG.FixedWindow
