import Mathlib

/-!
# Batches

`_batches` cuts the rows of a job into the rows of single statements.  A value
goes into the batch that its position divided by the batch size names, so keys
are distinct within every batch exactly when values of one block differ.
-/

namespace UTTG.Ingestion

variable {Row Key : Type*}

/-- `_batches`: one slice for each `start in range(0, len(values), size)`. -/
def batches (values : List Row) (size : ℕ) : List (List Row) :=
  (List.range' 0 ((values.length + (size - 1)) / size) size).map fun start =>
    (values.drop start).take size

/-- No two values in one block of `size` positions have the same key. -/
def BlocksDistinct (key : Row → Key) (size : ℕ) (values : List Row) : Prop :=
  ∀ left right, left < right → right < values.length →
    left / size = right / size →
      values[left]?.map key ≠ values[right]?.map key

theorem blocksDistinct_map {Value : Type*} (key : Value → Key)
    (value : Row → Value) (size : ℕ) (rows : List Row) :
    BlocksDistinct key size (rows.map value) ↔
      BlocksDistinct (key ∘ value) size rows := by
  simp only [BlocksDistinct, List.length_map, List.getElem?_map,
    Option.map_map]

theorem mem_batches_iff {values : List Row} {size : ℕ} (hsize : 0 < size)
    {batch : List Row} :
    batch ∈ batches values size ↔
      ∃ block, block * size < values.length ∧
        batch = (values.drop (block * size)).take size := by
  have hcount : ∀ block, block < (values.length + (size - 1)) / size ↔
      block * size < values.length := by
    intro block
    rw [Nat.lt_div_iff_mul_lt hsize]
    omega
  simp only [batches, List.mem_map, List.mem_range', zero_add]
  constructor
  · rintro ⟨start, ⟨block, hblock, rfl⟩, rfl⟩
    refine ⟨block, (hcount block).mp hblock, ?_⟩
    rw [Nat.mul_comm]
  · rintro ⟨block, hblock, rfl⟩
    exact ⟨block * size, ⟨block, (hcount block).mpr hblock,
      Nat.mul_comm block size⟩, rfl⟩

/-- The value at a position of a batch. -/
theorem getElem?_batch {values : List Row} {size block offset : ℕ}
    (hoffset : offset < size) :
    ((values.drop (block * size)).take size)[offset]? =
      values[block * size + offset]? := by
  rw [List.getElem?_take_of_lt hoffset, List.getElem?_drop]

/-- A batch has rows, and at most `size` of them. -/
theorem length_of_mem_batches {values : List Row} {size : ℕ}
    (hsize : 0 < size) {batch : List Row}
    (hbatch : batch ∈ batches values size) :
    batch ≠ [] ∧ batch.length ≤ size := by
  rcases (mem_batches_iff hsize).mp hbatch with ⟨block, hblock, rfl⟩
  refine ⟨List.ne_nil_of_length_pos ?_, List.length_take_le _ _⟩
  rw [List.length_take, List.length_drop]
  omega

theorem nodup_batches_iff (key : Row → Key) {size : ℕ} (hsize : 0 < size)
    (values : List Row) :
    (∀ batch ∈ batches values size, (batch.map key).Nodup) ↔
      BlocksDistinct key size values := by
  constructor
  · intro hnodup left right hlt hright hblock
    have hleftSplit : left = right / size * size + left % size := by
      rw [← hblock, Nat.mul_comm]
      exact (Nat.div_add_mod left size).symm
    have hrightSplit : right = right / size * size + right % size := by
      rw [Nat.mul_comm]
      exact (Nat.div_add_mod right size).symm
    have hbatch := hnodup _ ((mem_batches_iff hsize).mpr
      ⟨right / size, by omega, rfl⟩)
    have hleftOffset := Nat.mod_lt left hsize
    have hrightOffset := Nat.mod_lt right hsize
    have hne := List.nodup_iff_getElem?_ne_getElem?.mp hbatch (left % size)
      (right % size) (by omega) (by
        rw [List.length_map, List.length_take, List.length_drop]
        omega)
    rw [List.getElem?_map, List.getElem?_map, getElem?_batch hleftOffset,
      getElem?_batch hrightOffset, ← hleftSplit, ← hrightSplit] at hne
    exact hne
  · intro hdistinct batch hbatch
    obtain ⟨block, hblock, rfl⟩ := (mem_batches_iff hsize).mp hbatch
    refine List.nodup_iff_getElem?_ne_getElem?.mpr fun left right hlt hright => ?_
    rw [List.length_map, List.length_take, List.length_drop] at hright
    rw [List.getElem?_map, List.getElem?_map, getElem?_batch (by omega),
      getElem?_batch (by omega)]
    refine hdistinct _ _ (by omega) (by omega) ?_
    rw [Nat.mul_comm, Nat.mul_add_div hsize, Nat.mul_add_div hsize,
      Nat.div_eq_of_lt (by omega), Nat.div_eq_of_lt (by omega)]

/-- Rows with distinct keys are distinct in every batch. -/
theorem nodup_of_mem_batches {key : Row → Key} {values : List Row}
    (hnodup : (values.map key).Nodup) {size : ℕ} {batch : List Row}
    (hbatch : batch ∈ batches values size) : (batch.map key).Nodup := by
  obtain ⟨start, -, rfl⟩ := List.mem_map.mp hbatch
  have hsublist : ((values.drop start).take size).Sublist values :=
    (List.take_sublist _ _).trans (List.drop_sublist _ _)
  exact (hsublist.map key).nodup hnodup

/-- Consecutive slices, from any start. -/
theorem flatten_slices (values : List Row) (size count start : ℕ) :
    ((List.range' start count size).map fun start =>
      (values.drop start).take size).flatten =
        (values.drop start).take (count * size) := by
  induction count generalizing start with
  | zero => simp
  | succ count ih =>
      rw [List.range'_succ, List.map_cons, List.flatten_cons, ih,
        ← List.drop_drop, Nat.add_one_mul, Nat.add_comm (count * size) size,
        List.take_add]

/-- The batches concatenate to the rows. -/
theorem flatten_batches (values : List Row) {size : ℕ} (hsize : 0 < size) :
    (batches values size).flatten = values := by
  rw [batches, flatten_slices, List.drop_zero, List.take_of_length_le]
  have hceiling := Nat.lt_div_mul_add hsize (a := values.length + (size - 1))
  omega

end UTTG.Ingestion
