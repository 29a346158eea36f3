import UTTG.Analytics.Aggregate
import UTTG.Core.Table

/-!
# The table of metric buckets

`_writer` adds the rows of `_aggregate` to `endpoint_metric_buckets`.  The fold
over a batch and the merge of the statement add up the same totals, so that the
table depends on the metrics only, and not on the batches they came in.
-/

namespace UTTG.Analytics

open Python

section Writer

variable {F : Type} [Zero F] [Add F] [Max F]

/-- What `_writer` takes from the queue: `batch = [first]` and more. -/
structure Batch (F : Type) where
  first : Metric F
  rest : List (Metric F)

def Batch.metrics (batch : Batch F) : List (Metric F) :=
  batch.first :: batch.rest

omit [Zero F] in
/-- The `set_` of the statement, for a row that is there. -/
def Bucket.merge (excluded row : Bucket F) : Bucket F :=
  { row with
    requestCount := row.requestCount + excluded.requestCount
    serverErrorCount := row.serverErrorCount + excluded.serverErrorCount
    durationSumMs := row.durationSumMs + excluded.durationSumMs
    durationMaxMs := max row.durationMaxMs excluded.durationMaxMs
    responseBytes := row.responseBytes + excluded.responseBytes
    cacheHitCount := row.cacheHitCount + excluded.cacheHitCount }

/-- The primary key of `endpoint_metric_buckets`. -/
abbrev Buckets (F : Type) := Table (Bucket.key : Bucket F → BucketKey)

/-- The transaction of `_writer`. -/
def write (table : Buckets F) (batch : Batch F) : Option (Buckets F) :=
  table.insertOnConflict id Bucket.merge (fun _ _ => rfl)
    (aggregate batch.metrics)

end Writer

/-! ## Totals -/

section Totals

variable {F : Type} [AddCommMonoid F] [LinearOrder F] [OrderBot F]

/-- The row for the metrics of one minute, route and method. -/
def totals (key : BucketKey) (own : Multiset (Metric F)) : Bucket F where
  bucket := key.1
  route := key.2.1
  method := key.2.2
  requestCount := own.card
  serverErrorCount := own.countP fun metric => 500 ≤ metric.statusCode
  durationSumMs := (own.map Metric.durationMs).sum
  durationMaxMs := (own.map Metric.durationMs).sup
  responseBytes := (own.map Metric.responseBytes).sum
  cacheHitCount := own.countP fun metric =>
    metric.cacheState = some (text "fresh")

/-- The metrics of one minute, route and method. -/
def under (key : BucketKey) (metrics : Multiset (Metric F)) :
    Multiset (Metric F) :=
  metrics.filter fun metric => metric.key = key

/-- The row that the table has to show for these metrics, if any. -/
def expected (metrics : Multiset (Metric F)) (key : BucketKey) :
    Option (Bucket F) :=
  if (under key metrics).card = 0 then none
  else some (totals key (under key metrics))

@[simp]
theorem totals_key (key : BucketKey) (own : Multiset (Metric F)) :
    (totals key own).key = key :=
  rfl

/-- The merge of the statement adds totals up. -/
theorem merge_totals (key : BucketKey) (more own : Multiset (Metric F)) :
    (totals key more).merge (totals key own) = totals key (own + more) := by
  simp [totals, Bucket.merge, Multiset.sup_add]

omit [AddCommMonoid F] [LinearOrder F] [OrderBot F] in
theorem under_add (key : BucketKey) (left right : Multiset (Metric F)) :
    under key (left + right) = under key left + under key right :=
  Multiset.filter_add _ left right

omit [AddCommMonoid F] [LinearOrder F] [OrderBot F] in
theorem mem_under {key : BucketKey} {metrics : Multiset (Metric F)}
    {metric : Metric F} :
    metric ∈ under key metrics ↔ metric ∈ metrics ∧ metric.key = key :=
  Multiset.mem_filter

/-- Two lots of metrics: what is expected of each, merged. -/
theorem expected_add (left right : Multiset (Metric F)) (key : BucketKey) :
    expected (left + right) key =
      (expected right key).elim (expected left key) fun excluded =>
        some ((expected left key).elim excluded excluded.merge) := by
  unfold expected
  rw [under_add, Multiset.card_add]
  by_cases hleft : (under key left).card = 0
  · have hnone := Multiset.card_eq_zero.mp hleft
    by_cases hright : (under key right).card = 0
    · simp [hleft, hright]
    · simp [hnone, hright]
  · by_cases hright : (under key right).card = 0
    · have hnone := Multiset.card_eq_zero.mp hright
      simp [hnone, hleft]
    · simp [hleft, hright, merge_totals]

/-- One metric more. -/
theorem expected_cons (metric : Metric F) (metrics : Multiset (Metric F))
    (key : BucketKey) :
    expected (metric ::ₘ metrics) key =
      if key = metric.key then
        some (totals key (metric ::ₘ under key metrics))
      else expected metrics key := by
  unfold expected under
  by_cases hkey : key = metric.key
  · simp [hkey]
  · simp [hkey, Ne.symm hkey]

theorem getD_expected (metrics : Multiset (Metric F)) (key : BucketKey) :
    (expected metrics key).getD (totals key 0) =
      totals key (under key metrics) := by
  unfold expected
  split
  · next hnone => rw [Option.getD_none, Multiset.card_eq_zero.mp hnone]
  · rw [Option.getD_some]

theorem expected_key {metrics : Multiset (Metric F)} {key : BucketKey}
    {row : Bucket F} (hrow : expected metrics key = some row) :
    row.key = key := by
  unfold expected at hrow
  split at hrow
  · simp at hrow
  · rw [← Option.some.inj hrow, totals_key]

end Totals

/-! ## One batch -/

/-- A metric in a row is the total of one more metric. -/
theorem add_totals (own : Multiset (Metric ℚ≥0)) (metric : Metric ℚ≥0) :
    (totals metric.key own).add metric = totals metric.key (metric ::ₘ own) := by
  simp [totals, Bucket.add, Multiset.countP_cons, add_comm, max_comm]

/-- The row that `setdefault` starts with. -/
theorem start_eq_totals (metric : Metric ℚ≥0) :
    metric.start = totals metric.key 0 := by
  simp [Metric.start, totals, Metric.key]

/-- The fold over a batch arrives at the totals of its metrics. -/
theorem get_foldl_collect (batch : List (Metric ℚ≥0)) (key : BucketKey) :
    Dict.get (batch.foldl collect []) key =
      expected (batch : Multiset (Metric ℚ≥0)) key := by
  induction batch using List.reverseRecOn generalizing key with
  | nil => rfl
  | append_singleton batch metric ih =>
      have hmore : ((batch ++ [metric] : List (Metric ℚ≥0)) :
          Multiset (Metric ℚ≥0)) = metric ::ₘ (batch : Multiset _) := by
        rw [← Multiset.coe_add, add_comm, Multiset.coe_singleton,
          Multiset.singleton_add]
      rw [List.foldl_append, List.foldl_cons, List.foldl_nil, collect,
        Dict.get_set, hmore, expected_cons, ih, ih, start_eq_totals,
        getD_expected, add_totals]
      split
      · next hkey => rw [hkey]
      · rfl

/-- The rows of a batch are those of its totals. -/
theorem mem_aggregate_iff (batch : List (Metric ℚ≥0)) (row : Bucket ℚ≥0) :
    row ∈ aggregate batch ↔
      expected (batch : Multiset (Metric ℚ≥0)) row.key = some row := by
  have hnil : Dict.Keyed Bucket.key ([] : Dict BucketKey (Bucket ℚ≥0)) :=
    Dict.keyed_nil
  have hkeyed := keyed_foldl_collect batch hnil
  rw [← get_foldl_collect, Dict.get_eq_some_iff hkeyed.distinct]
  constructor
  · intro hrow
    obtain ⟨⟨key, found⟩, hitem, rfl⟩ := List.mem_map.mp hrow
    have hkey : found.key = key := hkeyed.key_of_mem hitem
    rw [hkey]
    exact hitem
  · intro hitem
    exact List.mem_map_of_mem (f := Prod.snd) hitem

/-! ## Any batches -/

/-- A batch is written, and adds its totals to what is expected of the
table. -/
theorem find_write {table : Buckets ℚ≥0} {metrics : Multiset (Metric ℚ≥0)}
    (htable : ∀ key, table.find key = expected metrics key)
    (batch : Batch ℚ≥0) :
    ∃ next, write table batch = some next ∧ ∀ key,
      next.find key = expected (metrics + (batch.metrics : Multiset _)) key := by
  have hdistinct := nodup_aggregate batch.metrics
  refine ⟨_, if_pos hdistinct, fun key => ?_⟩
  rw [expected_add]
  cases hrow : expected (batch.metrics : Multiset (Metric ℚ≥0)) key with
  | none =>
      have habsent : key ∉ (aggregate batch.metrics).map Bucket.key := by
        intro hmem
        obtain ⟨row, hrow', hkey⟩ := List.mem_map.mp hmem
        have hsome := (mem_aggregate_iff _ _).mp hrow'
        rw [hkey, hrow] at hsome
        simp at hsome
      exact (Table.find_upsertAll_of_not_mem habsent table).trans (htable key)
  | some row =>
      have hkey := expected_key hrow
      have hmem : row ∈ aggregate batch.metrics := by
        rw [mem_aggregate_iff, hkey]
        exact hrow
      have hfind : (table.upsertAll id Bucket.merge (fun _ _ => rfl)
          (aggregate batch.metrics)).find row.key = _ :=
        Table.find_upsertAll_of_mem hdistinct hmem table
      simp only [hkey, htable] at hfind
      exact hfind

/-- Batches are written one after the other, in the order of their
transactions. -/
theorem find_foldlM_write (batches : List (Batch ℚ≥0))
    {table : Buckets ℚ≥0} {metrics : Multiset (Metric ℚ≥0)}
    (htable : ∀ key, table.find key = expected metrics key) :
    ∃ final, batches.foldlM write table = some final ∧ ∀ key,
      final.find key =
        expected (metrics + (batches.flatMap Batch.metrics : Multiset _))
          key := by
  induction batches generalizing table metrics with
  | nil => exact ⟨table, rfl, by simpa using htable⟩
  | cons batch rest ih =>
      obtain ⟨next, hwrite, hnext⟩ := find_write htable batch
      obtain ⟨final, hrest, hfinal⟩ := ih hnext
      refine ⟨final, ?_, fun key => ?_⟩
      · rw [List.foldlM_cons, hwrite]
        exact hrest
      · rw [hfinal, List.flatMap_cons, ← Multiset.coe_add, add_assoc]

/-- The maximum of a non-empty multiset is one of its elements. -/
theorem sup_mem_of_ne_zero {durations : Multiset ℚ≥0}
    (hdurations : durations ≠ 0) : durations.sup ∈ durations := by
  induction durations using Multiset.induction_on with
  | empty => exact absurd rfl hdurations
  | cons duration rest ih =>
      rw [Multiset.sup_cons, Multiset.mem_cons]
      by_cases hrest : rest = 0
      · left
        rw [hrest, Multiset.sup_zero, sup_bot_eq]
      · rcases le_total duration rest.sup with hle | hle
        · right
          rw [sup_eq_right.mpr hle]
          exact ih hrest
        · left
          exact sup_eq_left.mpr hle

/-- The maximum of a row is the longest duration among its metrics. -/
theorem isGreatest_of_expected {metrics : Multiset (Metric ℚ≥0)}
    {key : BucketKey} {row : Bucket ℚ≥0}
    (hrow : expected metrics key = some row) :
    IsGreatest {duration | ∃ metric ∈ metrics, metric.key = key ∧
      metric.durationMs = duration} row.durationMaxMs := by
  unfold expected at hrow
  split at hrow
  case isTrue => simp at hrow
  case isFalse hown =>
    obtain rfl := Option.some.inj hrow
    constructor
    · have hmap : (under key metrics).map Metric.durationMs ≠ 0 := by
        rw [ne_eq, Multiset.map_eq_zero]
        exact fun hzero => hown (Multiset.card_eq_zero.mpr hzero)
      obtain ⟨metric, hmetric, hduration⟩ :=
        Multiset.mem_map.mp (sup_mem_of_ne_zero hmap)
      obtain ⟨hmem, hkey⟩ := mem_under.mp hmetric
      exact ⟨metric, hmem, hkey, hduration⟩
    · rintro duration ⟨metric, hmem, hkey, rfl⟩
      exact Multiset.le_sup
        (Multiset.mem_map_of_mem _ (mem_under.mpr ⟨hmem, hkey⟩))

/-- Whatever batches the metrics are written in, and in whatever order, each
minute, route and method with a metric has one row, with the totals and the
maximum of its metrics, the others have none, and the table is the one that a
single batch gives. -/
theorem buckets_exact (metrics : List (Metric ℚ≥0))
    (batches : List (Batch ℚ≥0))
    (hsplit : (batches.flatMap Batch.metrics).Perm metrics) :
    ∃ table ∈ batches.foldlM write Table.empty,
      (∀ key, table.find key = expected (metrics : Multiset _) key) ∧
      (∀ row ∈ table.rows,
        IsGreatest {duration | ∃ metric ∈ metrics, metric.key = row.key ∧
          metric.durationMs = duration} row.durationMaxMs) ∧
      ∀ whole : Batch ℚ≥0, whole.metrics = metrics →
        ∃ single ∈ write Table.empty whole,
          single.rows.Perm table.rows := by
  have hempty : ∀ key, (Table.empty : Buckets ℚ≥0).find key =
      expected 0 key := fun key => rfl
  obtain ⟨table, hwritten, hfind⟩ := find_foldlM_write batches hempty
  have htable : ∀ key,
      table.find key = expected (metrics : Multiset _) key := by
    intro key
    rw [hfind, zero_add, Multiset.coe_eq_coe.mpr hsplit]
  refine ⟨table, hwritten, htable, fun row hrow => ?_, fun whole hwhole => ?_⟩
  · have hfound : table.find row.key = some row :=
      (table.find_eq_some_iff row.key row).mpr ⟨hrow, rfl⟩
    rw [htable] at hfound
    exact isGreatest_of_expected hfound
  · obtain ⟨single, hsingle, hsame⟩ := find_write hempty whole
    refine ⟨single, hsingle, Table.perm_of_find fun key => ?_⟩
    rw [hsame, htable, zero_add, hwhole]

def freshMetric : Metric ℚ≥0 :=
  ⟨90000000, text "/v1/satellites", text "GET", 200, 4, 100,
    some (text "fresh")⟩

def failedMetric : Metric ℚ≥0 :=
  ⟨95000000, text "/v1/satellites", text "GET", 503, 9, 50, none⟩

/-- Two metrics of one minute, in batches of their own. -/
theorem two_batches_exact :
    ∃ table ∈ [⟨failedMetric, []⟩, ⟨freshMetric, []⟩].foldlM write Table.empty,
      (∀ key, table.find key = expected
        (([freshMetric, failedMetric] : List (Metric ℚ≥0)) : Multiset _)
          key) ∧
      (∀ row ∈ table.rows,
        IsGreatest {duration | ∃ metric ∈ [freshMetric, failedMetric],
          metric.key = row.key ∧ metric.durationMs = duration}
          row.durationMaxMs) ∧
      ∀ whole : Batch ℚ≥0, whole.metrics = [freshMetric, failedMetric] →
        ∃ single ∈ write Table.empty whole, single.rows.Perm table.rows :=
  buckets_exact [freshMetric, failedMetric]
    [⟨failedMetric, []⟩, ⟨freshMetric, []⟩] (List.Perm.swap _ _ [])

end UTTG.Analytics
