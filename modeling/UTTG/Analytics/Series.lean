import UTTG.Analytics.Buckets
import UTTG.Core.Grouping
import UTTG.Core.Selection

/-!
# The series of the admin endpoint

`admin_analytics` groups the minute rows of `endpoint_metric_buckets` again, by
minute, hour or day.  Its points are those that the finished requests of the
selected minutes give when they are grouped at once, whatever batches they were
written in.
-/

namespace UTTG.Analytics

open Python Grouping Selection

/-! ## The statement -/

/-- `interval`. -/
inductive Interval where
  | minute
  | hour
  | day
  deriving DecidableEq

/-- The length of an interval in microseconds. -/
def Interval.length : Interval → ℤ
  | .minute => 60000000
  | .hour => 3600000000
  | .day => 86400000000

/-- `date_trunc(interval, instant)` in UTC. -/
def Interval.trunc (interval : Interval) (instant : Instant) : Instant :=
  instant - instant % interval.length

/-- The parameters of the endpoint, after the defaults and the range check. -/
structure SeriesRequest where
  startAt : Instant
  endAt : Instant
  interval : Interval
  route : Option Text

/-- The `WHERE` clause; `if route` leaves an empty route out. -/
def SeriesRequest.Selects (request : SeriesRequest) (key : BucketKey) : Prop :=
  request.startAt ≤ key.1 ∧ key.1 < request.endAt ∧
    ∀ route ∈ request.route, route = [] ∨ key.2.1 = route

instance (request : SeriesRequest) : DecidablePred request.Selects :=
  fun _ => inferInstanceAs (Decidable (_ ∧ _ ∧ _))

/-- `GROUP BY bucket, route, method`. -/
def SeriesRequest.group (request : SeriesRequest) (key : BucketKey) :
    BucketKey :=
  (request.interval.trunc key.1, key.2)

/-- An item of `series`. -/
structure Point where
  bucket : Instant
  route : Text
  method : Text
  requestCount : ℕ
  averageDurationMs : ℚ
  maxDurationMs : ℚ
  serverErrors : ℕ
  responseBytes : ℕ
  cacheHits : ℕ
  deriving DecidableEq

section Series

variable (round3 : ℚ → ℚ) (request : SeriesRequest)

/-- The point for the rows of a group; `round3` is `round(float(value), 3)`, and
`nullif` guards the division. -/
def pointOf (key : BucketKey) (rows : List (Bucket ℚ≥0)) : Point where
  bucket := key.1
  route := key.2.1
  method := key.2.2
  requestCount := (rows.map Bucket.requestCount).sum
  averageDurationMs :=
    if (rows.map Bucket.requestCount).sum = 0 then round3 0
    else round3 ((rows.map Bucket.durationSumMs).sum /
      (rows.map Bucket.requestCount).sum)
  maxDurationMs := round3 ((rows.map Bucket.durationMaxMs).max?.getD 0)
  serverErrors := (rows.map Bucket.serverErrorCount).sum
  responseBytes := (rows.map Bucket.responseBytes).sum
  cacheHits := (rows.map Bucket.cacheHitCount).sum

/-- The rows that the `WHERE` clause leaves. -/
def selectedRows (rows : List (Bucket ℚ≥0)) : List (Bucket ℚ≥0) :=
  rows.filter fun row => request.Selects row.key

/-- One point for each group. -/
def points (rows : List (Bucket ℚ≥0)) : List Point :=
  ((selectedRows request rows).map fun row => request.group row.key).dedup.map
    fun key => pointOf round3 key ((selectedRows request rows).filter
      fun row => request.group row.key = key)

def seriesLimit : ℕ := 5000

/-- `series`: `ORDER BY bucket DESC LIMIT 5000`. -/
def Series (table : Buckets ℚ≥0) (data : List Point) : Prop :=
  Answers (fun point : Point => OrderDual.toDual point.bucket) (fun _ => true)
    seriesLimit (points round3 request table.rows) data

/-! ## The series of the requests themselves -/

/-- The finished requests in the minutes that are selected. -/
def selectedMetrics (metrics : List (Metric ℚ≥0)) : List (Metric ℚ≥0) :=
  metrics.filter fun metric => request.Selects metric.key

/-- The point for some finished requests. -/
def pointOfMetrics (key : BucketKey) (own : Multiset (Metric ℚ≥0)) :
    Point where
  bucket := key.1
  route := key.2.1
  method := key.2.2
  requestCount := own.card
  averageDurationMs :=
    if own.card = 0 then round3 0
    else round3 ((own.map Metric.durationMs).sum / own.card)
  maxDurationMs := round3 (own.map Metric.durationMs).sup
  serverErrors := own.countP fun metric => 500 ≤ metric.statusCode
  responseBytes := (own.map Metric.responseBytes).sum
  cacheHits := own.countP fun metric => metric.cacheState = some (text "fresh")

/-- One point for each interval, route and method with a finished request. -/
def pointsOfMetrics (metrics : List (Metric ℚ≥0)) : List Point :=
  ((selectedMetrics request metrics).map
      fun metric => request.group metric.key).dedup.map
    fun key => pointOfMetrics round3 key
      (((selectedMetrics request metrics).filter
        fun metric => request.group metric.key = key : List _) : Multiset _)

/-- The finished requests of a group of the series. -/
def groupMetrics (metrics : Multiset (Metric ℚ≥0)) (key : BucketKey) :
    Multiset (Metric ℚ≥0) :=
  metrics.filter fun metric =>
    request.Selects metric.key ∧ request.group metric.key = key

end Series

/-! ## The groups of the rows and of the requests -/

section Groups

variable {round3 : ℚ → ℚ} {request : SeriesRequest} {table : Buckets ℚ≥0}
  {metrics : List (Metric ℚ≥0)}

/-- The table has the row of each key with a request, and no other row. -/
theorem stands_of_find
    (htable : ∀ key, table.find key = expected (metrics : Multiset _) key) :
    Stands Metric.key Bucket.key (metrics : Multiset (Metric ℚ≥0))
      table.rows := by
  refine ⟨table.distinct, fun metric hmetric => ?_, fun row hrow => ?_⟩
  · have hown : (under metric.key (metrics : Multiset (Metric ℚ≥0))).card ≠ 0 :=
      (Multiset.card_pos_iff_exists_mem.mpr
        ⟨metric, mem_under.mpr ⟨hmetric, rfl⟩⟩).ne'
    have hfind := htable metric.key
    rw [expected, if_neg hown] at hfind
    obtain ⟨hmem, hkey⟩ := (Table.find_eq_some_iff _ _ _).mp hfind
    exact List.mem_map.mpr ⟨_, hmem, hkey⟩
  · have hfind := (Table.find_eq_some_iff _ _ _).mpr ⟨hrow, rfl⟩
    rw [htable, expected] at hfind
    split at hfind
    case isTrue => simp at hfind
    case isFalse hown =>
      obtain ⟨metric, hmetric⟩ :=
        Multiset.card_pos_iff_exists_mem.mp (Nat.pos_of_ne_zero hown)
      exact ⟨metric, mem_under.mp hmetric⟩

/-- Each row has the totals of its requests. -/
theorem totals_of_find
    (htable : ∀ key, table.find key = expected (metrics : Multiset _) key)
    {row : Bucket ℚ≥0} (hrow : row ∈ table.rows) :
    row = totals row.key (under row.key (metrics : Multiset (Metric ℚ≥0))) := by
  have hfind := (Table.find_eq_some_iff _ _ _).mpr ⟨hrow, rfl⟩
  rw [htable, expected] at hfind
  split at hfind
  · simp at hfind
  · exact (Option.some.inj hfind).symm

/-- The rows of a group. -/
theorem groupRows_eq (rows : List (Bucket ℚ≥0)) (key : BucketKey) :
    ((selectedRows request rows).filter
        fun row => request.group row.key = key) =
      rows.filter fun row =>
        request.Selects row.key ∧ request.group row.key = key := by
  rw [selectedRows, List.filter_filter]
  refine List.filter_congr fun row _ => ?_
  rw [Bool.and_comm, Bool.decide_and]

/-- The point of a group of rows is that of the requests in it. -/
theorem pointOf_eq
    (htable : ∀ key, table.find key = expected (metrics : Multiset _) key)
    (key : BucketKey) :
    pointOf round3 key ((selectedRows request table.rows).filter
        fun row => request.group row.key = key) =
      pointOfMetrics round3 key (groupMetrics request metrics key) := by
  rw [groupRows_eq]
  generalize hrows : (table.rows.filter fun row =>
    decide (request.Selects row.key ∧ request.group row.key = key)) = rows
  have hmem : ∀ row ∈ rows, row = totals row.key
      (under row.key (metrics : Multiset (Metric ℚ≥0))) := by
    intro row hrow
    rw [← hrows] at hrow
    exact totals_of_find htable (List.mem_of_mem_filter hrow)
  have hown : (rows.map fun row =>
        under row.key (metrics : Multiset (Metric ℚ≥0))).sum =
      groupMetrics request metrics key := by
    rw [← hrows]
    exact (stands_of_find htable).sum_own fun value =>
      request.Selects value ∧ request.group value = key
  have hcount : (rows.map Bucket.requestCount).sum =
      (groupMetrics request metrics key).card := by
    rw [← hown]
    exact sum_map_hom Multiset.cardHom fun row hrow =>
      congrArg Bucket.requestCount (hmem row hrow)
  have hduration : (rows.map Bucket.durationSumMs).sum =
      ((groupMetrics request metrics key).map Metric.durationMs).sum := by
    rw [← hown]
    exact sum_map_hom (Multiset.sumAddMonoidHom.comp
      (Multiset.mapAddMonoidHom Metric.durationMs)) fun row hrow =>
        congrArg Bucket.durationSumMs (hmem row hrow)
  have hlongest : (rows.map Bucket.durationMaxMs).max?.getD 0 =
      ((groupMetrics request metrics key).map Metric.durationMs).sup := by
    have hmap : ((rows.map fun row =>
          (under row.key (metrics : Multiset (Metric ℚ≥0))).map
            Metric.durationMs).sum) =
        (groupMetrics request metrics key).map Metric.durationMs := by
      rw [← hown]
      exact sum_map_hom (Multiset.mapAddMonoidHom Metric.durationMs)
        fun _ _ => rfl
    rw [← hmap]
    exact max?_map_sup fun row hrow =>
      congrArg Bucket.durationMaxMs (hmem row hrow)
  have herrors : (rows.map Bucket.serverErrorCount).sum =
      (groupMetrics request metrics key).countP
        fun metric => 500 ≤ metric.statusCode := by
    rw [← hown]
    exact sum_map_hom (Multiset.countPAddMonoidHom _) fun row hrow =>
      congrArg Bucket.serverErrorCount (hmem row hrow)
  have hbytes : (rows.map Bucket.responseBytes).sum =
      ((groupMetrics request metrics key).map Metric.responseBytes).sum := by
    rw [← hown]
    exact sum_map_hom (Multiset.sumAddMonoidHom.comp
      (Multiset.mapAddMonoidHom Metric.responseBytes)) fun row hrow =>
        congrArg Bucket.responseBytes (hmem row hrow)
  have hhits : (rows.map Bucket.cacheHitCount).sum =
      (groupMetrics request metrics key).countP
        fun metric => metric.cacheState = some (text "fresh") := by
    rw [← hown]
    exact sum_map_hom (Multiset.countPAddMonoidHom _) fun row hrow =>
      congrArg Bucket.cacheHitCount (hmem row hrow)
  simp only [pointOf, pointOfMetrics, hcount, hduration, hlongest, herrors,
    hbytes, hhits]

/-- The points are those of the requests, perhaps in another order. -/
theorem points_perm
    (htable : ∀ key, table.find key = expected (metrics : Multiset _) key) :
    (points round3 request table.rows).Perm
      (pointsOfMetrics round3 request metrics) := by
  have hkeys : ((selectedRows request table.rows).map
        fun row => request.group row.key).dedup.Perm
      ((selectedMetrics request metrics).map
        fun metric => request.group metric.key).dedup := by
    rw [List.perm_ext_iff_of_nodup (List.nodup_dedup _) (List.nodup_dedup _)]
    intro key
    rw [List.mem_dedup, List.mem_dedup, List.mem_map, List.mem_map]
    have hcoarse := (stands_of_find htable).mem_coarse_iff request.Selects
      request.group key
    rw [Multiset.filter_coe] at hcoarse
    exact hcoarse
  refine (hkeys.map _).trans (List.Perm.of_eq (List.map_congr_left ?_))
  intro key _
  rw [pointOf_eq htable, selectedMetrics, List.filter_filter, groupMetrics,
    Multiset.filter_coe]
  congr 2
  refine List.filter_congr fun metric _ => ?_
  rw [Bool.decide_and, Bool.and_comm]

end Groups

/-- A whole minute is not between an instant and the start of its minute. -/
theorem le_floor_iff {minute instant : ℤ} (hwhole : 60000000 ∣ minute) :
    minute ≤ instant - instant % 60000000 ↔ minute ≤ instant := by
  omega

/-- Between whole minutes, the requests selected are those in the range. -/
theorem selects_iff_of_aligned {request : SeriesRequest}
    (hstart : 60000000 ∣ request.startAt) (hend : 60000000 ∣ request.endAt)
    (metric : Metric ℚ≥0) :
    request.Selects metric.key ↔
      request.startAt ≤ metric.timestamp ∧ metric.timestamp < request.endAt ∧
        ∀ route ∈ request.route, route = [] ∨ metric.route = route :=
  and_congr (le_floor_iff hstart)
    (and_congr (not_le.symm.trans ((le_floor_iff hend).not.trans not_le))
      Iff.rfl)

/-- Whatever batches the requests are written in, and in whatever order, the
series of the endpoint has the points that the requests of the selected minutes
give when they are grouped at once.  Between whole minutes these are the
requests in the range.  Durations are exact rationals: the last digits of sums
of doubles depend on the batches. -/
theorem series_exact (round3 : ℚ → ℚ) (batches : List (Batch ℚ≥0)) :
    (∃ table ∈ batches.foldlM write Table.empty,
      ∀ request data, Series round3 request table data ↔
        Answers (fun point : Point => OrderDual.toDual point.bucket)
          (fun _ => true) seriesLimit
          (pointsOfMetrics round3 request (batches.flatMap Batch.metrics))
          data) ∧
    ∀ (request : SeriesRequest) (metric : Metric ℚ≥0),
      60000000 ∣ request.startAt → 60000000 ∣ request.endAt →
      (request.Selects metric.key ↔
        request.startAt ≤ metric.timestamp ∧
          metric.timestamp < request.endAt ∧
          ∀ route ∈ request.route, route = [] ∨ metric.route = route) := by
  refine ⟨?_, fun request metric hstart hend =>
    selects_iff_of_aligned hstart hend metric⟩
  have hempty : ∀ key, (Table.empty : Buckets ℚ≥0).find key =
      expected 0 key := fun key => rfl
  obtain ⟨table, hwritten, hfind⟩ := find_foldlM_write batches hempty
  have htable : ∀ key, table.find key =
      expected (batches.flatMap Batch.metrics : Multiset _) key := by
    intro key
    rw [hfind, zero_add]
  refine ⟨table, hwritten, fun request data => ?_⟩
  have hperm := @points_perm round3 request table _ htable
  exact ⟨Answers.of_perm hperm, Answers.of_perm hperm.symm⟩

end UTTG.Analytics
