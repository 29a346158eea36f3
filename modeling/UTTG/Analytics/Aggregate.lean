import UTTG.Python.Dict
import UTTG.Python.Text

/-!
# Metric buckets

`_aggregate` sums the metrics of a batch by minute, route and method.  Floats
are any type with an addition and a maximum of its own.
-/

namespace UTTG.Analytics

open Python

/-- Instants in microseconds. -/
abbrev Instant := ℤ

/-- One finished request. -/
structure Metric (F : Type) where
  timestamp : Instant
  route : Text
  method : Text
  statusCode : ℕ
  durationMs : F
  responseBytes : ℕ
  cacheState : Option Text

/-- A row for `endpoint_metric_buckets`. -/
structure Bucket (F : Type) where
  bucket : Instant
  route : Text
  method : Text
  requestCount : ℕ
  serverErrorCount : ℕ
  durationSumMs : F
  durationMaxMs : F
  responseBytes : ℕ
  cacheHitCount : ℕ

abbrev BucketKey := Instant × Text × Text

variable {F : Type} [Zero F] [Add F] [Max F]

omit [Zero F] [Add F] [Max F] in
/-- `(bucket, route, method)`. -/
def Bucket.key (row : Bucket F) : BucketKey :=
  (row.bucket, row.route, row.method)

/-- `timestamp.replace(second=0, microsecond=0)` in UTC. -/
def minuteOf (timestamp : Instant) : Instant :=
  timestamp - timestamp % 60000000

omit [Zero F] [Add F] [Max F] in
def Metric.key (metric : Metric F) : BucketKey :=
  (minuteOf metric.timestamp, metric.route, metric.method)

/-- The default of `setdefault`. -/
def Metric.start (metric : Metric F) : Bucket F where
  bucket := minuteOf metric.timestamp
  route := metric.route
  method := metric.method
  requestCount := 0
  serverErrorCount := 0
  durationSumMs := 0
  durationMaxMs := 0
  responseBytes := 0
  cacheHitCount := 0

/-- The six updates of a row. -/
def Bucket.add (row : Bucket F) (metric : Metric F) : Bucket F :=
  { row with
    requestCount := row.requestCount + 1
    serverErrorCount := row.serverErrorCount +
      if 500 ≤ metric.statusCode then 1 else 0
    durationSumMs := row.durationSumMs + metric.durationMs
    durationMaxMs := max row.durationMaxMs metric.durationMs
    responseBytes := row.responseBytes + metric.responseBytes
    cacheHitCount := row.cacheHitCount +
      if metric.cacheState = some (text "fresh") then 1 else 0 }

/-- One turn of the loop of `_aggregate`. -/
def collect (buckets : Dict BucketKey (Bucket F)) (metric : Metric F) :
    Dict BucketKey (Bucket F) :=
  let row := (Dict.get buckets metric.key).getD metric.start
  Dict.set buckets metric.key (row.add metric)

/-- `_aggregate`. -/
def aggregate (batch : List (Metric F)) : List (Bucket F) :=
  Dict.values (batch.foldl collect [])

theorem keyed_collect {buckets : Dict BucketKey (Bucket F)}
    (hkeyed : Dict.Keyed Bucket.key buckets) (metric : Metric F) :
    Dict.Keyed Bucket.key (collect buckets metric) := by
  refine hkeyed.set ?_
  cases hrow : Dict.get buckets metric.key with
  | none => rfl
  | some row => exact hkeyed.key_of_mem (Dict.mem_of_get hrow)

theorem keyed_foldl_collect (batch : List (Metric F))
    {buckets : Dict BucketKey (Bucket F)}
    (hkeyed : Dict.Keyed Bucket.key buckets) :
    Dict.Keyed Bucket.key (batch.foldl collect buckets) := by
  induction batch generalizing buckets with
  | nil => exact hkeyed
  | cons metric rest ih => exact ih (keyed_collect hkeyed metric)

/-- The rows of a batch have distinct keys. -/
theorem nodup_aggregate (batch : List (Metric F)) :
    ((aggregate batch).map Bucket.key).Nodup :=
  (keyed_foldl_collect batch Dict.keyed_nil).nodup

end UTTG.Analytics
