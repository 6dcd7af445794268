import ContentIndex.Json.Value

/-
  What the library reports about its own work, and a registry that adds the reports up. A counter
  grows and has 64 bits, a gauge keeps the last value, a histogram keeps every sample. Of requests
  that are timed only the number is kept, not how long they took.
-/

namespace ContentIndex

open Number (Double natText)

/-- One report. -/
inductive Measurement where
  | request (operation status : String)
  | timed (operation : String)
  | indexed (count : Nat)
  | failed (count : Nat)
  | skipped (count : Nat)
  /-- Entries that are sent once more, with the number of the attempt. -/
  | bulkRetry (attempt pending : Nat)
  | bulkBytes (count : Nat)
  | failover (host : String)
  | circuitCall (circuit outcome : String)
  | drained (pending removals : Nat)
  | rebuildOffset (offset : UInt64)
  | rebuildSynced (synced : UInt64)
  | search (outcome : String)
deriving DecidableEq, Repr

/-- What a report does to one metric. -/
inductive Change where
  /-- Adds to a counter, which begins at zero again after its largest value. -/
  | add (count : UInt64)
  | set (value : Double)
  | sample (value : Double)
  | time
deriving DecidableEq, Repr

/-- The state of one metric. -/
inductive Metric where
  | counter (total : UInt64)
  | gauge (value : Double)
  | histogram (samples : List Double)
  | timer (samples : Nat)
deriving DecidableEq, Repr

/-- The name of a metric with its labels, which are given in ascending order. -/
def metricName (name : String) (labels : List (String × String)) : String :=
  let label := fun (k, v) => k ++ "=" ++ v
  "search_sync_" ++ name ++ "\x7b" ++ ",".intercalate (labels.map label) ++ "\x7d"

/-- The changes that a report makes, by the name of the metric. -/
def Measurement.changes : Measurement → List (String × Change)
  | .request op status =>
    [(metricName "requests_total" [("operation", op), ("status", status)], .add 1)]
  | .timed op => [(metricName "request_seconds" [("operation", op)], .time)]
  | .indexed n => [(metricName "documents_indexed_total" [], .add (.ofNat n))]
  | .failed n => [(metricName "documents_failed_total" [], .add (.ofNat n))]
  | .skipped n => [(metricName "documents_skipped_total" [], .add (.ofNat n))]
  | .bulkRetry attempt pending => [
      (metricName "bulk_retries_total" [], .add 1),
      (metricName "bulk_retry_items" [("attempt", natText attempt)], .sample (.ofNat pending))]
  | .bulkBytes n => [(metricName "bulk_bytes" [], .sample (.ofNat n))]
  | .failover host => [(metricName "transport_failovers_total" [("host", host)], .add 1)]
  | .circuitCall circuit outcome => [(metricName "circuit_breaker_calls_total"
      [("circuit", circuit), ("outcome", outcome)], .add 1)]
  | .drained pending removals => [
      (metricName "queue_drain_size" [("kind", "index")], .sample (.ofNat pending)),
      (metricName "queue_drain_size" [("kind", "remove")], .sample (.ofNat removals))]
  | .rebuildOffset n => [(metricName "reindex_offset" [], .set (.ofNat n.toNat))]
  | .rebuildSynced n => [(metricName "reindex_synced" [], .set (.ofNat n.toNat))]
  | .search outcome => [(metricName "searches_total" [("outcome", outcome)], .add 1)]

/-- The metric after a change. A change of another kind starts the metric anew. -/
def Change.apply : Change → Option Metric → Metric
  | .add n, some (.counter m) => .counter (m + n)
  | .add n, _ => .counter n
  | .set x, _ => .gauge x
  | .sample x, some (.histogram xs) => .histogram (xs ++ [x])
  | .sample x, _ => .histogram [x]
  | .time, some (.timer n) => .timer (n + 1)
  | .time, _ => .timer 1

/-- All metrics by name. -/
abbrev Registry := SortedMap Metric

def Registry.record (r : Registry) (m : Measurement) : Registry :=
  m.changes.foldl (fun r c => r.alter c.1 c.2.apply) r

/-! ## JSON form -/

open Json (Value)

/-- The value of a metric: its total, its last value or its samples. -/
def Metric.toJson : Metric → Value
  | .counter n => .ofUInt64 n
  | .gauge x => .ofDouble x
  | .histogram xs => .array (xs.map .ofDouble)
  | .timer n => .ofNat n

def Registry.toJson (r : Registry) : Value :=
  .object (r.entries.map fun (k, m) => (k, m.toJson))

end ContentIndex
