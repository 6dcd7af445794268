import Mathlib.Algebra.GroupWithZero.Nat
import ContentIndex.Metrics

/-
  What reports make of a registry. The metrics that a bulk write reports to are four counters and
  two kinds of histograms; every report adds to a counter what it counts there (`total_record`) and
  to a histogram the values that it has for it (`samples_record`), and nothing else does. So over
  any reports a counter grows by a sum, and a histogram by a list.
-/

namespace ContentIndex

open Number (Double natChars natText readNat_natChars)

/-! ## Names of metrics -/

namespace Number

theorem natText_injective {m n : Nat} (h : natText m = natText n) : m = n := by
  have chars : natChars m = natChars n := String.ofList_injective h
  have read := readNat_natChars m
  rw [chars, readNat_natChars] at read
  exact (Option.some.inj read).symm

end Number

/-- The labels of a metric as they are written in its name. -/
def labelText (labels : List (String × String)) : String :=
  ",".intercalate (labels.map fun (k, v) => k ++ "=" ++ v)

theorem metricName_toList (name : String) (labels : List (String × String)) :
    (metricName name labels).toList =
      "search_sync_".toList ++ (name.toList ++ '\x7b' :: ((labelText labels).toList ++ ['\x7d'])) := by
  simp [metricName, labelText]

/-- Names without a brace are written before the first one, and the labels behind it. -/
theorem metricName_eq_iff {name name' : String} (h : '\x7b' ∉ name.toList)
    (h' : '\x7b' ∉ name'.toList) {labels labels' : List (String × String)} :
    metricName name labels = metricName name' labels' ↔
      name = name' ∧ labelText labels = labelText labels' := by
  constructor
  · intro he
    have front {name : String} (h : '\x7b' ∉ name.toList) (rest : List Char) :
        (name.toList ++ '\x7b' :: rest).takeWhile (· != '\x7b') = name.toList := by
      rw [List.takeWhile_append_of_pos fun c hc => bne_iff_ne.mpr (ne_of_mem_of_not_mem hc h)]
      simp
    have written := congrArg String.toList he
    rw [metricName_toList, metricName_toList] at written
    have behind := List.append_cancel_left written
    have names : name = name' := by
      have fronts := congrArg (List.takeWhile (· != '\x7b')) behind
      rw [front h, front h'] at fronts
      exact String.toList_inj.mp fronts
    subst names
    have braced := List.append_cancel_left behind
    exact ⟨rfl, String.toList_inj.mp (List.append_cancel_right (List.cons.inj braced).2)⟩
  · rintro ⟨rfl, hl⟩
    exact congrArg (fun t => "search_sync_" ++ name ++ "\x7b" ++ t ++ "\x7d") hl

/-- One label tells its value. -/
theorem labelText_one_inj {key value value' : String} :
    labelText [(key, value)] = labelText [(key, value')] ↔ value = value' := by
  constructor
  · intro h
    have written := congrArg String.toList h
    simp only [labelText, List.map_cons, List.map_nil, String.intercalate_singleton,
      String.toList_append] at written
    exact String.toList_inj.mp (List.append_cancel_left written)
  · rintro rfl
    rfl

namespace SortedMap

variable {α : Type}

@[simp] theorem find?_alter_self (m : SortedMap α) (name : String) (f : Option α → α) :
    (m.alter name f).find? name = some (f (m.find? name)) :=
  m.find?_insert_self name _

theorem find?_alter_ne (m : SortedMap α) {name other : String} (h : name ≠ other)
    (f : Option α → α) : (m.alter name f).find? other = m.find? other :=
  m.find?_insert_ne h _

end SortedMap

namespace Registry

/-! ## Totals and samples -/

/-- What a counter has counted. -/
def total (r : Registry) (name : String) : UInt64 :=
  match r.find? name with
  | some (.counter n) => n
  | _ => 0

/-- The samples that a histogram has kept. -/
def samples (r : Registry) (name : String) : List Double :=
  match r.find? name with
  | some (.histogram xs) => xs
  | _ => []

variable (r : Registry) {name other : String}

theorem total_add (n : UInt64) :
    total (r.alter name (Change.apply (.add n))) name = r.total name + n := by
  unfold total
  rw [SortedMap.find?_alter_self]
  rcases r.find? name with _ | (_ | _ | _ | _) <;> simp [Change.apply]

theorem samples_sample (x : Double) :
    samples (r.alter name (Change.apply (.sample x))) name = r.samples name ++ [x] := by
  unfold samples
  rw [SortedMap.find?_alter_self]
  rcases r.find? name with _ | (_ | _ | _ | _) <;> simp [Change.apply]

theorem total_alter_ne (h : name ≠ other) (f : Option Metric → Metric) :
    total (r.alter name f) other = r.total other := by
  unfold total
  rw [r.find?_alter_ne h]

theorem samples_alter_ne (h : name ≠ other) (f : Option Metric → Metric) :
    samples (r.alter name f) other = r.samples other := by
  unfold samples
  rw [r.find?_alter_ne h]

end Registry

/-- The counters of a bulk write. -/
inductive Counter where
  | indexed
  | failed
  | skipped
  | retries
deriving DecidableEq, Repr

/-- The histograms of a bulk write: the lengths of its requests in bytes, and the numbers of entries
that were sent once more, for each attempt. -/
inductive Histogram where
  | bytes
  | resent (attempt : Nat)
deriving DecidableEq, Repr

namespace Counter

def metric : Counter → String
  | indexed => metricName "documents_indexed_total" []
  | failed => metricName "documents_failed_total" []
  | skipped => metricName "documents_skipped_total" []
  | retries => metricName "bulk_retries_total" []

/-- What a report counts. -/
def amount : Counter → Measurement → Nat
  | indexed, .indexed n | failed, .failed n | skipped, .skipped n => n
  | retries, .bulkRetry _ _ => 1
  | _, _ => 0

end Counter

namespace Histogram

def metric : Histogram → String
  | bytes => metricName "bulk_bytes" []
  | resent attempt => metricName "bulk_retry_items" [("attempt", natText attempt)]

/-- The value that a report has for a histogram. -/
def value? : Histogram → Measurement → Option Nat
  | bytes, .bulkBytes n => some n
  | resent k, .bulkRetry attempt n => if attempt = k then some n else none
  | _, _ => none

end Histogram

namespace Registry

theorem total_record (c : Counter) (r : Registry) (m : Measurement) :
    (r.record m).total c.metric = r.total c.metric + .ofNat (c.amount m) := by
  cases c <;> cases m <;>
    simp [record, Measurement.changes, Counter.metric, Counter.amount, total_add, total_alter_ne,
      metricName_eq_iff]

theorem samples_record (g : Histogram) (r : Registry) (m : Measurement) :
    (r.record m).samples g.metric =
      r.samples g.metric ++ (g.value? m).toList.map Double.ofNat := by
  cases g with
  | bytes =>
    cases m <;>
      simp [record, Measurement.changes, Histogram.metric, Histogram.value?, samples_sample,
        samples_alter_ne, metricName_eq_iff]
  | resent k =>
    cases m with
    | bulkRetry attempt n =>
      by_cases h : attempt = k
      · subst h
        simp [record, Measurement.changes, Histogram.metric, Histogram.value?, samples_sample,
          samples_alter_ne, metricName_eq_iff]
      · have apart : metricName "bulk_retry_items" [("attempt", natText attempt)] ≠
            metricName "bulk_retry_items" [("attempt", natText k)] := by
          rw [Ne, metricName_eq_iff (by decide) (by decide), labelText_one_inj]
          exact fun he => h (Number.natText_injective he.2)
        simp [record, Measurement.changes, Histogram.metric, Histogram.value?, samples_alter_ne,
          metricName_eq_iff, apart, h]
    | _ =>
      simp [record, Measurement.changes, Histogram.metric, Histogram.value?, samples_alter_ne,
        metricName_eq_iff]

/-- Over some reports a counter grows by what they count. -/
theorem total_records (c : Counter) (r : Registry) (ms : List Measurement) :
    (ms.foldl record r).total c.metric =
      r.total c.metric + .ofNat (ms.map c.amount).sum := by
  induction ms generalizing r with
  | nil => simp
  | cons m ms ih =>
    rw [List.foldl_cons, ih, total_record, List.map_cons, List.sum_cons, UInt64.ofNat_add]
    exact UInt64.add_assoc _ _ _

/-- Over some reports a histogram grows by the values that they have for it. -/
theorem samples_records (g : Histogram) (r : Registry) (ms : List Measurement) :
    (ms.foldl record r).samples g.metric =
      r.samples g.metric ++ (ms.filterMap g.value?).map Double.ofNat := by
  induction ms generalizing r with
  | nil => simp
  | cons m ms ih =>
    rw [List.foldl_cons, ih, samples_record, List.append_assoc, List.filterMap_cons]
    cases g.value? m <;> rfl

end Registry
end ContentIndex
