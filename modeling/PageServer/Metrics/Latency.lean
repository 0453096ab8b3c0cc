import PageServer.Fault

/-!
# Latencies

The latest response times in whole microseconds, and their percentiles. Times are in
nanoseconds until they are recorded.
-/

namespace PageServer
namespace Metrics

/-- Samples that are kept at most. -/
def maxSamples : Nat :=
  10000

/-- A time in whole microseconds, as a word. -/
def micros (nanos : Nat) : Nat :=
  nanos / 1000 % wordRange

def total (samples : List Nat) : Nat :=
  samples.foldr (· + ·) 0

/-- Records a sample, oldest first, and lets the oldest one go where there are too many. -/
def recordSample (samples : Array Nat) (sample : Nat) : Array Nat :=
  (if maxSamples ≤ samples.size then samples.extract 1 samples.size else samples).push sample

structure LatencySummary where
  p50 : Nat := 0
  p95 : Nat := 0
  p99 : Nat := 0
  average : Nat := 0
  samples : Nat := 0
  deriving DecidableEq, Repr

/-- The sample below which `q` in a hundred samples lie. -/
def percentile (sorted : Array Nat) (q : Nat) : Nat :=
  sorted.getD (sorted.size * q / 100) 0

namespace LatencySummary

/-- All zero where there are no samples. -/
def ofSamples (samples : Array Nat) : LatencySummary :=
  let sorted := (samples.toList.mergeSort (· ≤ ·)).toArray
  { p50 := percentile sorted 50
    p95 := percentile sorted 95
    p99 := percentile sorted 99
    average := total samples.toList / samples.size
    samples := samples.size }

end LatencySummary
end Metrics
end PageServer
