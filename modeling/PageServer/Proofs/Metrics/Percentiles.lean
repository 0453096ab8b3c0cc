import Mathlib
import PageServer.Metrics.Latency

/-!
# Summaries of samples

Of the samples recorded the latest are kept.  Their percentiles are read off at places of
the sorted samples, which are in range however many samples there are, and their mean lies
between the least of them and the greatest.
-/

namespace PageServer
namespace Metrics

/-- The last samples that are kept. -/
def latest (samples : List Nat) : List Nat :=
  samples.drop (samples.length - maxSamples)

/-- A summary of samples: three places of the sorted samples and their mean. -/
structure Summarizes (samples : List Nat) (s : LatencySummary) : Prop where
  count : s.samples = samples.length
  none : samples = [] → s = {}
  /-- The percentiles stand in the sorted samples, each within their range. -/
  ranked : samples ≠ [] → ∃ sorted : List Nat, sorted.Perm samples ∧ sorted.Pairwise (· ≤ ·) ∧
    sorted[samples.length * 50 / 100]? = some s.p50 ∧
    sorted[samples.length * 95 / 100]? = some s.p95 ∧
    sorted[samples.length * 99 / 100]? = some s.p99
  rising : s.p50 ≤ s.p95 ∧ s.p95 ≤ s.p99
  taken : samples ≠ [] → s.p50 ∈ samples ∧ s.p95 ∈ samples ∧ s.p99 ∈ samples
  mean : s.average = samples.sum / samples.length
  least_le : ∀ least ∈ samples.min?, least ≤ s.average
  le_greatest : ∀ greatest ∈ samples.max?, s.average ≤ greatest

/-! ## The samples that are kept -/

/-- The sample that comes in last is kept, and the oldest one where there is room for it
as well. -/
theorem toList_recordSample {samples : Array Nat} {all : List Nat}
    (h : samples.toList = latest all) (sample : Nat) :
    (recordSample samples sample).toList = latest (all ++ [sample]) := by
  have hpos : 0 < maxSamples := by decide
  have hsize : samples.size = all.length - (all.length - maxSamples) := by
    rw [← Array.length_toList, h, latest, List.length_drop]
  have hlatest : latest (all ++ [sample]) =
      all.drop (all.length + 1 - maxSamples) ++ [sample] := by
    rw [latest, List.length_append, List.length_singleton]
    exact List.drop_append_of_le_length (by omega)
  rw [recordSample, Array.toList_push, hlatest]
  split
  · next hfull =>
    have hoffset : all.length - maxSamples + 1 = all.length + 1 - maxSamples := by omega
    rw [Array.toList_extract, List.extract_eq_take_drop, List.take_of_length_le (by simp), h,
      latest, List.drop_drop, hoffset]
  · next hroom =>
    have hoffset : all.length + 1 - maxSamples = all.length - maxSamples := by omega
    rw [h, latest, hoffset]

theorem latest_map (f : Nat → Nat) (samples : List Nat) :
    latest (samples.map f) = (latest samples).map f := by
  rw [latest, latest, List.length_map, List.map_drop]

/-- Samples that sum up to a word are words. -/
theorem map_mod_eq_self {samples : List Nat} (h : samples.sum < wordRange) :
    samples.map (· % wordRange) = samples := by
  have hword : ∀ x ∈ samples, x % wordRange = id x := by
    intro x hx
    exact Nat.mod_eq_of_lt (Nat.lt_of_le_of_lt (List.le_sum_of_mem hx) h)
  rw [List.map_congr_left hword, List.map_id]

/-! ## The summary of samples -/

theorem mean_ge {samples : List Nat} {least : Nat} (hleast : least ∈ samples.min?) :
    least ≤ samples.sum / samples.length := by
  obtain ⟨hmem, hle⟩ := List.min?_eq_some_iff.mp hleast
  rw [Nat.le_div_iff_mul_le (List.length_pos_of_mem hmem), Nat.mul_comm]
  exact List.card_nsmul_le_sum samples least hle

theorem mean_le {samples : List Nat} {greatest : Nat} (hgreatest : greatest ∈ samples.max?) :
    samples.sum / samples.length ≤ greatest := by
  obtain ⟨hmem, hle⟩ := List.max?_eq_some_iff.mp hgreatest
  apply Nat.div_le_of_le_mul
  exact List.sum_le_card_nsmul samples greatest hle

/-- A percentile stands at its place in the sorted samples. -/
theorem percentile_eq {sorted : List Nat} {q : Nat} (hne : sorted ≠ []) (hq : q < 100) :
    sorted[sorted.length * q / 100]? = some (percentile sorted.toArray q) := by
  have hpos := List.length_pos_of_ne_nil hne
  have hplace : sorted.length * q / 100 < sorted.length := by
    rw [Nat.div_lt_iff_lt_mul (by decide)]
    exact Nat.mul_lt_mul_of_pos_left hq hpos
  rw [percentile, List.size_toArray, List.getElem?_eq_getElem hplace]
  simp [hplace]

theorem percentile_mono {sorted : List Nat} (hsorted : sorted.Pairwise (· ≤ ·)) {q r : Nat}
    (hqr : q ≤ r) (hr : r < 100) :
    percentile sorted.toArray q ≤ percentile sorted.toArray r := by
  by_cases hne : sorted = []
  · subst hne
    exact Nat.le_refl _
  · have hlow := percentile_eq hne (Nat.lt_of_le_of_lt hqr hr)
    have hhigh := percentile_eq hne hr
    obtain ⟨hi, hi'⟩ := List.getElem?_eq_some_iff.mp hlow
    obtain ⟨hj, hj'⟩ := List.getElem?_eq_some_iff.mp hhigh
    rw [← hi', ← hj']
    have hle : sorted.length * q / 100 ≤ sorted.length * r / 100 :=
      Nat.div_le_div_right (Nat.mul_le_mul_left _ hqr)
    exact hsorted.rel_get_of_le (a := ⟨_, hi⟩) (b := ⟨_, hj⟩) hle

/-- The same samples in order are all that a summary needs. -/
theorem summarizes_of_sorted {samples sorted : List Nat} (hperm : sorted.Perm samples)
    (hsorted : sorted.Pairwise (· ≤ ·)) :
    Summarizes samples {
      p50 := percentile sorted.toArray 50
      p95 := percentile sorted.toArray 95
      p99 := percentile sorted.toArray 99
      average := samples.sum / samples.length
      samples := samples.length } := by
  have hplace (hne : samples ≠ []) {q : Nat} (hq : q < 100) :
      sorted[samples.length * q / 100]? = some (percentile sorted.toArray q) := by
    have hne' : sorted ≠ [] := by
      rintro rfl
      exact hne (List.nil_perm.mp hperm)
    rw [← hperm.length_eq]
    exact percentile_eq hne' hq
  have htaken (hne : samples ≠ []) {q : Nat} (hq : q < 100) :
      percentile sorted.toArray q ∈ samples :=
    hperm.mem_iff.mp (List.mem_of_getElem? (hplace hne hq))
  constructor
  · rfl
  · rintro rfl
    obtain rfl := List.perm_nil.mp hperm
    rfl
  · intro hne
    exact ⟨sorted, hperm, hsorted, hplace hne (by decide), hplace hne (by decide),
      hplace hne (by decide)⟩
  · exact ⟨percentile_mono hsorted (by decide) (by decide),
      percentile_mono hsorted (by decide) (by decide)⟩
  · intro hne
    exact ⟨htaken hne (by decide), htaken hne (by decide), htaken hne (by decide)⟩
  · rfl
  · exact fun least hleast => mean_ge hleast
  · exact fun greatest hgreatest => mean_le hgreatest

theorem summarizes_ofSamples (samples : Array Nat) :
    Summarizes samples.toList (LatencySummary.ofSamples samples) :=
  summarizes_of_sorted (List.mergeSort_perm _ _) (List.pairwise_mergeSort' (· ≤ ·) _)

end Metrics
end PageServer
