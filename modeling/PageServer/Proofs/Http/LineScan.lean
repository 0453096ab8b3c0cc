import PageServer.Http.Line

/-!
# Scanning a buffer that fills up

The scanner is asked again whenever more bytes have arrived.  What it says of a line whose
end it has seen does not change by what comes later, and where it has run out of bytes it
goes on from the position it stopped at as if it had scanned the whole line anew.
-/

namespace PageServer
namespace Http

/-- The buffer `grown` has the size of `buf` and the same bytes up to `stop`. -/
structure SameBytes (buf grown : Array UInt8) (stop : Nat) : Prop where
  size : grown.size = buf.size
  getElem? : ∀ i, i < stop → grown[i]? = buf[i]?

variable {buf grown : Array UInt8} {stop more pos : Nat}

theorem SameBytes.mono (h : SameBytes buf grown more) (hle : stop ≤ more) :
    SameBytes buf grown stop := by
  refine ⟨h.size, ?_⟩
  intro i hi
  exact h.getElem? i (Nat.lt_of_lt_of_le hi hle)

theorem SameBytes.extract (h : SameBytes buf grown stop) (start : Nat) :
    grown.extract start stop = buf.extract start stop := by
  apply Array.ext_getElem?
  intro i
  rw [Array.getElem?_extract, Array.getElem?_extract, h.size]
  by_cases hi : i < min stop buf.size - start
  · rw [if_pos hi, if_pos hi]
    exact h.getElem? (start + i) (by omega)
  · rw [if_neg hi, if_neg hi]

theorem scanFeed_grown (h : SameBytes buf grown stop) (hpos : pos < stop) :
    scanFeed grown pos = scanFeed buf pos := by
  by_cases hzero : 0 < pos
  · simp only [scanFeed, h.getElem? (pos - 1) (by omega)]
  · simp only [scanFeed, hzero, false_and, if_false]

theorem scanReturn_grown (h : SameBytes buf grown stop) (hpos : pos < stop) (hle : stop ≤ more)
    (hdone : more = stop ∨ (scanReturn buf stop pos).1 ≠ .ok .unfinished) :
    scanReturn grown more pos = scanReturn buf stop pos := by
  by_cases hlast : pos + 1 = stop
  · have hmore : more = stop := by
      rcases hdone with hmore | hdone
      · exact hmore
      · exact absurd (by simp [scanReturn, hlast]) hdone
    simp only [scanReturn, hmore, hlast, if_true]
  · have hne : pos + 1 ≠ more := by omega
    simp only [scanReturn, hlast, hne, if_false, h.getElem? (pos + 1) (by omega), h.size]

/-- A line end that has been seen stays where it is when bytes are added. -/
theorem scanLine_grown (h : SameBytes buf grown stop) (hle : stop ≤ more)
    (hdone : more = stop ∨ (scanLine buf stop pos).1 ≠ .ok .unfinished) :
    scanLine grown more pos = scanLine buf stop pos := by
  fun_induction scanLine buf stop pos with
  | case1 pos hpos hnone =>
    rw [scanLine, if_pos (by omega), h.getElem? pos hpos, hnone, h.size]
  | case2 pos hpos hcr =>
    rw [scanLine, if_pos (by omega), h.getElem? pos hpos, hcr]
    simp only [if_true]
    exact scanReturn_grown h hpos hle hdone
  | case3 pos hpos hlf hne =>
    rw [scanLine, if_pos (by omega), h.getElem? pos hpos, hlf]
    simp only [hne, if_true, if_false]
    exact scanFeed_grown h hpos
  | case4 pos hpos b hb hcr hlf ih =>
    rw [scanLine, if_pos (by omega), h.getElem? pos hpos, hb]
    simp only [hcr, hlf, if_false]
    exact ih hdone
  | case5 pos hpos =>
    have hmore : more = stop := by
      rcases hdone with hmore | hdone
      · exact hmore
      · exact absurd rfl hdone
    rw [scanLine, if_neg (by omega)]

/-- A scan that ran out of bytes goes on from where it stopped. -/
theorem scanLine_resume (h : SameBytes buf grown stop) (hle : stop ≤ more)
    (hopen : (scanLine buf stop pos).1 = .ok .unfinished) :
    scanLine grown more pos = scanLine grown more (scanLine buf stop pos).2 := by
  fun_induction scanLine buf stop pos with
  | case1 pos hpos hnone => simp at hopen
  | case2 pos hpos hcr =>
    by_cases hlast : pos + 1 = stop
    · simp only [scanReturn, hlast, if_true]
    · rw [scanReturn, if_neg hlast] at hopen
      split at hopen
      · simp at hopen
      · split at hopen <;> simp at hopen
  | case3 pos hpos hlf hne =>
    rw [scanFeed] at hopen
    split at hopen <;> simp at hopen
  | case4 pos hpos b hb hcr hlf ih =>
    rw [← ih hopen, scanLine, if_pos (by omega), h.getElem? pos hpos, hb]
    simp only [hcr, hlf, if_false]
  | case5 pos hpos => rfl

end Http
end PageServer
