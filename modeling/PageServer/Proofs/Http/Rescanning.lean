import PageServer.Connection.Parsing
import PageServer.Proofs.Http.LineScan

/-!
# Scanning at every read end

A buffer is scanned whenever bytes have come in: line after line, until no further line
end is found, and from there again at the next read end.  Wherever the read ends lie, this
finds the line ends of a single pass over all the bytes, and ends as that pass does.
-/

namespace PageServer
namespace Http

variable {buf other : Array UInt8} {stop later pos i : Nat} {status : LineStatus} {index : Nat}

/-! ## What one scan finds -/

/-- None of the bytes from `pos` up to `stop` is a CR or LF. -/
def Passed (buf : Array UInt8) (pos stop : Nat) : Prop :=
  ∀ i, pos ≤ i → i < stop → buf[i]? ≠ some cr ∧ buf[i]? ≠ some lf

/-- At `i`, among the bytes up to `stop`, is a CR with something else than an LF behind
it, or an LF without a CR in front of it. -/
def Offends (buf : Array UInt8) (stop i : Nat) : Prop :=
  i < stop ∧
    (buf[i]? = some cr ∧ i + 1 < stop ∧ buf[i + 1]? ≠ some lf ∨
      buf[i]? = some lf ∧ ¬(0 < i ∧ buf[i - 1]? = some cr))

/-- What a scan from `pos` finds in the bytes up to `stop`, and the position that it
leaves. -/
inductive Finds (buf : Array UInt8) (stop pos : Nat) : LineStatus → Nat → Prop
  | ended {i : Nat} (le : pos ≤ i) (passed : Passed buf pos i) (hcr : buf[i]? = some cr)
    (lt : i + 1 < stop) (hlf : buf[i + 1]? = some lf) : Finds buf stop pos .complete (i + 2)
  /-- The scan began between the CR and the LF of a line end. -/
  | halved (pos_pos : 0 < pos) (hcr : buf[pos - 1]? = some cr) (lt : pos < stop)
    (hlf : buf[pos]? = some lf) : Finds buf stop pos .complete (pos + 1)
  | stray {i : Nat} (le : pos ≤ i) (passed : Passed buf pos i) (offends : Offends buf stop i) :
    Finds buf stop pos .bad i
  /-- The last byte is a CR, which an LF may still follow. -/
  | cut {i : Nat} (le : pos ≤ i) (passed : Passed buf pos i) (hcr : buf[i]? = some cr)
    (last : i + 1 = stop) : Finds buf stop pos .unfinished i
  | drained (le : pos ≤ stop) (passed : Passed buf pos stop) : Finds buf stop pos .unfinished stop
  /-- There is nothing yet where the scan begins. -/
  | beyond (lt : stop < pos) : Finds buf stop pos .unfinished pos

theorem passed_self (buf : Array UInt8) (pos : Nat) : Passed buf pos pos := by
  intro i hpos hi
  omega

theorem Passed.cons (hcr : buf[pos]? ≠ some cr) (hlf : buf[pos]? ≠ some lf)
    (h : Passed buf (pos + 1) i) : Passed buf pos i := by
  intro j hpos hj
  rcases Nat.eq_or_lt_of_le hpos with rfl | hpos
  · exact ⟨hcr, hlf⟩
  · exact h j hpos hj

theorem Finds.cons (hcr : buf[pos]? ≠ some cr) (hlf : buf[pos]? ≠ some lf) (hpos : pos < stop)
    (h : Finds buf stop (pos + 1) status index) : Finds buf stop pos status index := by
  cases h with
  -- In front of the position there is a byte that is no CR, so the scan did not begin in
  -- a line end.
  | halved _ hcr' => exact absurd hcr' hcr
  | ended le passed hcr' lt hlf' => exact .ended (by omega) (passed.cons hcr hlf) hcr' lt hlf'
  | stray le passed offends => exact .stray (by omega) (passed.cons hcr hlf) offends
  | cut le passed hcr' last => exact .cut (by omega) (passed.cons hcr hlf) hcr' last
  | drained le passed => exact .drained (by omega) (passed.cons hcr hlf)
  | beyond lt => omega

theorem exists_getElem? (hi : i < stop) (hsize : stop ≤ buf.size) : ∃ b, buf[i]? = some b :=
  ⟨_, Array.getElem?_eq_getElem (Nat.lt_of_lt_of_le hi hsize)⟩

theorem scanReturn_finds (hpos : pos < stop) (hsize : stop ≤ buf.size) (hcr : buf[pos]? = some cr) :
    ∃ status index, scanReturn buf stop pos = (.ok status, index) ∧
      Finds buf stop pos status index := by
  by_cases hlast : pos + 1 = stop
  · rw [scanReturn, if_pos hlast]
    exact ⟨_, _, rfl, .cut (Nat.le_refl _) (passed_self buf pos) hcr hlast⟩
  · have hlt : pos + 1 < stop := by omega
    obtain ⟨next, hnext⟩ := exists_getElem? hlt hsize
    rw [scanReturn, if_neg hlast, hnext]
    by_cases hlf : next = lf
    · subst hlf
      exact ⟨_, _, rfl, .ended (Nat.le_refl _) (passed_self buf pos) hcr hlt hnext⟩
    · refine ⟨.bad, pos, by simp only [hlf, if_false], ?_⟩
      refine .stray (Nat.le_refl _) (passed_self buf pos) ⟨hpos, .inl ⟨hcr, hlt, ?_⟩⟩
      rw [hnext]
      exact fun heq => hlf (Option.some.inj heq)

theorem scanFeed_finds (hpos : pos < stop) (hlf : buf[pos]? = some lf) :
    ∃ status index, scanFeed buf pos = (.ok status, index) ∧ Finds buf stop pos status index := by
  by_cases hprev : 0 < pos ∧ buf[pos - 1]? = some cr
  · rw [scanFeed, if_pos hprev]
    exact ⟨_, _, rfl, .halved hprev.1 hprev.2 hpos hlf⟩
  · rw [scanFeed, if_neg hprev]
    exact ⟨_, _, rfl, .stray (Nat.le_refl _) (passed_self buf pos) ⟨hpos, .inr ⟨hlf, hprev⟩⟩⟩

/-- Within the buffer every scan has an outcome. -/
theorem scanLine_finds (hsize : stop ≤ buf.size) (pos : Nat) :
    ∃ status index, scanLine buf stop pos = (.ok status, index) ∧
      Finds buf stop pos status index := by
  fun_induction scanLine buf stop pos with
  | case1 pos hpos hnone =>
    obtain ⟨b, hb⟩ := exists_getElem? hpos hsize
    rw [hb] at hnone
    cases hnone
  | case2 pos hpos hcr => exact scanReturn_finds hpos hsize hcr
  | case3 pos hpos hlf => exact scanFeed_finds hpos hlf
  | case4 pos hpos b hb hcr hlf ih =>
    obtain ⟨status, index, heq, hfinds⟩ := ih
    refine ⟨status, index, heq, hfinds.cons ?_ ?_ hpos⟩
    · rw [hb]
      exact fun heq => hcr (Option.some.inj heq)
    · rw [hb]
      exact fun heq => hlf (Option.some.inj heq)
  | case5 pos hpos =>
    rcases Nat.eq_or_lt_of_le (Nat.not_lt.mp hpos) with rfl | hlt
    · exact ⟨_, _, rfl, .drained (Nat.le_refl _) (passed_self buf stop)⟩
    · exact ⟨_, _, rfl, .beyond hlt⟩

theorem Finds.le (h : Finds buf stop pos status index) : pos ≤ index := by
  cases h with
  | ended le | stray le | cut le | drained le => omega
  | halved | beyond => omega

theorem Finds.le_stop (h : Finds buf stop pos status index) (hpos : pos ≤ stop) :
    index ≤ stop := by
  cases h with
  | ended _ _ _ lt | halved _ _ lt => omega
  | stray _ _ offends => exact Nat.le_of_lt offends.1
  | cut _ _ _ last => omega
  | drained => exact Nat.le_refl _
  | beyond lt => omega

/-- A scan that runs out of bytes stops at the read end or on a CR that is the last byte. -/
theorem Finds.unfinished (h : Finds buf stop pos .unfinished index) (hpos : pos ≤ stop) :
    index = stop ∨ index + 1 = stop ∧ buf[index]? = some cr := by
  cases h with
  | cut _ _ hcr last => exact .inr ⟨last, hcr⟩
  | drained => exact .inl rfl
  | beyond lt => omega

theorem Finds.offends (h : Finds buf stop pos .bad index) : Offends buf stop index := by
  cases h with
  | stray _ _ offends => exact offends

/-- A CR or LF that ends no line stays where it is, however many bytes follow. -/
theorem Offends.scanLine (h : Offends buf stop i) (hle : stop ≤ later) (hsize : later ≤ buf.size) :
    scanLine buf later i = (.ok .bad, i) := by
  obtain ⟨hi, ⟨hcr, hlt, hne⟩ | ⟨hlf, hprev⟩⟩ := h
  · obtain ⟨next, hnext⟩ := exists_getElem? (show i + 1 < later by omega) hsize
    have hlf : next ≠ lf := fun heq => hne (by rw [hnext, heq])
    rw [Http.scanLine, if_pos (by omega), hcr]
    simp only [if_true]
    rw [scanReturn, if_neg (by omega), hnext]
    simp only [hlf, if_false]
  · have hne : lf ≠ cr := by decide
    rw [Http.scanLine, if_pos (by omega), hlf]
    simp only [hne, if_true, if_false]
    rw [scanFeed, if_neg hprev]

/-! ## Bytes behind the read end -/

/-- A scan does not depend on what is at or behind the read end, or whether there is
anything. -/
theorem scanLine_agree (hsize : stop ≤ buf.size) (hsame : ∀ i < stop, other[i]? = buf[i]?)
    (pos : Nat) : scanLine other stop pos = scanLine buf stop pos := by
  fun_induction scanLine buf stop pos with
  | case1 pos hpos hnone =>
    obtain ⟨b, hb⟩ := exists_getElem? hpos hsize
    rw [hb] at hnone
    cases hnone
  | case2 pos hpos hcr =>
    rw [scanLine, if_pos hpos, hsame pos hpos, hcr]
    simp only [if_true]
    by_cases hlast : pos + 1 = stop
    · simp only [scanReturn, hlast, if_true]
    · obtain ⟨next, hnext⟩ := exists_getElem? (show pos + 1 < stop by omega) hsize
      simp only [scanReturn, hlast, if_false, hsame (pos + 1) (by omega), hnext]
  | case3 pos hpos hlf hne =>
    rw [scanLine, if_pos hpos, hsame pos hpos, hlf]
    simp only [hne, if_true, if_false]
    simp only [scanFeed, hsame (pos - 1) (by omega)]
  | case4 pos hpos b hb hcr hlf ih =>
    rw [scanLine, if_pos hpos, hsame pos hpos, hb]
    simp only [hcr, hlf, if_false]
    exact ih
  | case5 pos hpos => rw [scanLine, if_neg hpos]

/-! ## Line after line -/

/-- What scans in a row find: the positions just behind the line ends, and the last scan,
which finds no further one. -/
structure Pass where
  ends : List Nat
  last : Scan

/-- Scans the bytes from `pos` up to `stop` for one line end after the other. -/
def scanAll (buf : Array UInt8) (stop pos : Nat) : Pass :=
  match _ : scanLine buf stop pos with
  | (.ok .complete, next) =>
    let rest := scanAll buf stop next
    { rest with ends := next :: rest.ends }
  | scan => { ends := [], last := scan }
termination_by stop - pos
decreasing_by
  have := scanLine_complete ‹scanLine _ _ _ = _›
  omega

/-- Scans at one read end after the other, each time from where the scan before has
stopped. -/
def scanEach (buf : Array UInt8) : List Nat → Nat → List Pass
  | [], _ => []
  | stop :: stops, pos =>
    let pass := scanAll buf stop pos
    pass :: scanEach buf stops pass.last.2

theorem scanAll_of_complete {next : Nat} (h : scanLine buf stop pos = (.ok .complete, next)) :
    scanAll buf stop pos =
      { ends := next :: (scanAll buf stop next).ends, last := (scanAll buf stop next).last } := by
  rw [scanAll]
  split
  · next heq =>
    rw [h] at heq
    obtain rfl := (Prod.mk.inj heq).2
    rfl
  · next hne => exact absurd h (hne next)

theorem scanAll_of_ne (h : (scanLine buf stop pos).1 ≠ .ok .complete) :
    scanAll buf stop pos = { ends := [], last := scanLine buf stop pos } := by
  rw [scanAll]
  split
  · next heq => exact absurd (congrArg Prod.fst heq) h
  · rfl

theorem scanAll_congr {pos' : Nat} (h : scanLine buf stop pos = scanLine buf stop pos') :
    scanAll buf stop pos = scanAll buf stop pos' := by
  by_cases hcomplete : ∃ next, scanLine buf stop pos = (.ok .complete, next)
  · obtain ⟨next, hnext⟩ := hcomplete
    rw [scanAll_of_complete hnext, scanAll_of_complete (h.symm.trans hnext)]
  · have hne : (scanLine buf stop pos).1 ≠ .ok .complete := by
      intro hfst
      exact hcomplete ⟨_, Prod.ext hfst rfl⟩
    rw [scanAll_of_ne hne, scanAll_of_ne (h ▸ hne), h]

theorem sameBytes_self (buf : Array UInt8) (stop : Nat) : SameBytes buf buf stop :=
  ⟨rfl, fun _ _ => rfl⟩

/-- Where a scan has found no line end, a later one goes on as if it began where that one
did. -/
theorem scanLine_later (hle : stop ≤ later) (hsize : later ≤ buf.size)
    (hne : (scanLine buf stop pos).1 ≠ .ok .complete) :
    scanLine buf later pos = scanLine buf later (scanLine buf stop pos).2 := by
  obtain ⟨status, index, heq, hfinds⟩ := scanLine_finds (Nat.le_trans hle hsize) pos
  cases status with
  | complete => exact absurd (congrArg Prod.fst heq) hne
  | bad =>
    have hdone : (scanLine buf stop pos).1 ≠ .ok .unfinished := by
      rw [heq]
      simp
    rw [scanLine_grown (sameBytes_self buf stop) hle (.inr hdone), heq]
    exact (hfinds.offends.scanLine hle hsize).symm
  | unfinished =>
    exact scanLine_resume (sameBytes_self buf stop) hle (congrArg Prod.fst heq)

/-- What a pass has found up to one read end, and what it finds from there up to a later
one, is what a single pass up to the later one finds. -/
theorem scanAll_resume (hle : stop ≤ later) (hsize : later ≤ buf.size) (pos : Nat) :
    let first := scanAll buf stop pos
    let rest := scanAll buf later first.last.2
    scanAll buf later pos = { ends := first.ends ++ rest.ends, last := rest.last } := by
  -- Induction on the line ends of the first pass.  Each is found again up to the later
  -- read end, and where the first pass ends the single one goes on as the second does.
  fun_induction scanAll buf stop pos with
  | case1 pos next hscan rest ih =>
    have hdone : (scanLine buf stop pos).1 ≠ .ok .unfinished := by
      rw [hscan]
      simp
    have hlater := scanLine_grown (sameBytes_self buf stop) hle (.inr hdone)
    rw [scanAll_of_complete (hlater.trans hscan), ih]
    rfl
  | case2 pos hne =>
    have hfst : (scanLine buf stop pos).1 ≠ .ok .complete := by
      intro hfst
      exact hne _ (Prod.ext hfst rfl)
    exact scanAll_congr (scanLine_later hle hsize hfst)

/-- However the read ends lie, the passes find the line ends of a single one, and the last
of them ends as it does. -/
theorem scanEach_resumes {stops : List Nat} {last : Nat}
    (hrising : (stops ++ [last]).Pairwise (· ≤ ·)) (hsize : last ≤ buf.size) (pos : Nat) :
    (scanEach buf (stops ++ [last]) pos).flatMap (·.ends) = (scanAll buf last pos).ends ∧
      (scanEach buf (stops ++ [last]) pos).getLast?.map (·.last) =
        some (scanAll buf last pos).last := by
  induction stops generalizing pos with
  | nil => simp [scanEach]
  | cons stop stops ih =>
    rw [List.cons_append, List.pairwise_cons] at hrising
    have hle : stop ≤ last := hrising.1 last (by simp)
    obtain ⟨hends, hlast⟩ := ih hrising.2 (scanAll buf stop pos).last.2
    rw [scanAll_resume hle hsize pos, List.cons_append, scanEach]
    constructor
    · rw [List.flatMap_cons, hends]
    · obtain ⟨final, hfinal, heq⟩ := Option.map_eq_some_iff.mp hlast
      rw [List.getLast?_cons, hfinal]
      exact congrArg some heq

/-- Scanning is resumable.  However often a buffer is scanned while it fills up, the line
ends found are those of a single pass at the last read end, in order, and the last scan
ends as that pass does.  Each scan on the way has an outcome; it goes forward, but not
beyond the read end; out of bytes, it stops at the read end or on a CR that is the last
byte; a CR or LF that ends no line is found again at every later read end; and nothing
that is at or behind the read end counts. -/
theorem scanEach_as_single_pass (buf : Array UInt8) (stops : List Nat) (last pos : Nat)
    (hrising : (stops ++ [last]).Pairwise (· ≤ ·)) (hsize : last ≤ buf.size) :
    ((scanEach buf (stops ++ [last]) pos).flatMap (·.ends) = (scanAll buf last pos).ends ∧
      (scanEach buf (stops ++ [last]) pos).getLast?.map (·.last) =
        some (scanAll buf last pos).last) ∧
    ∀ stop start, stop ≤ buf.size → ∃ status index,
      scanLine buf stop start = (.ok status, index) ∧ Finds buf stop start status index ∧
      start ≤ index ∧ (start ≤ stop → index ≤ stop) ∧
      (status = .unfinished → start ≤ stop →
        index = stop ∨ index + 1 = stop ∧ buf[index]? = some cr) ∧
      (status = .bad → Offends buf stop index ∧
        ∀ later, stop ≤ later → later ≤ buf.size → scanLine buf later index = (.ok .bad, index)) ∧
      ∀ other : Array UInt8, (∀ i < stop, other[i]? = buf[i]?) →
        scanLine other stop start = (.ok status, index) := by
  refine ⟨scanEach_resumes hrising hsize pos, ?_⟩
  intro stop start hstop
  obtain ⟨status, index, hscan, hfinds⟩ := scanLine_finds hstop start
  refine ⟨status, index, hscan, hfinds, hfinds.le, hfinds.le_stop, ?_, ?_, ?_⟩
  · rintro rfl hstart
    exact hfinds.unfinished hstart
  · rintro rfl
    exact ⟨hfinds.offends, fun later hle hlater => hfinds.offends.scanLine hle hlater⟩
  · intro other hsame
    rw [scanLine_agree hstop hsame, hscan]

/-- Two lines, the first cut between its CR and its LF, and an LF that ends none. -/
theorem scanEach_as_single_pass_cut :
    let buf : Array UInt8 := #[97, 13, 10, 98, 13, 10, 10, 99]
    ([2, 2, 5, 7] ++ [8]).Pairwise (· ≤ ·) ∧ 8 ≤ buf.size ∧
      (scanEach buf ([2, 2, 5, 7] ++ [8]) 0).flatMap (·.ends) = [3, 6] ∧
      (scanEach buf ([2, 2, 5, 7] ++ [8]) 0).getLast?.map (·.last) = some (.ok .bad, 6) := by
  intro buf
  have hrising : ([2, 2, 5, 7] ++ [8]).Pairwise (· ≤ ·) := by decide
  have hsingle : scanAll buf 8 0 = { ends := [3, 6], last := (.ok .bad, 6) } := by
    have hbad : scanLine buf 8 6 = (.ok .bad, 6) := by cbv
    rw [scanAll_of_complete (show scanLine buf 8 0 = (.ok .complete, 3) by cbv),
      scanAll_of_complete (show scanLine buf 8 3 = (.ok .complete, 6) by cbv),
      scanAll_of_ne (by rw [hbad]; simp), hbad]
  have hsize : 8 ≤ buf.size := by decide
  obtain ⟨⟨hends, hlast⟩, -⟩ := scanEach_as_single_pass buf [2, 2, 5, 7] 8 0 hrising hsize
  rw [hsingle] at hends hlast
  exact ⟨hrising, hsize, hends, hlast⟩

end Http
end PageServer
