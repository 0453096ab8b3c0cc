import PageServer.Metrics.Counters
import PageServer.Proofs.Metrics.Percentiles

/-!
# What the counters tell of a history

The calls that record something, any number of them in a row.  The summary behind them
tells how many there were of each kind, the responses for each status code and their
bytes, and how the latest latencies are distributed.  Each call keeps an invariant that
ties the counters to the calls so far.
-/

namespace PageServer
namespace Metrics

/-- A call that records something. -/
inductive Record
  | accept
  | busy
  | close (reason : CloseReason)
  /-- A response with its latency in nanoseconds, where it was timed. -/
  | response (code bytes : Nat) (latency : Option Nat)
  deriving DecidableEq

namespace Record

def isClose : Record → Bool
  | close _ => true
  | _ => false

def code? : Record → Option Nat
  | response code _ _ => some code
  | _ => none

def bytes : Record → Nat
  | response _ bytes _ => bytes
  | _ => 0

/-- The latency in whole microseconds. -/
def micros? : Record → Option Nat
  | response _ _ latency => latency.map (· / 1000)
  | _ => none

end Record

/-- The status codes of the responses, one for each. -/
def codes (records : List Record) : List Nat :=
  records.filterMap Record.code?

def bytesOf (records : List Record) : Nat :=
  (records.map Record.bytes).sum

/-- The latencies that are kept, in whole microseconds, oldest first. -/
def retained (records : List Record) : List Nat :=
  latest (records.filterMap Record.micros?)

/-- What a snapshot tells of the calls before it. -/
structure SumsUp (records : List Record) (s : Snapshot) : Prop where
  accepted : s.accepted = records.count .accept
  busy : s.busy = records.count .busy
  closed : s.closed = records.countP Record.isClose
  idleEvictions : s.idleEvictions = records.count (.close .idle)
  queueRejections : s.queueRejections = records.count (.close .queueFull)
  /-- Each code that was sent has its number of responses, and no other is there. -/
  statusCodes : ∀ code, s.statusCodes.lookup code =
    if code ∈ codes records then some ((codes records).count code) else none
  ascending : (s.statusCodes.map Prod.fst).Pairwise (· < ·)
  responses : s.responses = (s.statusCodes.map Prod.snd).sum ∧
    s.responses = (codes records).length
  bytesSent : s.bytesSent = bytesOf records
  latency : Summarizes (retained records) s.latency

namespace Counters

/-- The counters behind a call, which ends with a fault where the bytes sum up to more
than a word. -/
def perform (c : Counters) : Record → Except Fault Unit × Counters
  | .accept => (.ok (), c.countAccept)
  | .busy => (.ok (), c.countBusy)
  | .close reason => (.ok (), c.countClose reason)
  | .response code bytes latency => c.countResponse code bytes latency

/-- The counters behind calls in a row, as long as none ends with a fault. -/
def after (c : Counters) : List Record → Except Fault Counters
  | [] => .ok c
  | x :: records => match c.perform x with
    | (.ok _, c) => c.after records
    | (.error f, _) => .error f

end Counters

/-! ## Counting codes -/

theorem mem_keys_countCode {code c : Nat} {counts : List (Nat × Nat)} :
    c ∈ (countCode code counts).map Prod.fst ↔ c = code ∨ c ∈ counts.map Prod.fst := by
  induction counts with
  | nil => simp [countCode]
  | cons x counts ih =>
    obtain ⟨c', n⟩ := x
    rw [countCode]
    split
    · simp
    · split
      · next heq => simp [heq]
      · simp only [List.map_cons, List.mem_cons, ih]
        exact or_left_comm

theorem ascending_countCode {counts : List (Nat × Nat)}
    (h : (counts.map Prod.fst).Pairwise (· < ·)) (code : Nat) :
    ((countCode code counts).map Prod.fst).Pairwise (· < ·) := by
  induction counts with
  | nil => simp [countCode]
  | cons x counts ih =>
    obtain ⟨c, n⟩ := x
    rw [List.map_cons, List.pairwise_cons] at h
    obtain ⟨hfirst, hrest⟩ := h
    rw [countCode]
    split
    · next hlt =>
      simp only [List.map_cons, List.pairwise_cons, List.mem_cons]
      refine ⟨?_, hfirst, hrest⟩
      rintro c' (rfl | hc')
      · exact hlt
      · exact Nat.lt_trans hlt (hfirst c' hc')
    · next hle =>
      split
      · exact List.pairwise_cons.mpr ⟨hfirst, hrest⟩
      · next hne =>
        refine List.pairwise_cons.mpr ⟨?_, ih hrest⟩
        intro c' hc'
        rcases mem_keys_countCode.mp hc' with rfl | hc'
        · simp only at hle hne ⊢
          omega
        · exact hfirst c' hc'

theorem lookup_cons_of_ne {counts : List (Nat × Nat)} {c c' : Nat} (h : c ≠ c') (n : Nat) :
    ((c', n) :: counts).lookup c = counts.lookup c := by
  rw [List.lookup_cons, beq_eq_false_iff_ne.mpr h]

/-- A code below the first one is not counted yet. -/
theorem lookup_eq_none_of_lt {counts : List (Nat × Nat)} {code : Nat}
    (h : ∀ c ∈ counts.map Prod.fst, code < c) : counts.lookup code = none := by
  rw [List.lookup_eq_none_iff]
  intro x hx
  have hlt := h x.1 (List.mem_map_of_mem hx)
  exact bne_iff_ne.mpr (Nat.ne_of_lt hlt)

/-- One code counts one more, and the others as many as before. -/
theorem lookup_countCode {counts : List (Nat × Nat)}
    (h : (counts.map Prod.fst).Pairwise (· < ·)) (code c : Nat) :
    (countCode code counts).lookup c =
      if c = code then some ((counts.lookup code).getD 0 + 1) else counts.lookup c := by
  induction counts with
  | nil =>
    rw [countCode]
    split
    · next hc => rw [hc, List.lookup_cons_self]; rfl
    · next hc => rw [lookup_cons_of_ne hc]
  | cons x counts ih =>
    obtain ⟨c', n⟩ := x
    rw [List.map_cons, List.pairwise_cons] at h
    obtain ⟨hfirst, hrest⟩ := h
    rw [countCode]
    split
    · next hlt =>
      have hnone : List.lookup code ((c', n) :: counts) = none := by
        apply lookup_eq_none_of_lt
        intro d hd
        rcases List.mem_cons.mp hd with rfl | hd
        · exact hlt
        · exact Nat.lt_trans hlt (hfirst d hd)
      split
      · next hc => rw [hc, List.lookup_cons_self, hnone]; rfl
      · next hc => rw [lookup_cons_of_ne hc]
    · split
      · next heq =>
        subst heq
        split
        · next hc => rw [hc, List.lookup_cons_self, List.lookup_cons_self]; rfl
        · next hc => rw [lookup_cons_of_ne hc, lookup_cons_of_ne hc]
      · next hne =>
        rw [lookup_cons_of_ne hne]
        by_cases hc : c = c'
        · subst hc
          rw [List.lookup_cons_self, if_neg (Ne.symm hne), List.lookup_cons_self]
        · rw [lookup_cons_of_ne hc, lookup_cons_of_ne hc, ih hrest]

theorem sum_countCode (code : Nat) (counts : List (Nat × Nat)) :
    ((countCode code counts).map Prod.snd).sum = (counts.map Prod.snd).sum + 1 := by
  induction counts with
  | nil => rfl
  | cons x counts ih =>
    obtain ⟨c, n⟩ := x
    rw [countCode]
    split
    · simp only [List.map_cons, List.sum_cons]
      omega
    · split
      · simp only [List.map_cons, List.sum_cons]
        omega
      · simp only [List.map_cons, List.sum_cons, ih]
        omega

/-! ## One call after the other -/

/-- The counters hold what the calls so far have recorded of connections. -/
structure Connections (records : List Record) (c : Counters) : Prop where
  accepted : c.accepted = records.count .accept
  busy : c.busy = records.count .busy
  closed : c.closed = records.countP Record.isClose
  idleEvictions : c.idleEvictions = records.count (.close .idle)
  queueRejections : c.queueRejections = records.count (.close .queueFull)

/-- The counters hold what the calls so far have recorded of responses. -/
structure Responses (records : List Record) (c : Counters) : Prop where
  statusCodes : ∀ code, c.statusCodes.lookup code =
    if code ∈ codes records then some ((codes records).count code) else none
  ascending : (c.statusCodes.map Prod.fst).Pairwise (· < ·)
  responses : (c.statusCodes.map Prod.snd).sum = (codes records).length
  bytesSent : c.bytesSent = bytesOf records
  /-- Samples are kept as words. -/
  samples : c.samples.toList = latest ((records.filterMap Record.micros?).map (· % wordRange))

theorem connections_empty : Connections [] {} :=
  ⟨rfl, rfl, rfl, rfl, rfl⟩

theorem responses_empty : Responses [] {} :=
  ⟨fun _ => rfl, List.Pairwise.nil, rfl, rfl, rfl⟩

theorem bytesOf_append (before after : List Record) :
    bytesOf (before ++ after) = bytesOf before + bytesOf after := by
  simp [bytesOf]

theorem bytesOf_singleton (x : Record) : bytesOf [x] = x.bytes :=
  Nat.add_zero x.bytes

section Call

variable {before : List Record} {c : Counters}

theorem count_close (reason r : CloseReason) (n : Nat) :
    (if reason = r then n + 1 else n) = n + [Record.close reason].count (.close r) := by
  by_cases h : reason = r
  · simp [h]
  · simp [h]

/-- A response changes nothing of what is known of connections. -/
theorem Connections.countResponse (h : Connections before c) (code bytes : Nat)
    (latency : Option Nat) : Connections before (c.countResponse code bytes latency).2 := by
  obtain ⟨haccepted, hbusy, hclosed, hidle, hqueue⟩ := h
  unfold Counters.countResponse
  simp only
  split
  · exact ⟨haccepted, hbusy, hclosed, hidle, hqueue⟩
  · exact ⟨haccepted, hbusy, hclosed, hidle, hqueue⟩

theorem Connections.perform (h : Connections before c) (x : Record) :
    Connections (before ++ [x]) (c.perform x).2 := by
  cases x with
  | accept =>
    obtain ⟨haccepted, hbusy, hclosed, hidle, hqueue⟩ := h
    constructor <;> simp [Counters.perform, Counters.countAccept, Record.isClose, *]
  | busy =>
    obtain ⟨haccepted, hbusy, hclosed, hidle, hqueue⟩ := h
    constructor <;> simp [Counters.perform, Counters.countBusy, Record.isClose, *]
  | close reason =>
    obtain ⟨haccepted, hbusy, hclosed, hidle, hqueue⟩ := h
    constructor <;>
      simp [Counters.perform, Counters.countClose, Record.isClose, count_close, *]
  | response code bytes latency =>
    obtain ⟨haccepted, hbusy, hclosed, hidle, hqueue⟩ := h.countResponse code bytes latency
    constructor <;> simp [Counters.perform, Record.isClose, *]

/-- What is no response changes nothing of what is known of responses. -/
theorem Responses.aside (h : Responses before c) {x : Record} {d : Counters}
    (hcode : x.code? = none) (hbytes : x.bytes = 0) (hmicros : x.micros? = none)
    (hcodes : d.statusCodes = c.statusCodes) (hsent : d.bytesSent = c.bytesSent)
    (hsamples : d.samples = c.samples) : Responses (before ++ [x]) d := by
  have hsame : codes (before ++ [x]) = codes before := by
    simp [codes, hcode]
  constructor
  · rw [hcodes, hsame]
    exact h.statusCodes
  · rw [hcodes]
    exact h.ascending
  · rw [hcodes, hsame]
    exact h.responses
  · rw [hsent, h.bytesSent]
    simp [bytesOf, hbytes]
  · rw [hsamples, h.samples]
    simp [hmicros]

theorem Responses.response (h : Responses before c) (code bytes : Nat) (latency : Option Nat)
    (hfits : bytesOf before + bytes < wordRange) :
    ∃ d, c.countResponse code bytes latency = (.ok (), d) ∧
      Responses (before ++ [.response code bytes latency]) d := by
  have hadd : addWord c.bytesSent bytes = .ok (bytesOf before + bytes) := by
    rw [h.bytesSent, addWord, if_pos hfits]
  have hcodes : codes (before ++ [.response code bytes latency]) = codes before ++ [code] := by
    simp [codes, Record.code?]
  simp only [Counters.countResponse, hadd]
  refine ⟨_, rfl, ?_⟩
  constructor
  · intro c'
    rw [lookup_countCode h.ascending, h.statusCodes, h.statusCodes, hcodes]
    by_cases hc : c' = code
    · subst hc
      by_cases hmem : c' ∈ codes before
      · simp [hmem]
      · simp [hmem, List.count_eq_zero_of_not_mem]
    · simp [hc, Ne.symm hc]
  · exact ascending_countCode h.ascending code
  · simp [sum_countCode, h.responses, hcodes]
  · simp [bytesOf, Record.bytes]
  · cases latency with
    | none => simp [h.samples, Record.micros?, List.filterMap_cons]
    | some time =>
      simp only [toList_recordSample h.samples, micros, List.filterMap_append, List.map_append]
      rfl

theorem Responses.perform (h : Responses before c) (x : Record)
    (hfits : bytesOf (before ++ [x]) < wordRange) :
    (c.perform x).1 = .ok () ∧ Responses (before ++ [x]) (c.perform x).2 := by
  cases x with
  | accept | busy | close => exact ⟨rfl, h.aside rfl rfl rfl rfl rfl rfl⟩
  | response code bytes latency =>
    rw [bytesOf_append, bytesOf_singleton] at hfits
    obtain ⟨d, hcount, hnext⟩ := h.response code bytes latency hfits
    rw [Counters.perform, hcount]
    exact ⟨rfl, hnext⟩

end Call

theorem bytesOf_le (before after : List Record) : bytesOf before ≤ bytesOf (before ++ after) := by
  rw [bytesOf_append]
  exact Nat.le_add_right _ _

/-- As long as the bytes sum up to a word, all calls are recorded. -/
theorem exists_after {before : List Record} {c : Counters} (hconnections : Connections before c)
    (hresponses : Responses before c) {records : List Record}
    (hfits : bytesOf (before ++ records) < wordRange) :
    ∃ d, c.after records = .ok d ∧ Connections (before ++ records) d ∧
      Responses (before ++ records) d := by
  induction records generalizing before c with
  | nil =>
    rw [List.append_nil]
    exact ⟨c, rfl, hconnections, hresponses⟩
  | cons x records ih =>
    rw [List.append_cons] at hfits ⊢
    obtain ⟨hdone, hnext⟩ :=
      hresponses.perform x (Nat.lt_of_le_of_lt (bytesOf_le _ records) hfits)
    obtain ⟨d, hafter, hrecorded⟩ := ih (hconnections.perform x) hnext hfits
    refine ⟨d, ?_, hrecorded⟩
    rw [Counters.after]
    split
    · next heq =>
      rw [heq] at hafter
      exact hafter
    · next heq =>
      rw [heq] at hdone
      cases hdone

/-- Whatever has been recorded, as long as the bytes sum up to a word and so do the
latencies that are kept: all calls are recorded, and there is a snapshot, which sums them
up. -/
theorem snapshot_sums_up (records : List Record) (hbytes : bytesOf records < wordRange)
    (hlatencies : (retained records).sum < wordRange) :
    ∃ c s, Counters.after {} records = .ok c ∧ c.snapshot = .ok s ∧ SumsUp records s := by
  obtain ⟨c, hafter, hconnections, hresponses⟩ :=
    exists_after connections_empty responses_empty hbytes
  simp only [List.nil_append] at hconnections hresponses
  have hsamples : c.samples.toList = retained records := by
    rw [hresponses.samples, latest_map]
    exact map_mod_eq_self hlatencies
  have hsnapshot : total c.samples.toList < wordRange := by
    rw [hsamples]
    exact hlatencies
  refine ⟨c, _, hafter, if_pos hsnapshot, ?_⟩
  constructor
  · exact hconnections.accepted
  · exact hconnections.busy
  · exact hconnections.closed
  · exact hconnections.idleEvictions
  · exact hconnections.queueRejections
  · exact hresponses.statusCodes
  · exact hresponses.ascending
  · exact ⟨rfl, hresponses.responses⟩
  · exact hresponses.bytesSent
  · rw [← hsamples]
    exact summarizes_ofSamples c.samples

/-- One more response than there is room for latencies: the slow one at first is not
counted among them any more. -/
theorem snapshot_sums_up_full :
    let records : List Record :=
      .response 404 5 (some 7000000) :: List.replicate maxSamples (.response 200 10 (some 1000))
    bytesOf records < wordRange ∧ (retained records).sum < wordRange ∧
      ∃ c s, Counters.after {} records = .ok c ∧ c.snapshot = .ok s ∧
        s.responses = maxSamples + 1 ∧ s.latency.samples = maxSamples ∧ s.latency.p99 = 1 := by
  intro records
  have hbytes : bytesOf records < wordRange := by
    simp only [records, bytesOf, List.map_cons, List.map_replicate, List.sum_cons,
      List.sum_replicate, Record.bytes]
    decide
  have hmicros : records.filterMap Record.micros? = 7000 :: List.replicate maxSamples 1 := by
    simp [records, Record.micros?]
  have hretained : retained records = List.replicate maxSamples 1 := by
    rw [retained, hmicros, latest, List.length_cons, List.length_replicate,
      Nat.add_sub_cancel_left]
    rfl
  have hlatencies : (retained records).sum < wordRange := by
    rw [hretained, List.sum_replicate]
    decide
  obtain ⟨c, s, hafter, hsnapshot, hsums⟩ := snapshot_sums_up records hbytes hlatencies
  have hlatency := hsums.latency
  rw [hretained] at hlatency
  refine ⟨hbytes, hlatencies, c, s, hafter, hsnapshot, ?_, ?_, ?_⟩
  · rw [hsums.responses.2]
    simp [records, codes, List.filterMap_replicate_of_some, Record.code?]
  · rw [hlatency.count, List.length_replicate]
  · have hne : List.replicate maxSamples 1 ≠ [] := by
      rw [Ne, List.replicate_eq_nil_iff]
      decide
    exact List.eq_of_mem_replicate (hlatency.taken hne).2.2

end Metrics
end PageServer
