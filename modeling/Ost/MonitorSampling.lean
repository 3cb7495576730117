import Mathlib.Data.List.Forall2
import Mathlib.Data.List.Sort
import Ost.Lib.Batches
import Ost.Lib.Moments
import Ost.Monitor

/-!
# The samples of the guiding

The monitor takes the measures of the guiding a number at a time and records the mean of each batch.
There is one buffer for each of the two keys, whatever module a measure comes from, and the row of a
batch has the module of its last measure.

Main theorems:
    stats_flushed:     the row of a buffer that is full has the statistics of its samples
    batches_run:       the rows of a session are those of the batches of each key
    sampled_iff:       they are those of each module exactly if no batch is of two modules
-/

namespace Ost.Monitoring

open Lib

/-! ## Statistics -/

/-- The number in the middle, or the mean of the two there. -/
def middle (sorted : List ℚ) : ℚ :=
  if sorted.length % 2 = 0 then
    (sorted.getD (sorted.length / 2 - 1) 0 + sorted.getD (sorted.length / 2) 0) / 2
  else sorted.getD (sorted.length / 2) 0

/-- The row has the statistics of the samples. -/
structure Stats (sqrt : ℚ → ℚ) (samples : List ℚ) (row : EventRow) : Prop where
  mean : row.valNum1 = Lib.mean samples
  least : row.valNum2 ∈ samples ∧ ∀ v ∈ samples, row.valNum2 ≤ v
  greatest : row.valNum3 ∈ samples ∧ ∀ v ∈ samples, v ≤ row.valNum3
  median : ∃ sorted, sorted.Perm samples ∧ sorted.Pairwise (· ≤ ·) ∧ row.valNum4 = middle sorted
  deviation : row.valNum5 = sqrt (variance samples)

/-- The ends of a list in order. -/
theorem ends_of_sorted (sorted : List ℚ) (hne : sorted ≠ []) (h : sorted.Pairwise (· ≤ ·)) :
    (sorted.headD 0 ∈ sorted ∧ ∀ v ∈ sorted, sorted.headD 0 ≤ v) ∧
      sorted.getLastD 0 ∈ sorted ∧ ∀ v ∈ sorted, v ≤ sorted.getLastD 0 := by
  constructor
  · cases sorted with
    | nil => exact absurd rfl hne
    | cons a l =>
      refine ⟨List.mem_cons_self, fun v hv => ?_⟩
      rcases List.mem_cons.mp hv with rfl | hv
      · exact le_refl _
      · exact (List.pairwise_cons.mp h).1 v hv
  · rcases List.eq_nil_or_concat sorted with hnil | ⟨l, a, rfl⟩
    · exact absurd hnil hne
    · rw [List.concat_eq_append] at h ⊢
      have hlast : (l ++ [a]).getLastD 0 = a := by simp
      rw [hlast]
      refine ⟨List.mem_append_right l (List.mem_singleton_self a), fun v hv => ?_⟩
      rcases List.mem_append.mp hv with hv | hv
      · exact (List.pairwise_append.mp h).2.2 v hv a (List.mem_singleton_self a)
      · exact (List.mem_singleton.mp hv).le

/-- **The row of a buffer.** -/
theorem stats_flushed (sqrt : ℚ → ℚ) (key : String) (buf : GuideBuf) (ts : QVariantMap)
    (h : buf.samples ≠ []) :
    Stats sqrt buf.samples { Monitor.flushed sqrt key buf with ts := ts } := by
  have hperm : (buf.samples.mergeSort (· ≤ ·)).Perm buf.samples := List.mergeSort_perm _ _
  have hsorted : (buf.samples.mergeSort (· ≤ ·)).Pairwise (· ≤ ·) :=
    List.pairwise_mergeSort' (· ≤ ·) buf.samples
  have hne : buf.samples.mergeSort (· ≤ ·) ≠ [] := fun hnil =>
    h (List.length_eq_zero_iff.mp (by rw [← hperm.length_eq, hnil]; rfl))
  obtain ⟨⟨hhead, hleast⟩, hlast, hgreatest⟩ := ends_of_sorted _ hne hsorted
  have hmean : (buf.samples.mergeSort (· ≤ ·)).sum / (buf.samples.mergeSort (· ≤ ·)).length =
      Lib.mean buf.samples := by
    unfold Lib.mean
    rw [hperm.sum_eq, hperm.length_eq]
  constructor
  · exact hmean
  · exact ⟨hperm.subset hhead, fun v hv => hleast v (hperm.symm.subset hv)⟩
  · exact ⟨hperm.subset hlast, fun v hv => hgreatest v (hperm.symm.subset hv)⟩
  · exact ⟨_, hperm, hsorted, rfl⟩
  · have hvariance : ((buf.samples.mergeSort (· ≤ ·)).map fun v =>
        (v - Lib.mean buf.samples) * (v - Lib.mean buf.samples)).sum =
        deviations (Lib.mean buf.samples) buf.samples := (hperm.map _).sum_eq
    unfold Lib.variance
    rw [← hvariance, ← hperm.length_eq, ← hmean]
    rfl

/-! ## Measures -/

/-- A signal of the guiding, with the clock when its row is recorded and a session after it starts. -/
structure Measure where
  mod : String
  data : QVariant
  now : Reading
  next : Reading

namespace Measure

def key (x : Measure) : String := jsonText ((x.data.field "e").field "event")

def value (x : Measure) : ℚ := jsonDouble ((x.data.field "e").field "val_num")

/-- Who measured what. -/
def source (x : Measure) : String × String := (x.mod, x.key)

def kind (x : Measure) : String := jsonText ((x.data.field "e").field "statedescription")

end Measure

def guideKeys : List String := ["guideRMS", "guideSNR"]

variable (sqrt : ℚ → ℚ)

def measured (m : Monitor) (x : Measure) : MonitorEmits :=
  m.onOtherModuleEvent sqrt .ea x.mod "signals" x.data x.now x.next

def measuredAll (m : Monitor) (xs : List Measure) : MonitorEmits := Emits.each (measured sqrt) xs m

/-- The rows that are announced. -/
def rowsOf (evs : List MonitorEvent) : List EventRow :=
  evs.filterMap fun
    | .newLine row => some row
    | _ => none

theorem rowsOf_append (evs evs' : List MonitorEvent) :
    rowsOf (evs ++ evs') = rowsOf evs ++ rowsOf evs' := List.filterMap_append

/-- The sampling, as a number of measures. -/
def Monitor.batch (m : Monitor) : ℕ := m.sampling.toInt.toNat

/-! ## One measure -/

namespace Monitor

@[simp] theorem sampling_setGuideBuf (m : Monitor) (key : String) (buf : GuideBuf) :
    (m.setGuideBuf key buf).sampling = m.sampling := by
  unfold setGuideBuf
  split <;> rfl

@[simp] theorem slaves_setGuideBuf (m : Monitor) (key : String) (buf : GuideBuf) :
    (m.setGuideBuf key buf).slaves = m.slaves := by
  unfold setGuideBuf
  split <;> rfl

@[simp] theorem maxrows_setGuideBuf (m : Monitor) (key : String) (buf : GuideBuf) :
    (m.setGuideBuf key buf).maxrows = m.maxrows := by
  unfold setGuideBuf
  split <;> rfl

@[simp] theorem mEvents_setGuideBuf (m : Monitor) (key : String) (buf : GuideBuf) :
    (m.setGuideBuf key buf).mEvents = m.mEvents := by
  unfold setGuideBuf
  split <;> rfl

@[simp] theorem mSessionActive_setGuideBuf (m : Monitor) (key : String) (buf : GuideBuf) :
    (m.setGuideBuf key buf).mSessionActive = m.mSessionActive := by
  unfold setGuideBuf
  split <;> rfl

@[simp] theorem guideBuf_setGuideBuf_self (m : Monitor) (key : String) (buf : GuideBuf) :
    (m.setGuideBuf key buf).guideBuf key = buf := by
  unfold setGuideBuf guideBuf
  by_cases h : key = "guideRMS"
  · simp only [if_pos h]
  · simp only [if_neg h]

theorem guideBuf_setGuideBuf_of_ne (m : Monitor) (key key' : String) (buf : GuideBuf)
    (hk : key ∈ guideKeys) (hk' : key' ∈ guideKeys) (hne : key ≠ key') :
    (m.setGuideBuf key buf).guideBuf key' = m.guideBuf key' := by
  have hcases : ∀ k ∈ guideKeys, k = "guideRMS" ∨ k = "guideSNR" := by
    intro k hk
    unfold guideKeys at hk
    simpa using hk
  unfold setGuideBuf guideBuf
  rcases hcases key hk with rfl | rfl <;> rcases hcases key' hk' with rfl | rfl
  · exact absurd rfl hne
  · rw [if_pos rfl, if_neg (Ne.symm hne), if_neg (Ne.symm hne)]
  · rw [if_neg hne, if_pos rfl, if_pos rfl]
  · exact absurd rfl hne

end Monitor

/-- The buffer of a key with one more sample. -/
def Monitor.filled (m : Monitor) (x : Measure) : GuideBuf :=
  ⟨(m.guideBuf x.key).samples ++ [x.value], x.mod, x.kind⟩

theorem measured_eq (m : Monitor) (x : Measure) (hs : 1 < m.sampling.toInt) (hx : x.mod ∈ m.slaves)
    (hk : x.key ∈ guideKeys) :
    measured sqrt m x =
      if m.sampling.toInt ≤ (m.filled x).samples.length then
        ((m.setGuideBuf x.key (m.filled x)).appendEvent (Monitor.flushed sqrt x.key (m.filled x))
          x.now x.next).andThen fun m =>
            .quiet (m.setGuideBuf x.key { m.guideBuf x.key with samples := [] }) ()
      else .quiet (m.setGuideBuf x.key (m.filled x)) () := by
  have hguide : x.key = "guideRMS" ∨ x.key = "guideSNR" := by
    unfold guideKeys at hk
    simpa using hk
  unfold measured Monitor.onOtherModuleEvent
  rw [if_neg (not_not.mpr rfl), if_neg (not_not.mpr hx)]
  simp only
  rw [if_neg (not_not.mpr rfl)]
  show (if x.key = "guideRMS" ∨ x.key = "guideSNR" then _ else _) = _
  rw [if_pos hguide, if_neg (by omega)]
  simp only [Monitor.sampling_setGuideBuf]
  rfl

/-- A measure that does not fill its buffer. -/
theorem measured_waits (m : Monitor) (x : Measure) (hs : 1 < m.sampling.toInt) (hx : x.mod ∈ m.slaves)
    (hk : x.key ∈ guideKeys) (hlt : (m.guideBuf x.key).samples.length + 1 < m.batch) :
    measured sqrt m x = .quiet (m.setGuideBuf x.key (m.filled x)) () := by
  have hlen : (m.filled x).samples.length = (m.guideBuf x.key).samples.length + 1 :=
    List.length_append
  unfold Monitor.batch at hlt
  rw [measured_eq sqrt m x hs hx hk, if_neg (by rw [hlen]; omega)]

/-- A row that a session takes. -/
theorem appendEvent_spec (m : Monitor) (row : EventRow) (now next : Reading)
    (ha : m.mSessionActive = true) (hk : row.key ∈ kChartKeys) :
    rowsOf (m.appendEvent row now next).evs = [{ row with ts := now.ts }] ∧
      (¬ (0 < m.maxrows.toInt ∧ m.maxrows.toInt ≤ m.mEvents.length + 1) →
        (m.appendEvent row now next).st =
          { m with mEvents := m.mEvents ++ [{ row with ts := now.ts }] }) := by
  have hquiet : ∀ m : Monitor, rowsOf (if m.AtLimit then
      m.stopSession.andThen fun m => m.startSession next else .quiet m ()).evs = [] := by
    intro m
    split
    · rw [Emits.andThen_evs, (stopSession_spec m).1]
      rfl
    · rfl
  unfold Monitor.appendEvent
  rw [if_neg (not_not.mpr hk), if_neg (by simp [ha])]
  constructor
  · rw [Emits.andThen_evs, rowsOf_append, hquiet]
    rfl
  · intro hopen
    rw [Emits.andThen_st, if_neg ?_]
    · rfl
    · unfold Monitor.AtLimit
      simpa using hopen

/-- The row of a measure that fills its buffer. -/
def Monitor.row (m : Monitor) (x : Measure) : EventRow :=
  { Monitor.flushed sqrt x.key (m.filled x) with ts := x.now.ts }

/-- **A measure that fills its buffer** is followed by the row of the buffer, and the session goes on
unless that is the last row. -/
theorem measured_flushes (m : Monitor) (x : Measure) (ha : m.mSessionActive = true)
    (hs : 1 < m.sampling.toInt) (hx : x.mod ∈ m.slaves) (hk : x.key ∈ guideKeys)
    (hge : m.batch ≤ (m.guideBuf x.key).samples.length + 1) :
    rowsOf (measured sqrt m x).evs = [m.row sqrt x] ∧
      (¬ (0 < m.maxrows.toInt ∧ m.maxrows.toInt ≤ m.mEvents.length + 1) →
        ∃ buf, buf.samples = [] ∧ (measured sqrt m x).st =
          ({ m.setGuideBuf x.key (m.filled x) with mEvents := m.mEvents ++ [m.row sqrt x] } :
            Monitor).setGuideBuf x.key buf) := by
  have hlen : (m.filled x).samples.length = (m.guideBuf x.key).samples.length + 1 :=
    List.length_append
  have hkey : (Monitor.flushed sqrt x.key (m.filled x)).key ∈ kChartKeys := by
    have hsub : guideKeys ⊆ kChartKeys := by
      unfold guideKeys kChartKeys
      simp
    exact hsub hk
  unfold Monitor.batch at hge
  rw [measured_eq sqrt m x hs hx hk, if_pos (by rw [hlen]; omega)]
  obtain ⟨hevs, hst⟩ := appendEvent_spec (m.setGuideBuf x.key (m.filled x))
    (Monitor.flushed sqrt x.key (m.filled x)) x.now x.next (by simp [ha]) hkey
  constructor
  · rw [Emits.andThen_evs, Emits.quiet_evs, List.append_nil]
    exact hevs
  · intro hopen
    refine ⟨{ (m.setGuideBuf x.key (m.filled x)).guideBuf x.key with samples := [] }, rfl, ?_⟩
    rw [Emits.andThen_st, Emits.quiet_st, hst (by simpa using hopen), Monitor.mEvents_setGuideBuf]
    rfl

/-! ## The batches of a session -/

/-- A batch of measures of a key, and its row. -/
structure RowOf (key : String) (g : List Measure) (row : EventRow) : Prop where
  key : row.key = key
  module : ∃ x ∈ g.getLast?, row.module = x.mod
  stats : Stats sqrt (g.map Measure.value) row

/-- The rows of a key are those of the batches of its measures, and the other measures wait in the
buffer. -/
def Batches (k : ℕ) (key : String) (xs : List Measure) (samples : List ℚ) (rows : List EventRow) :
    Prop :=
  ∃ groups pending, Grouped k (xs.filter fun x => x.key = key) groups pending ∧
    pending.map Measure.value = samples ∧
    List.Forall₂ (RowOf sqrt key) groups (rows.filter fun row => row.key = key)

/-- What is known in the session of the monitor `m₀` after some measures, and rows. -/
structure InSession (m₀ m : Monitor) (xs : List Measure) (rows : List EventRow) : Prop where
  active : m.mSessionActive = true
  sampling : m.sampling = m₀.sampling
  slaves : m.slaves = m₀.slaves
  maxrows : m.maxrows = m₀.maxrows
  events : m.mEvents = rows
  keys : ∀ row ∈ rows, row.key ∈ guideKeys
  batches : ∀ key ∈ guideKeys, Batches sqrt m₀.batch key xs (m.guideBuf key).samples rows

theorem keys_measured (m₀ m : Monitor) (xs : List Measure) (rows : List EventRow)
    (h : InSession sqrt m₀ m xs rows) (x : Measure) (hs : 1 < m₀.sampling.toInt)
    (hx : x.mod ∈ m₀.slaves) (hk : x.key ∈ guideKeys) :
    ∀ row ∈ rows ++ rowsOf (measured sqrt m x).evs, row.key ∈ guideKeys := by
  have hsm : 1 < m.sampling.toInt := by
    rw [h.sampling]
    exact hs
  have hxm : x.mod ∈ m.slaves := by
    rw [h.slaves]
    exact hx
  intro row hrow
  rcases List.mem_append.mp hrow with hrow | hrow
  · exact h.keys row hrow
  · by_cases hlt : (m.guideBuf x.key).samples.length + 1 < m.batch
    · rw [measured_waits sqrt m x hsm hxm hk hlt] at hrow
      exact (nomatch hrow)
    · rw [(measured_flushes sqrt m x h.active hsm hxm hk (not_lt.mp hlt)).1] at hrow
      rw [List.mem_singleton.mp hrow]
      exact hk

/-- **One measure further**, for the rows: the batch of its key grows or is closed. -/
theorem batches_measured (m₀ m : Monitor) (xs : List Measure) (rows : List EventRow)
    (h : InSession sqrt m₀ m xs rows) (x : Measure) (hs : 1 < m₀.sampling.toInt)
    (hx : x.mod ∈ m₀.slaves) (hk : x.key ∈ guideKeys) (key : String) (hkey : key ∈ guideKeys) :
    Batches sqrt m₀.batch key (xs ++ [x])
      (if key = x.key then
        if (m.guideBuf key).samples.length + 1 < m₀.batch then (m.filled x).samples else []
      else (m.guideBuf key).samples)
      (rows ++ rowsOf (measured sqrt m x).evs) := by
  obtain ⟨groups, pending, hgrouped, hpending, hrows⟩ := h.batches key hkey
  have hbatch : m.batch = m₀.batch := by
    unfold Monitor.batch
    rw [h.sampling]
  have hsm : 1 < m.sampling.toInt := by
    rw [h.sampling]
    exact hs
  have hxm : x.mod ∈ m.slaves := by
    rw [h.slaves]
    exact hx
  by_cases hsame : key = x.key
  · subst hsame
    have hown : (xs ++ [x]).filter (fun y => y.key = x.key) =
        xs.filter (fun y => y.key = x.key) ++ [x] := by
      rw [List.filter_append]
      simp
    have hlen : pending.length = (m.guideBuf x.key).samples.length := by
      rw [← hpending, List.length_map]
    have hfilled : (pending ++ [x]).map Measure.value = (m.filled x).samples := by
      rw [List.map_append, hpending]
      rfl
    rw [if_pos rfl]
    by_cases hlt : (m.guideBuf x.key).samples.length + 1 < m₀.batch
    · rw [if_pos hlt, measured_waits sqrt m x hsm hxm hk (by rw [hbatch]; exact hlt)]
      refine ⟨groups, pending ++ [x], ?_, hfilled, ?_⟩
      · rw [hown]
        exact hgrouped.push x (by rw [hlen]; exact hlt)
      · rw [Emits.quiet_evs]
        show List.Forall₂ _ _ ((rows ++ []).filter _)
        rw [List.append_nil]
        exact hrows
    · have hge : m₀.batch ≤ (m.guideBuf x.key).samples.length + 1 := not_lt.mp hlt
      rw [if_neg hlt, (measured_flushes sqrt m x h.active hsm hxm hk (by rw [hbatch]; exact hge)).1]
      refine ⟨groups ++ [pending ++ [x]], [], ?_, rfl, ?_⟩
      · rw [hown]
        exact hgrouped.close x (by rw [hlen]; exact hge)
      · have hrow : RowOf sqrt x.key (pending ++ [x]) (m.row sqrt x) := by
          refine ⟨rfl, ⟨x, by simp, rfl⟩, ?_⟩
          rw [hfilled]
          exact stats_flushed sqrt x.key (m.filled x) x.now.ts (by simp [Monitor.filled])
        have hkept : (rows ++ [m.row sqrt x]).filter (fun row => row.key = x.key) =
            rows.filter (fun row => row.key = x.key) ++ [m.row sqrt x] := by
          rw [List.filter_append, List.filter_singleton]
          have hkeyrow : (m.row sqrt x).key = x.key := rfl
          simp [hkeyrow]
        rw [hkept]
        exact List.rel_append hrows (.cons hrow .nil)
  · have hother : (xs ++ [x]).filter (fun y => y.key = key) = xs.filter fun y => y.key = key := by
      rw [List.filter_append]
      simp [Ne.symm hsame]
    have hevs : (rows ++ rowsOf (measured sqrt m x).evs).filter (fun row => row.key = key) =
        rows.filter fun row => row.key = key := by
      rw [List.filter_append]
      by_cases hlt : (m.guideBuf x.key).samples.length + 1 < m.batch
      · rw [measured_waits sqrt m x hsm hxm hk hlt]
        exact List.append_nil _
      · rw [(measured_flushes sqrt m x h.active hsm hxm hk (not_lt.mp hlt)).1]
        have hkeyrow : (m.row sqrt x).key = x.key := rfl
        simp [hkeyrow, Ne.symm hsame]
    rw [if_neg hsame]
    refine ⟨groups, pending, ?_, hpending, ?_⟩
    · rw [hother]
      exact hgrouped
    · rw [hevs]
      exact hrows

/-- **One measure further**, for the session, unless its row is the last one. -/
theorem inSession_measured (m₀ m : Monitor) (xs : List Measure) (rows : List EventRow)
    (h : InSession sqrt m₀ m xs rows) (x : Measure) (hs : 1 < m₀.sampling.toInt)
    (hx : x.mod ∈ m₀.slaves) (hk : x.key ∈ guideKeys)
    (hopen : m₀.maxrows.toInt ≤ 0 ∨
      ((rows ++ rowsOf (measured sqrt m x).evs).length : ℤ) < m₀.maxrows.toInt) :
    InSession sqrt m₀ (measured sqrt m x).st (xs ++ [x])
      (rows ++ rowsOf (measured sqrt m x).evs) := by
  have hbatches := batches_measured sqrt m₀ m xs rows h x hs hx hk
  have hbatch : m.batch = m₀.batch := by
    unfold Monitor.batch
    rw [h.sampling]
  have hsm : 1 < m.sampling.toInt := by
    rw [h.sampling]
    exact hs
  have hxm : x.mod ∈ m.slaves := by
    rw [h.slaves]
    exact hx
  -- the buffers after the measure
  have hbuffers : ∀ m' : Monitor, ∀ key ∈ guideKeys,
      (m'.guideBuf key).samples = (if key = x.key then
        if (m.guideBuf key).samples.length + 1 < m₀.batch then (m.filled x).samples else []
        else (m.guideBuf key).samples) →
      Batches sqrt m₀.batch key (xs ++ [x]) (m'.guideBuf key).samples
        (rows ++ rowsOf (measured sqrt m x).evs) := by
    intro m' key hkey heq
    rw [heq]
    exact hbatches key hkey
  by_cases hlt : (m.guideBuf x.key).samples.length + 1 < m.batch
  · have hwaits := measured_waits sqrt m x hsm hxm hk hlt
    have hst : (measured sqrt m x).st = m.setGuideBuf x.key (m.filled x) := by
      rw [hwaits]
      rfl
    have hevs : rowsOf (measured sqrt m x).evs = [] := by
      rw [hwaits]
      rfl
    refine ⟨?_, ?_, ?_, ?_, ?_, ?_, fun key hkey => hbuffers _ key hkey ?_⟩
    · rw [hst, Monitor.mSessionActive_setGuideBuf, h.active]
    · rw [hst, Monitor.sampling_setGuideBuf, h.sampling]
    · rw [hst, Monitor.slaves_setGuideBuf, h.slaves]
    · rw [hst, Monitor.maxrows_setGuideBuf, h.maxrows]
    · rw [hst, Monitor.mEvents_setGuideBuf, h.events, hevs, List.append_nil]
    · exact keys_measured sqrt m₀ m xs rows h x hs hx hk
    · rw [hst]
      by_cases hsame : key = x.key
      · rw [if_pos hsame, hsame, Monitor.guideBuf_setGuideBuf_self, if_pos (hbatch ▸ hlt)]
      · rw [if_neg hsame, Monitor.guideBuf_setGuideBuf_of_ne m x.key key _ hk hkey (Ne.symm hsame)]
  · obtain ⟨hevs, hst⟩ := measured_flushes sqrt m x h.active hsm hxm hk (not_lt.mp hlt)
    rw [hevs, List.length_append, List.length_singleton] at hopen
    obtain ⟨buf, hbuf, hst⟩ := hst fun hlimit => by
      rw [h.maxrows, h.events] at hlimit
      omega
    refine ⟨?_, ?_, ?_, ?_, ?_, ?_, fun key hkey => hbuffers _ key hkey ?_⟩
    · rw [hst, Monitor.mSessionActive_setGuideBuf]
      exact (Monitor.mSessionActive_setGuideBuf _ _ _).trans h.active
    · rw [hst, Monitor.sampling_setGuideBuf]
      exact (Monitor.sampling_setGuideBuf _ _ _).trans h.sampling
    · rw [hst, Monitor.slaves_setGuideBuf]
      exact (Monitor.slaves_setGuideBuf _ _ _).trans h.slaves
    · rw [hst, Monitor.maxrows_setGuideBuf]
      exact (Monitor.maxrows_setGuideBuf _ _ _).trans h.maxrows
    · rw [hst, Monitor.mEvents_setGuideBuf, hevs, h.events]
    · exact keys_measured sqrt m₀ m xs rows h x hs hx hk
    · rw [hst]
      by_cases hsame : key = x.key
      · rw [if_pos hsame, hsame, Monitor.guideBuf_setGuideBuf_self, hbuf,
          if_neg (by rw [← hbatch]; exact hlt)]
      · rw [if_neg hsame, Monitor.guideBuf_setGuideBuf_of_ne _ x.key key _ hk hkey (Ne.symm hsame)]
        exact congrArg GuideBuf.samples
          (Monitor.guideBuf_setGuideBuf_of_ne m x.key key _ hk hkey (Ne.symm hsame))

/-- How many rows the measures of some sources give. -/
def rowCount (k : ℕ) (sources : List (String × String)) : ℕ :=
  (sources.filter fun s => s.2 = "guideRMS").length / k +
    (sources.filter fun s => s.2 = "guideSNR").length / k

/-- The limit on the rows is not reached before the last measure. -/
def OneSession (m : Monitor) (sources : List (String × String)) : Prop :=
  m.maxrows.toInt ≤ 0 ∨ (rowCount m.batch sources.dropLast : ℤ) < m.maxrows.toInt

theorem rowCount_mono (k : ℕ) (sources : List (String × String)) (source : String × String) :
    rowCount k sources ≤ rowCount k (sources ++ [source]) := by
  have hle : ∀ key : String, (sources.filter fun s => s.2 = key).length / k ≤
      ((sources ++ [source]).filter fun s => s.2 = key).length / k := by
    intro key
    refine Nat.div_le_div_right ?_
    rw [List.filter_append, List.length_append]
    exact Nat.le_add_right _ _
  exact Nat.add_le_add (hle _) (hle _)

/-- The rows are as many as the batches. -/
theorem length_rows (k : ℕ) (xs : List Measure) (rows : List EventRow)
    (hkeys : ∀ row ∈ rows, row.key ∈ guideKeys)
    (h : ∀ key ∈ guideKeys, ∃ samples, Batches sqrt k key xs samples rows) :
    rows.length = rowCount k (xs.map Measure.source) := by
  have hcount : ∀ key ∈ guideKeys, (rows.filter fun row => row.key = key).length =
      ((xs.map Measure.source).filter fun s => s.2 = key).length / k := by
    intro key hkey
    obtain ⟨samples, groups, pending, hgrouped, -, hrows⟩ := h key hkey
    rw [← hrows.length_eq, hgrouped.length_groups, List.filter_map, List.length_map]
    rfl
  have hsplit : rows.length = (rows.filter fun row => row.key = "guideRMS").length +
      (rows.filter fun row => row.key = "guideSNR").length := by
    have hsnr : rows.filter (fun row => !decide (row.key = "guideRMS")) =
        rows.filter fun row => row.key = "guideSNR" := by
      refine List.filter_congr fun row hrow => ?_
      have hkey := hkeys row hrow
      unfold guideKeys at hkey
      rcases List.mem_cons.mp hkey with hkey | hkey
      · simp [hkey]
      · simp [List.mem_singleton.mp hkey]
    rw [← hsnr]
    exact (List.length_eq_length_filter_add _)
  rw [hsplit, hcount _ (by simp [guideKeys]), hcount _ (by simp [guideKeys])]
  rfl

theorem measuredAll_append (m : Monitor) (xs : List Measure) (x : Measure) :
    (measuredAll sqrt m (xs ++ [x])).st = (measured sqrt (measuredAll sqrt m xs).st x).st ∧
      rowsOf (measuredAll sqrt m (xs ++ [x])).evs =
        rowsOf (measuredAll sqrt m xs).evs ++
          rowsOf (measured sqrt (measuredAll sqrt m xs).st x).evs := by
  unfold measuredAll
  induction xs generalizing m with
  | nil =>
    refine ⟨rfl, ?_⟩
    rw [List.nil_append, Emits.each_cons, Emits.andThen_evs, rowsOf_append]
    exact List.append_nil _
  | cons y xs ih =>
    obtain ⟨hst, hevs⟩ := ih (measured sqrt m y).st
    refine ⟨hst, ?_⟩
    rw [List.cons_append, Emits.each_cons, Emits.andThen_evs, rowsOf_append, hevs, Emits.each_cons,
      Emits.andThen_evs, rowsOf_append, List.append_assoc]
    rfl

theorem inSession_start (m : Monitor) (now : Reading) (hs : 1 < m.sampling.toInt) :
    InSession sqrt m (m.startSession now).st [] [] := by
  refine ⟨rfl, rfl, rfl, rfl, rfl, fun _ h => (nomatch h), fun key _ => ⟨[], [], ?_, ?_, .nil⟩⟩
  · refine Grouped.nil _ ?_
    unfold Monitor.batch
    omega
  · show [] = (Monitor.guideBuf _ key).samples
    unfold Monitor.guideBuf
    split <;> rfl

/-- **In a session** that the limit does not end. -/
theorem inSession_run (m : Monitor) (now : Reading) (xs : List Measure) (hs : 1 < m.sampling.toInt)
    (hw : ∀ x ∈ xs, x.mod ∈ m.slaves ∧ x.key ∈ guideKeys)
    (hopen : m.maxrows.toInt ≤ 0 ∨
      (rowCount m.batch (xs.map Measure.source) : ℤ) < m.maxrows.toInt) :
    InSession sqrt m (measuredAll sqrt (m.startSession now).st xs).st xs
      (rowsOf (measuredAll sqrt (m.startSession now).st xs).evs) := by
  induction xs using List.reverseRecOn with
  | nil => exact inSession_start sqrt m now hs
  | append_singleton xs x ih =>
    have hmono := rowCount_mono m.batch (xs.map Measure.source) x.source
    rw [List.map_append, List.map_singleton] at hopen
    have hrest := ih (fun y hy => hw y (List.mem_append_left [x] hy))
      (hopen.imp_right fun h => by omega)
    obtain ⟨hx, hk⟩ := hw x (List.mem_append_right xs (List.mem_singleton_self x))
    obtain ⟨hst, hevs⟩ := measuredAll_append sqrt (m.startSession now).st xs x
    rw [hst, hevs]
    refine inSession_measured sqrt m _ xs _ hrest x hs hx hk ?_
    rw [length_rows sqrt m.batch (xs ++ [x]) _ (keys_measured sqrt m _ xs _ hrest x hs hx hk)
      fun key hkey => ⟨_, batches_measured sqrt m _ xs _ hrest x hs hx hk key hkey⟩, List.map_append,
      List.map_singleton]
    exact hopen

/-- **The rows of a session**, up to the one that ends it. -/
theorem batches_run (m : Monitor) (now : Reading) (xs : List Measure) (hs : 1 < m.sampling.toInt)
    (hw : ∀ x ∈ xs, x.mod ∈ m.slaves ∧ x.key ∈ guideKeys)
    (hone : OneSession m (xs.map Measure.source)) (key : String) (hkey : key ∈ guideKeys) :
    ∃ samples, Batches sqrt m.batch key xs samples
      (rowsOf (measuredAll sqrt (m.startSession now).st xs).evs) := by
  rcases List.eq_nil_or_concat xs with rfl | ⟨init, x, rfl⟩
  · exact ⟨_, (inSession_start sqrt m now hs).batches key hkey⟩
  · rw [List.concat_eq_append] at hw hone ⊢
    have hinit := inSession_run sqrt m now init hs (fun y hy => hw y (List.mem_append_left [x] hy)) (by
      unfold OneSession at hone
      rwa [List.map_append, List.map_singleton, List.dropLast_concat] at hone)
    obtain ⟨hx, hk⟩ := hw x (List.mem_append_right init (List.mem_singleton_self x))
    rw [(measuredAll_append sqrt (m.startSession now).st init x).2]
    exact ⟨_, batches_measured sqrt m _ init _ hinit x hs hx hk key hkey⟩

/-! ## The rows of a module -/

/-- The rows of each module and key are the statistics of batches of its measures, all of them but
those that wait for a batch. -/
def Sampled (k : ℕ) (xs : List Measure) (rows : List EventRow) : Prop :=
  ∀ mod : String, ∀ key ∈ guideKeys, ∃ groups pending,
    Grouped k ((xs.filter fun x => x.source = (mod, key)).map Measure.value) groups pending ∧
      List.Forall₂ (Stats sqrt) groups (rows.filter fun row => row.module = mod ∧ row.key = key)

/-- No batch of a key, counted over all modules, is of two modules. -/
def Unmixed (k : ℕ) (sources : List (String × String)) : Prop :=
  ∀ key ∈ guideKeys, ∀ groups pending,
    Grouped k ((sources.filter fun s => s.2 = key).map Prod.fst) groups pending →
      ∀ g ∈ groups, ∀ a ∈ g, ∀ b ∈ g, a = b

/-- The batches of the modules of the measures. -/
theorem filter_source (xs : List Measure) (key : String) :
    ((xs.map Measure.source).filter fun s => s.2 = key).map Prod.fst =
      (xs.filter fun x => x.key = key).map Measure.mod := by
  rw [List.filter_map, List.map_map]
  rfl

/-- **Where no batch is mixed**, the rows are those of the modules. -/
theorem sampled_of_unmixed (k : ℕ) (xs : List Measure) (rows : List EventRow)
    (h : ∀ key ∈ guideKeys, ∃ samples, Batches sqrt k key xs samples rows)
    (hunmixed : Unmixed k (xs.map Measure.source)) : Sampled sqrt k xs rows := by
  intro mod key hkey
  obtain ⟨samples, groups, pending, hgrouped, -, hrows⟩ := h key hkey
  have hsame : ∀ g ∈ groups, ∀ a ∈ g, ∀ b ∈ g, a.mod = b.mod := by
    intro g hg a ha b hb
    have hmods := hgrouped.map Measure.mod
    rw [← filter_source] at hmods
    exact hunmixed key hkey _ _ hmods _ (List.mem_map_of_mem hg) _ (List.mem_map_of_mem ha) _
      (List.mem_map_of_mem hb)
  have hfilter := (hgrouped.filter (fun x => x.mod = mod) fun g hg a ha b hb => by
    rw [hsame g hg a ha b hb]).map Measure.value
  have hxs : (xs.filter fun x => x.key = key).filter (fun x => x.mod = mod) =
      xs.filter fun x => x.source = (mod, key) := by
    rw [List.filter_filter]
    refine List.filter_congr fun x _ => ?_
    unfold Measure.source
    simp
  rw [hxs] at hfilter
  refine ⟨_, _, hfilter, ?_⟩
  -- the batches of the module are those whose rows are
  have hpaired : List.Forall₂ (fun g row => (∀ a ∈ g, ∀ b ∈ g, a.mod = b.mod) ∧
      RowOf sqrt key g row) groups (rows.filter fun row => row.key = key) :=
    (List.forall₂_and_left groups _).mpr ⟨hsame, hrows⟩
  have hown := List.rel_filter (p := fun g : List Measure => g.all fun x => x.mod = mod)
    (q := fun row : EventRow => row.module = mod) (fun g row hrel => by
      obtain ⟨hsame, -, ⟨x, hx, hmod⟩, -⟩ := hrel
      have hmem : x ∈ g := List.mem_of_getLast? hx
      simp only [List.all_eq_true, decide_eq_true_iff]
      rw [hmod]
      constructor
      · intro hall
        exact hall x hmem
      · intro heq y hy
        rw [hsame y hy x hmem]
        exact heq) hpaired
  have hrowsof : (rows.filter fun row => row.key = key).filter (fun row => row.module = mod) =
      rows.filter fun row => row.module = mod ∧ row.key = key := by
    rw [List.filter_filter]
    refine List.filter_congr fun row _ => ?_
    simp
  rw [hrowsof] at hown
  exact List.forall₂_map_left_iff.mpr (hown.imp fun _ _ h => h.2.stats)

/-! ## A mixed batch -/

/-- A signal of a module with a number. -/
def signal (now : Reading) (source : String × String) (v : ℚ) : Measure where
  mod := source.1
  data := .obj [("e", .object ((OrdMap.empty.insert "val_num" (.num v)).insert "event"
    (.str source.2)))]
  now := now
  next := now

theorem source_signal (now : Reading) (source : String × String) (v : ℚ) :
    (signal now source v).source = source := by
  unfold Measure.source Measure.key signal
  simp only
  rw [Json.field_single, Json.field_object, OrdMap.get?_insert_self]
  rfl

theorem value_signal (now : Reading) (source : String × String) (v : ℚ) :
    (signal now source v).value = v := by
  unfold Measure.value signal
  simp only
  rw [Json.field_single, Json.field_object, OrdMap.get?_insert_of_ne _ _ _ _ (by decide),
    OrdMap.get?_insert_self]
  rfl

/-- Numbers up to one with the mean one are ones. -/
theorem eq_one_of_mean (l : List ℚ) (hle : ∀ v ∈ l, v ≤ 1) (h : Lib.mean l = 1) :
    ∀ v ∈ l, v = 1 := by
  have hsum : ∀ l : List ℚ, (∀ v ∈ l, v ≤ 1) → l.sum ≤ l.length ∧
      (l.sum = l.length → ∀ v ∈ l, v = 1) := by
    intro l hle
    induction l with
    | nil => simp
    | cons a l ih =>
      obtain ⟨hrest, hones⟩ := ih fun v hv => hle v (List.mem_cons_of_mem a hv)
      have ha := hle a List.mem_cons_self
      rw [List.sum_cons, List.length_cons, Nat.cast_succ]
      refine ⟨by linarith, fun heq v hv => ?_⟩
      rcases List.mem_cons.mp hv with rfl | hv
      · linarith
      · exact hones (by linarith) v hv
  refine (hsum l hle).2 ?_
  unfold Lib.mean at h
  have hlen : (l.length : ℚ) ≠ 0 := by
    intro hzero
    rw [hzero, div_zero] at h
    exact zero_ne_one h
  rwa [div_eq_one_iff_eq hlen] at h

/-- The mean of ones. -/
theorem mean_of_ones (l : List ℚ) (hl : l ≠ []) (h : ∀ v ∈ l, v = 1) : Lib.mean l = 1 := by
  have hlen : (l.length : ℚ) ≠ 0 := Nat.cast_ne_zero.mpr (mt List.length_eq_zero_iff.mp hl)
  have hrep : l = List.replicate l.length 1 := List.eq_replicate_of_mem h
  unfold Lib.mean
  rw [div_eq_one_iff_eq hlen, hrep]
  simp

theorem exists_of_mem_left {α β : Type} {R : α → β → Prop} {l : List α} {u : List β}
    (h : List.Forall₂ R l u) (a : α) (ha : a ∈ l) : ∃ b ∈ u, R a b := by
  induction h with
  | nil => exact (nomatch ha)
  | cons hR _ ih =>
    rcases List.mem_cons.mp ha with rfl | ha
    · exact ⟨_, List.mem_cons_self, hR⟩
    · obtain ⟨b, hb, hab⟩ := ih ha
      exact ⟨b, List.mem_cons_of_mem _ hb, hab⟩

theorem exists_of_mem_right {α β : Type} {R : α → β → Prop} {l : List α} {u : List β}
    (h : List.Forall₂ R l u) (b : β) (hb : b ∈ u) : ∃ a ∈ l, R a b :=
  exists_of_mem_left h.flip b hb

/-- **The rows are those of the modules** exactly if no batch is of two modules. -/
theorem sampled_iff (m : Monitor) (now : Reading) (sources : List (String × String))
    (hs : 1 < m.sampling.toInt) (hw : ∀ s ∈ sources, s.1 ∈ m.slaves ∧ s.2 ∈ guideKeys)
    (hone : OneSession m sources) :
    (∀ xs : List Measure, xs.map Measure.source = sources →
      Sampled sqrt m.batch xs (rowsOf (measuredAll sqrt (m.startSession now).st xs).evs)) ↔
    Unmixed m.batch sources := by
  have hbatches : ∀ xs : List Measure, xs.map Measure.source = sources → ∀ key ∈ guideKeys,
      ∃ samples, Batches sqrt m.batch key xs samples
        (rowsOf (measuredAll sqrt (m.startSession now).st xs).evs) := by
    rintro xs rfl key hkey
    exact batches_run sqrt m now xs hs (fun x hx => hw _ (List.mem_map_of_mem hx)) hone key hkey
  constructor
  · intro h key hkey mods waiting hmods g hg a ha b hb
    -- the module of the row of the batch signals ones, and the others zeros
    obtain ⟨last, hlast⟩ : ∃ last, g.getLast? = some last :=
      ⟨_, List.getLast?_eq_some_getLast (List.ne_nil_of_mem ha)⟩
    have hsource : (sources.map fun s => signal now s (if s.1 = last then 1 else 0)).map
        Measure.source = sources := by
      rw [List.map_map]
      refine (List.map_congr_left fun s _ => ?_).trans (List.map_id sources)
      exact source_signal now s _
    generalize hxs : (sources.map fun s => signal now s (if s.1 = last then 1 else 0)) = xs
      at hsource
    have hvalue : ∀ x ∈ xs, x.value = if x.mod = last then 1 else 0 := by
      intro x hx
      rw [← hxs] at hx
      obtain ⟨s, -, rfl⟩ := List.mem_map.mp hx
      exact value_signal now s _
    obtain ⟨samples, groups, pending, hgrouped, -, hrows⟩ := hbatches xs hsource key hkey
    have hmap := hgrouped.map Measure.mod
    rw [← filter_source, hsource] at hmap
    rw [hmods.unique _ _ hmap] at hg
    obtain ⟨batch, hbatch, rfl⟩ := List.mem_map.mp hg
    obtain ⟨row, hrow, hrowof⟩ := exists_of_mem_left hrows batch hbatch
    obtain ⟨x, hx, hmod⟩ := hrowof.module
    have hlastx : x.mod = last := by
      rw [List.getLast?_map, hx] at hlast
      exact Option.some.inj hlast
    have hmem : row ∈ (rowsOf (measuredAll sqrt (m.startSession now).st xs).evs).filter
        fun row => row.module = last ∧ row.key = key := by
      rw [List.mem_filter] at hrow ⊢
      exact ⟨hrow.1, decide_eq_true ⟨hmod.trans hlastx, of_decide_eq_true hrow.2⟩⟩
    -- by the statistics of the module the mean is one
    obtain ⟨groupsV, pendingV, hgroupedV, hrowsV⟩ := h xs hsource last key hkey
    obtain ⟨gv, hgv, hstats⟩ := exists_of_mem_right hrowsV row hmem
    have hones : ∀ v ∈ gv, v = 1 := by
      intro v hv
      have hflat : v ∈ (xs.filter fun x => x.source = (last, key)).map Measure.value := by
        rw [← hgroupedV.flatten]
        exact List.mem_append_left _ (List.mem_flatten.mpr ⟨gv, hgv, hv⟩)
      obtain ⟨y, hy, rfl⟩ := List.mem_map.mp hflat
      obtain ⟨hy, hsrc⟩ := List.mem_filter.mp hy
      have hymod : y.mod = last := congrArg Prod.fst (of_decide_eq_true hsrc)
      rw [hvalue y hy, if_pos hymod]
    have hne : gv ≠ [] := by
      have hlen := hgroupedV.full gv hgv
      have hpos := hgroupedV.pos
      intro hnil
      rw [hnil, List.length_nil] at hlen
      omega
    have hmean : Lib.mean (batch.map Measure.value) = 1 := by
      rw [← hrowof.stats.mean, hstats.mean]
      exact mean_of_ones gv hne hones
    -- so that all of the batch are of that module
    have hxs : ∀ y ∈ batch, y ∈ xs := by
      intro y hy
      have hflat : y ∈ xs.filter fun x => x.key = key := by
        rw [← hgrouped.flatten]
        exact List.mem_append_left _ (List.mem_flatten.mpr ⟨batch, hbatch, hy⟩)
      exact (List.mem_filter.mp hflat).1
    have hle : ∀ v ∈ batch.map Measure.value, v ≤ 1 := by
      intro v hv
      obtain ⟨y, hy, rfl⟩ := List.mem_map.mp hv
      rw [hvalue y (hxs y hy)]
      split <;> norm_num
    have hall : ∀ y ∈ batch, y.mod = last := by
      intro y hy
      have hone := eq_one_of_mean _ hle hmean _ (List.mem_map_of_mem hy)
      rw [hvalue y (hxs y hy)] at hone
      by_contra hne
      rw [if_neg hne] at hone
      exact zero_ne_one hone
    obtain ⟨y, hy, rfl⟩ := List.mem_map.mp ha
    obtain ⟨z, hz, rfl⟩ := List.mem_map.mp hb
    rw [hall y hy, hall z hz]
  · rintro hunmixed xs rfl
    exact sampled_of_unmixed sqrt m.batch xs _ (hbatches xs rfl) hunmixed

/-- A monitor of two modules that guide, with rows of two measures. -/
def guidingMonitor : Monitor where
  name := "monitor"
  sampling := 2
  slaves := ["guider", "blindpec"]

theorem validDay : isValidDate 2026 9 1 = true := by decide

theorem validHour : isValidTime 21 30 0 0 = true := by decide

def guidingReading : Reading := ⟨⟨2026, 9, 1, validDay⟩, ⟨21, 30, 0, 0, validHour⟩⟩

/-- The two measures of one module. -/
theorem sampled_guider : Sampled id 2
    [signal guidingReading ("guider", "guideRMS") 1, signal guidingReading ("guider", "guideRMS") 3]
    (rowsOf (measuredAll id (guidingMonitor.startSession guidingReading).st
      [signal guidingReading ("guider", "guideRMS") 1,
        signal guidingReading ("guider", "guideRMS") 3]).evs) := by
  refine (sampled_iff id guidingMonitor guidingReading
    [("guider", "guideRMS"), ("guider", "guideRMS")] (by decide) ?_ (Or.inr (by decide))).mpr ?_ _ ?_
  · intro s hs
    have hsame : s = ("guider", "guideRMS") := by simpa using hs
    rw [hsame]
    simp [guidingMonitor, guideKeys]
  · intro key _ groups pending hgrouped g hg a ha b hb
    have hguider : ∀ c ∈ g, c = "guider" := by
      intro c hc
      have hflat : c ∈ (([("guider", "guideRMS"), ("guider", "guideRMS")] : List (String × String)).filter
          fun s => s.2 = key).map Prod.fst := by
        rw [← hgrouped.flatten]
        exact List.mem_append_left _ (List.mem_flatten.mpr ⟨g, hg, hc⟩)
      obtain ⟨s, hs, rfl⟩ := List.mem_map.mp hflat
      have hsame : s = ("guider", "guideRMS") := by simpa using (List.mem_filter.mp hs).1
      rw [hsame]
    rw [hguider a ha, hguider b hb]
  · simp only [List.map_cons, List.map_nil, source_signal]

/-- One measure of each of two modules makes a row of the second, which has no two measures. -/
theorem not_sampled : ¬ ∀ (m : Monitor) (now : Reading) (xs : List Measure), 1 < m.sampling.toInt →
    (∀ x ∈ xs, x.mod ∈ m.slaves ∧ x.key ∈ guideKeys) → OneSession m (xs.map Measure.source) →
    Sampled id m.batch xs (rowsOf (measuredAll id (m.startSession now).st xs).evs) := by
  intro h
  generalize hfirst : signal guidingReading ("guider", "guideRMS") 1 = first
  generalize hsecond : signal guidingReading ("blindpec", "guideRMS") 3 = second
  have hsource₁ : first.source = ("guider", "guideRMS") := by
    rw [← hfirst]
    exact source_signal _ _ _
  have hsource₂ : second.source = ("blindpec", "guideRMS") := by
    rw [← hsecond]
    exact source_signal _ _ _
  have hkey₁ : first.key = "guideRMS" := congrArg Prod.snd hsource₁
  have hkey₂ : second.key = "guideRMS" := congrArg Prod.snd hsource₂
  have hmod₁ : first.mod = "guider" := congrArg Prod.fst hsource₁
  have hmod₂ : second.mod = "blindpec" := congrArg Prod.fst hsource₂
  have hrms : "guideRMS" ∈ guideKeys := by simp [guideKeys]
  have hwatched : ∀ x ∈ [first, second], x.mod ∈ guidingMonitor.slaves ∧ x.key ∈ guideKeys := by
    intro x hx
    rcases List.mem_cons.mp hx with rfl | hx
    · rw [hkey₁, hmod₁]
      exact ⟨List.mem_cons_self, hrms⟩
    · rw [List.mem_singleton.mp hx, hkey₂, hmod₂]
      exact ⟨List.mem_cons_of_mem _ List.mem_cons_self, hrms⟩
  have hone : OneSession guidingMonitor ([first, second].map Measure.source) := by
    rw [List.map_cons, List.map_cons, List.map_nil, hsource₁, hsource₂]
    exact Or.inr (by decide)
  have hsampled := h guidingMonitor guidingReading _ (by decide) hwatched hone
  obtain ⟨samples, groups, pending, hgrouped, -, hrows⟩ := batches_run id guidingMonitor
    guidingReading _ (by decide) hwatched hone "guideRMS" hrms
  have hbatch : guidingMonitor.batch = 2 := by decide
  rw [hbatch] at hgrouped hsampled
  -- the two measures are a batch, and its row is of the second module
  have hboth : [first, second].filter (fun x => x.key = "guideRMS") = [first, second] := by
    rw [List.filter_eq_self]
    intro x hx
    rcases List.mem_cons.mp hx with rfl | hx
    · exact decide_eq_true hkey₁
    · rw [List.mem_singleton.mp hx]
      exact decide_eq_true hkey₂
  rw [hboth] at hgrouped
  have hone : groups.length = 1 := hgrouped.length_groups.trans (by simp)
  obtain ⟨batch, rfl⟩ := List.length_eq_one_iff.mp hone
  have hflatten := hgrouped.flatten
  have hfull := hgrouped.full batch (List.mem_singleton_self batch)
  rw [List.flatten_singleton] at hflatten
  obtain ⟨rfl, -⟩ := List.append_inj (hflatten.trans (List.append_nil _).symm) hfull
  obtain ⟨row, hrow, hrowof⟩ := exists_of_mem_left hrows _ (List.mem_singleton_self [first, second])
  obtain ⟨x, hx, hmod⟩ := hrowof.module
  have hlast : second = x := Option.some.inj hx
  subst hlast
  -- but its only measure is no batch
  obtain ⟨groupsV, pendingV, hgroupedV, hrowsV⟩ := hsampled "blindpec" "guideRMS" hrms
  have honly : [first, second].filter (fun x => x.source = ("blindpec", "guideRMS")) = [second] := by
    rw [List.filter_cons, List.filter_cons, List.filter_nil, hsource₁, hsource₂]
    rfl
  rw [honly] at hgroupedV
  have hnone : groupsV.length = 0 := hgroupedV.length_groups.trans (by simp)
  rw [List.length_eq_zero_iff.mp hnone] at hrowsV
  obtain ⟨gv, hgv, -⟩ := exists_of_mem_right hrowsV row (by
    rw [List.mem_filter] at hrow ⊢
    exact ⟨hrow.1, decide_eq_true ⟨hmod.trans hmod₂, of_decide_eq_true hrow.2⟩⟩)
  exact nomatch hgv

end Ost.Monitoring
