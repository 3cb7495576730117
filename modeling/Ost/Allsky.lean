import Mathlib.Data.List.Nodup
import Ost.Lib.Run

/-!
# The folders of the all-sky loop

A loop writes its images to a folder named after the time of its start.  When it stops, an encoder
is started on the folder, and when the encoder has ended, well or not, the folder is moved to the
archives, unless a loop runs.

There is one name of a current folder.  The callbacks of the encoder use it, and every start of a
loop overwrites it, also a start that the camera refuses.

Algorithm: `startLoop`, `stopLoop`, `startTimelapseBatch`, `processFinished`, `processError` and
`moveCurrentToArchives` of the all-sky module.

Main theorems:
    kept_step:  what is known of the folders, one step further
    archived:   if loops start when the encoder has ended, under a name that is not in the archives,
      every folder is encoded and moved once
-/

namespace Ost.AllskyLoop

open Lib

/-! ## Algorithm -/

structure Allsky where
  moduleName : String := "allsky"
  mIsLooping : Bool := false
  mFolder : String := ""
  /-- the folder that the running `_process` was started on -/
  process : Option String := none
  -- the disk: the module's directory and its `archives`
  folders : List String := []
  archives : List String := []
  /-- the video element -/
  timelapse : String := ""
  -- what has happened, latest first
  completed : List String := []
  encoded : List String := []
  moved : List String := []
  deriving DecidableEq

namespace Allsky

/-- `now` is the time as the name of a folder; the camera takes the first exposure or not. -/
def startLoop (s : Allsky) (now : String) (camera : Bool) : Allsky :=
  -- Already looping
  if s.mIsLooping then s
  else
    let s := { s with mFolder := now, folders := s.folders.insert now }
    if !camera then s else { s with mIsLooping := true }

def startTimelapseBatch (s : Allsky) : Allsky :=
  match s.process with
  -- can't start process
  | some _ => s
  | none => { s with process := some s.mFolder, encoded := s.mFolder :: s.encoded }

def stopLoop (s : Allsky) : Allsky :=
  if !s.mIsLooping then s
  else { s with mIsLooping := false, completed := s.mFolder :: s.completed }.startTimelapseBatch

/-- `rename` moves a folder that is there to a place that is free. -/
def moveCurrentToArchives (s : Allsky) : Allsky :=
  if s.mFolder ∈ s.folders ∧ s.mFolder ∉ s.archives then
    { s with
      folders := s.folders.filter (· ≠ s.mFolder), archives := s.mFolder :: s.archives
      moved := s.mFolder :: s.moved }
  else s

def processFinished (s : Allsky) : Allsky :=
  let s := { s with timelapse := s.moduleName ++ "/" ++ s.mFolder ++ "/timelapse.mp4" }
  if !s.mIsLooping then s.moveCurrentToArchives else s

def processError (s : Allsky) : Allsky :=
  if !s.mIsLooping then s.moveCurrentToArchives else s

/-- What the process reports. -/
inductive Report where
  | finished
  /-- it could not be started -/
  | failedToStart
  /-- an error, and the end -/
  | crashed
  /-- an error that it survives -/
  | error
  deriving DecidableEq, Repr

inductive Input where
  | start (now : String) (camera : Bool)
  | stop
  | encoder (report : Report)
  deriving DecidableEq, Repr

def step (s : Allsky) : Input → Allsky
  | .start now camera => s.startLoop now camera
  | .stop => s.stopLoop
  | .encoder report =>
    match s.process, report with
    | none, _ => s
    | some _, .finished => { s with process := none }.processFinished
    | some _, .failedToStart => { s with process := none }.processError
    | some _, .crashed => { s with process := none }.processError.processFinished
    | some _, .error => s.processError

/-! ## Folders -/

/-- Every loop's folder is encoded and moved once, not while the loop writes to it, and all of them
are moved when nothing runs. -/
structure Archived (s : Allsky) : Prop where
  encodedOnce : ∀ f ∈ s.completed, s.encoded.count f = 1
  movedOnce : ∀ f ∈ s.completed, s.moved.count f ≤ 1
  looping : s.mIsLooping = true → s.mFolder ∈ s.folders ∧ s.mFolder ∉ s.encoded ∧
    s.mFolder ∉ s.moved
  settled : s.mIsLooping = false → s.process = none → ∀ f ∈ s.completed, s.moved.count f = 1

/-- A loop starts when the encoder has ended, under a name that is not in the archives. -/
def Orderly (s : Allsky) : Input → Prop
  | .start now _ => s.mIsLooping = true ∨ s.process = none ∧ now ∉ s.archives
  | _ => True

instance (s : Allsky) (i : Input) : Decidable (s.Orderly i) :=
  match i with
  | .start now _ => inferInstanceAs (Decidable (s.mIsLooping = true ∨ s.process = none ∧
      now ∉ s.archives))
  | .stop | .encoder _ => isTrue trivial

/-- What is known of the folders when loops start so. -/
structure Kept (s : Allsky) : Prop where
  encoded : s.encoded = s.completed
  once : s.completed.Nodup
  movedOnce : s.moved.Nodup
  archives : ∀ f ∈ s.moved, f ∈ s.archives
  /-- the encoder works on the current folder -/
  process : ∀ f, s.process = some f → s.mFolder = f ∧ s.mIsLooping = false
  looping : s.mIsLooping = true → s.mFolder ∈ s.folders ∧ s.mFolder ∉ s.archives ∧
    s.mFolder ∉ s.completed
  /-- what is not moved is in its place, and the encoder's -/
  waiting : ∀ f ∈ s.completed, f ∈ s.moved ∨ s.process = some f ∧ f ∈ s.folders ∧ f ∉ s.archives

/-! ## Lemmas -/

section
variable {s : Allsky}

/-- Every completed folder is moved, but perhaps the current one, which is in its place. -/
structure AlmostMoved (s : Allsky) : Prop where
  encoded : s.encoded = s.completed
  once : s.completed.Nodup
  movedOnce : s.moved.Nodup
  archives : ∀ f ∈ s.moved, f ∈ s.archives
  looping : s.mIsLooping = false
  waiting : ∀ f ∈ s.completed, f ∈ s.moved ∨ f = s.mFolder ∧ f ∈ s.folders ∧ f ∉ s.archives

/-- All of them are, and nothing else has changed. -/
structure MovedFrom (s t : Allsky) : Prop where
  almost : t.AlmostMoved
  process : t.process = s.process
  folder : t.mFolder = s.mFolder
  all : ∀ f ∈ t.completed, f ∈ t.moved

/-- A move leaves none behind. -/
theorem AlmostMoved.move (h : s.AlmostMoved) : s.MovedFrom s.moveCurrentToArchives := by
  unfold moveCurrentToArchives
  split
  · next hplace =>
    have hnew : s.mFolder ∉ s.moved := fun hm => hplace.2 (h.archives _ hm)
    have hall : ∀ f ∈ s.completed, f ∈ s.mFolder :: s.moved := by
      intro f hf
      rcases h.waiting f hf with hm | ⟨rfl, -⟩
      · exact List.mem_cons_of_mem _ hm
      · exact List.mem_cons_self
    refine ⟨⟨h.encoded, h.once, List.nodup_cons.mpr ⟨hnew, h.movedOnce⟩, ?_, h.looping,
      fun f hf => .inl (hall f hf)⟩, rfl, rfl, hall⟩
    intro f hf
    rcases List.mem_cons.mp hf with rfl | hf
    · exact List.mem_cons_self
    · exact List.mem_cons_of_mem _ (h.archives f hf)
  · next hplace =>
    refine ⟨h, rfl, rfl, fun f hf => ?_⟩
    rcases h.waiting f hf with hm | ⟨rfl, hin, hout⟩
    · exact hm
    · exact absurd ⟨hin, hout⟩ hplace

theorem AlmostMoved.processError (h : s.AlmostMoved) : s.MovedFrom s.processError := by
  unfold Allsky.processError
  rw [if_pos (by rw [h.looping]; rfl)]
  exact h.move

theorem AlmostMoved.processFinished (h : s.AlmostMoved) : s.MovedFrom s.processFinished := by
  have hvideo : ({ s with timelapse := s.moduleName ++ "/" ++ s.mFolder ++ "/timelapse.mp4" } :
      Allsky).AlmostMoved :=
    ⟨h.encoded, h.once, h.movedOnce, h.archives, h.looping, h.waiting⟩
  unfold Allsky.processFinished
  dsimp only
  rw [if_pos (by rw [h.looping]; rfl)]
  obtain ⟨halmost, hprocess, hfolder, hall⟩ := hvideo.move
  exact ⟨halmost, hprocess, hfolder, hall⟩

theorem Kept.almostMoved (h : s.Kept) (f : String) (hp : s.process = some f) : s.AlmostMoved := by
  obtain ⟨hfolder, hloop⟩ := h.process f hp
  refine ⟨h.encoded, h.once, h.movedOnce, h.archives, hloop, fun g hg => ?_⟩
  rcases h.waiting g hg with hm | ⟨hproc, hin⟩
  · exact .inl hm
  · obtain rfl := Option.some.inj (hp.symm.trans hproc)
    exact .inr ⟨hfolder.symm, hin⟩

theorem MovedFrom.kept {t : Allsky} (h : s.MovedFrom t)
    (hp : ∀ f, s.process = some f → s.mFolder = f) : t.Kept := by
  obtain ⟨halmost, hprocess, hfolder, hall⟩ := h
  refine ⟨halmost.encoded, halmost.once, halmost.movedOnce, halmost.archives,
    fun f hf => ⟨?_, halmost.looping⟩, fun hl => (nomatch halmost.looping.symm.trans hl),
    fun f hf => .inl (hall f hf)⟩
  rw [hfolder]
  exact hp f (hprocess.symm.trans hf)

/-- A report of the encoder. -/
theorem kept_encoder (report : Report) (h : s.Kept) : (s.step (.encoder report)).Kept := by
  cases hp : s.process with
  | none =>
    unfold step
    rw [hp]
    exact h
  | some f =>
    have halmost := h.almostMoved f hp
    have hended : ({ s with process := none } : Allsky).AlmostMoved :=
      ⟨halmost.encoded, halmost.once, halmost.movedOnce, halmost.archives, halmost.looping,
        halmost.waiting⟩
    unfold step
    rw [hp]
    cases report with
    | finished => exact hended.processFinished.kept nofun
    | failedToStart => exact hended.processError.kept nofun
    | crashed =>
      -- the second move finds the folder gone
      obtain ⟨halmost', hprocess, -, -⟩ := hended.processError
      exact halmost'.processFinished.kept fun f hf => nomatch hprocess.symm.trans hf
    | error => exact halmost.processError.kept fun f hf => (h.process f hf).1

/-- **What is known of the folders, one step further.** -/
theorem kept_step (i : Input) (h : s.Kept) (hi : s.Orderly i) : (s.step i).Kept := by
  cases i with
  | start now camera =>
    show (s.startLoop now camera).Kept
    unfold startLoop
    split
    · exact h
    · next hloop =>
      obtain ⟨hproc, hnow⟩ := hi.resolve_left hloop
      have hall : ∀ f ∈ s.completed, f ∈ s.moved := fun f hf =>
        (h.waiting f hf).resolve_right fun hw => nomatch hproc.symm.trans hw.1
      dsimp only
      split
      · refine ⟨h.encoded, h.once, h.movedOnce, h.archives, fun f hf => ?_, fun hl => absurd hl hloop,
          fun f hf => .inl (hall f hf)⟩
        exact nomatch hproc.symm.trans hf
      · refine ⟨h.encoded, h.once, h.movedOnce, h.archives, fun f hf => ?_, fun _ => ⟨?_, hnow, ?_⟩,
          fun f hf => .inl (hall f hf)⟩
        · exact nomatch hproc.symm.trans hf
        · exact List.mem_insert_self
        · exact fun hc => hnow (h.archives now (hall now hc))
  | stop =>
    show s.stopLoop.Kept
    unfold stopLoop
    split
    · exact h
    · next hloop =>
      have hloop' : s.mIsLooping = true := by simpa using hloop
      obtain ⟨hin, hout, hnew⟩ := h.looping hloop'
      have hproc : s.process = none := by
        cases hp : s.process with
        | none => rfl
        | some f => exact nomatch (h.process f hp).2.symm.trans hloop'
      have hall : ∀ f ∈ s.completed, f ∈ s.moved := fun f hf =>
        (h.waiting f hf).resolve_right fun hw => nomatch hproc.symm.trans hw.1
      unfold startTimelapseBatch
      dsimp only
      rw [hproc]
      refine ⟨congrArg (s.mFolder :: ·) h.encoded, List.nodup_cons.mpr ⟨hnew, h.once⟩, h.movedOnce,
        h.archives, fun f hf => ⟨Option.some.inj hf, rfl⟩, nofun, fun f hf => ?_⟩
      rcases List.mem_cons.mp hf with rfl | hf
      · exact .inr ⟨rfl, hin, hout⟩
      · exact .inl (hall f hf)
  | encoder report => exact kept_encoder report h

theorem Kept.in_archives (h : s.Kept) : s.Archived := by
  constructor
  · intro f hf
    rw [h.encoded]
    exact List.count_eq_one_of_mem h.once hf
  · intro f _
    exact List.nodup_iff_count_le_one.mp h.movedOnce f
  · intro hloop
    obtain ⟨hin, hout, hnew⟩ := h.looping hloop
    exact ⟨hin, h.encoded ▸ hnew, fun hm => hout (h.archives _ hm)⟩
  · intro _ hproc f hf
    have hmoved := (h.waiting f hf).resolve_right fun hw => nomatch hproc.symm.trans hw.1
    exact List.count_eq_one_of_mem h.movedOnce hmoved

end

/-- **The folders of the loops.**  Whatever is on the disk at first: if loops start when the encoder
has ended, under a name that is not in the archives, every loop's folder is encoded and moved once,
not while the loop writes to it, and all of them are moved when nothing runs. -/
theorem archived (name : String) (folders archives : List String) (inputs : List Input)
    (h : Meets step Orderly
      { moduleName := name, folders := folders, archives := archives } inputs) :
    (inputs.foldl step
      { moduleName := name, folders := folders, archives := archives }).Archived := by
  have hinit : ({ moduleName := name, folders := folders, archives := archives } : Allsky).Kept :=
    ⟨rfl, List.nodup_nil, List.nodup_nil, nofun, nofun, nofun, nofun⟩
  exact (Meets.invariant (fun s i hs hi => kept_step i hs hi) _ inputs hinit h).in_archives

/-! ## Samples -/

theorem archived_twoNights :
    ([.start "20260101-20-00-00" true, .stop, .encoder .crashed, .start "20260102-20-00-00" true,
      .stop, .encoder .finished].foldl step { archives := ["20251231-20-00-00"] } : Allsky).Archived :=
  archived "allsky" [] ["20251231-20-00-00"] _ (by decide)

/-- A loop starts while the folder of the last one is encoded: when nothing runs any more, that
folder is still in its place. -/
theorem archived_fails :
    ¬([.start "a" true, .stop, .start "b" true, .encoder .finished, .stop,
      .encoder .finished].foldl step {} : Allsky).Archived := by
  intro h
  exact absurd (h.settled (by decide) (by decide) "a" (by decide)) (by decide)

end Allsky

end Ost.AllskyLoop
