import Ost.Element
import Ost.Lib.Run

/-!
# The capture loop of the inspector

A shot asks the camera for an image.  The image comes later, from the thread of the INDI client,
which puts it in the place of the last one and signals the module.  The module then hands it to
the star detection, if that is selected, and goes on when the detection is done: a loop asks for
the next image, a single shot ends.

Nothing keeps a command from being given while an image is on its way, and stop does not take
back the one that was asked for.

Algorithm: `onExternalEvent`, `newBLOB`, `Shoot`, `finishSingle`, `OnNewImage`, `runInspection`
and `OnSucessSEP` of the inspector, `FindStars` and `ssReadySEP` of its solver.

Main theorems:
    at_step:      where the image that was asked for is, one step further
    captureLoop:  commands that come when nothing is on its way keep the loop sound
-/

namespace Ost.Inspecting

open Lib

/-! ## Algorithm -/

inductive Mode where
  | idle | single | loop
  deriving DecidableEq, Repr

/-- An image of the camera, numbered, with the request that it answers if there was one. -/
structure Frame where
  serial : ℕ
  request : Option ℕ
  deriving DecidableEq, Repr

/-- What happens to requests and frames. -/
inductive Happening where
  | command
  | stopped
  | requested (n : ℕ)
  /-- given to the star detection -/
  | handed (f : Frame)
  /-- all that was asked of the frame is done -/
  | analysed (f : Frame)
  /-- shown with the maps of the star detection -/
  | published (f : Frame)
  | ended (n : ℕ)
  deriving DecidableEq, Repr

/-- The camera's answers to a shot: `setFocalLengthAndDiameter` and `requestCapture`. -/
structure Camera where
  optic : Bool
  capture : Bool
  deriving DecidableEq, Repr

/-- The property `analysis`. -/
structure Analysis where
  inspector : Bool
  collimator : Bool
  sharpness : Bool
  deriving DecidableEq, Repr

structure Inspector where
  mState : Mode := .idle
  /-- `_image` -/
  image : Option Frame := none
  -- the switches `shoot` and `loop` of `actions`, and its state
  shoot : Bool := false
  loop : Bool := false
  actions : State := .Idle
  -- the lights of `states`
  shooting : State := .Idle
  analyzing : State := .Idle
  idle : State := .Ok
  /-- how often `OnSucessSEP` is connected to the solver -/
  connected : ℕ := 0
  /-- the solver listens for the end of a detection -/
  ssReady : Bool := false
  /-- the detections that are not done, oldest first -/
  analyses : List Frame := []
  /-- signals `newImage` on their way to the module's thread -/
  newImages : ℕ := 0
  /-- the requests whose image has not come -/
  exposures : List ℕ := []
  -- how many there have been
  requested : ℕ := 0
  arrived : ℕ := 0
  /-- the request of the single shot that goes on -/
  shot : Option ℕ := none
  /-- latest first -/
  history : List Happening := []
  deriving DecidableEq

namespace Inspector

def note (s : Inspector) (h : Happening) : Inspector := { s with history := h :: s.history }

def finishSingle (s : Inspector) : Inspector :=
  let s : Inspector := match s.shot with
    | some n => s.note (.ended n)
    | none => s
  { s with
    shoot := false, loop := false, shooting := .Idle, analyzing := .Idle, idle := .Ok
    actions := .Ok, mState := .idle, shot := none }

/-- `requestCapture`, when the camera takes the request. -/
def expose (s : Inspector) : Inspector :=
  { s.note (.requested s.requested) with
    exposures := s.exposures ++ [s.requested], requested := s.requested + 1 }

def Shoot (s : Inspector) (camera : Camera) : Inspector :=
  if !camera.optic then { s with actions := .Error }.finishSingle
  else if !camera.capture then { s with actions := .Error }.finishSingle
  else { s.expose with shooting := .Busy, actions := .Busy }

/-- `FindStars` of the solver: its slots are connected once, and the detection runs. -/
def FindStars (s : Inspector) (f : Frame) : Inspector :=
  { s.note (.handed f) with ssReady := true, analyses := s.analyses ++ [f] }

def runInspection (s : Inspector) : Inspector :=
  match s.image with
  | none => s
  | some f => { s with connected := s.connected + 1 }.FindStars f

/-- `computeSharpness`, `analyzeFrame` and `publishRawImage` are done when they return. -/
def OnNewImage (s : Inspector) (analysis : Analysis) (camera : Camera) : Inspector :=
  let s := { s with shooting := .Idle, analyzing := .Busy }
  if analysis.inspector then s.runInspection
  else
    let s : Inspector := match s.image with
      | none => s
      | some f => s.note (.analysed f)
    let s := { s with analyzing := .Idle }
    if s.mState = .loop then s.Shoot camera else s.finishSingle

/-- The first of several connections takes them all away. -/
def OnSucessSEP (s : Inspector) (camera : Camera) : Inspector :=
  if s.connected = 0 then s
  else
    let s := { s with actions := .Ok, connected := 0 }
    let s : Inspector := match s.image with
      | none => s
      | some f => s.note (.published f)
    let s := { s with analyzing := .Idle }
    if s.mState = .loop then s.Shoot camera else s.finishSingle

/-- `ready` of the star detection: the solver disconnects itself and emits `successSEP`. -/
def ssReadySEP (s : Inspector) (camera : Camera) : Inspector :=
  match s.analyses with
  | [] => s
  | f :: rest =>
    let s := { s.note (.analysed f) with analyses := rest }
    if s.ssReady then { s with ssReady := false }.OnSucessSEP camera else s

/-- An image in the place of the last one. -/
def setImage (s : Inspector) (request : Option ℕ) : Inspector :=
  { s with image := some ⟨s.arrived, request⟩, arrived := s.arrived + 1 }

/-- The `newBLOB` of the camera's image; `newImage` goes to the module's thread. -/
def newBLOB (s : Inspector) (request : Option ℕ) : Inspector :=
  let s := { s with exposures := s.exposures.filter (some · ≠ request) }
  if s.mState = .idle then s
  else { s.setImage request with actions := .Ok, newImages := s.newImages + 1 }

inductive Input where
  | shoot (camera : Camera)
  | loop (camera : Camera)
  | stop
  /-- a file is chosen -/
  | file (analysis : Analysis) (camera : Camera)
  /-- an image of the camera, asked for here or by another client -/
  | image (request : Option ℕ)
  /-- a signal `newImage` arrives in the module's thread -/
  | newImage (analysis : Analysis) (camera : Camera)
  /-- the oldest detection is done -/
  | detected (camera : Camera)
  deriving DecidableEq, Repr

/-- `onExternalEvent`, and what comes from the other threads. -/
def step (s : Inspector) : Input → Inspector
  | .shoot camera =>
    let s := { s.note .command with shoot := true, mState := .single, idle := .Idle }
    if camera.optic && camera.capture then { s.Shoot camera with shot := some s.requested }
    else s.Shoot camera
  | .loop camera =>
    { s.note .command with loop := true, mState := .loop, idle := .Idle }.Shoot camera
  | .stop =>
    { s.note .stopped with
      loop := false, mState := .idle, shooting := .Idle, analyzing := .Idle, idle := .Ok
      actions := .Ok, shot := none }
  | .file analysis camera =>
    { s.setImage none with actions := .Ok, mState := .single }.OnNewImage analysis camera
  | .image none => s.newBLOB none
  | .image (some n) => if n ∈ s.exposures then s.newBLOB (some n) else s
  | .newImage analysis camera =>
    if s.newImages = 0 then s
    else { s with newImages := s.newImages - 1 }.OnNewImage analysis camera
  | .detected camera => s.ssReadySEP camera

/-! ## Soundness -/

/-- There has been a command since the last stop. -/
def armed : List Happening → Bool
  | [] => false
  | .stopped :: _ => false
  | .command :: _ => true
  | _ :: older => armed older

/-- What may happen after what has: an exposure is asked for after a command that was not stopped,
a single shot ends after its frame was analysed, and no frame is analysed or published again. -/
def Grounded (older : List Happening) : Happening → Prop
  | .requested _ => armed older = true
  | .ended n => ∃ f, .analysed f ∈ older ∧ f.request = some n
  | .analysed f => .analysed f ∉ older
  | .published f => .published f ∉ older
  | _ => True

/-- The image of the request is on its way: from the camera, to the module's thread, or in the
detection, whose end is listened for. -/
def OnItsWay (s : Inspector) (n : ℕ) : Prop :=
  n ∈ s.exposures ∨
    ∃ f, f.request = some n ∧ s.image = some f ∧
      (0 < s.newImages ∨ f ∈ s.analyses ∧ s.ssReady = true ∧ 0 < s.connected)

structure Sound (s : Inspector) : Prop where
  oneExposure : s.exposures.length ≤ 1
  history : ∀ newer x older, s.history = newer ++ x :: older → Grounded older x
  /-- a single shot that was not stopped goes on until its frame is analysed -/
  goesOn : ∀ n, s.shot = some n → s.mState = .single ∧ s.OnItsWay n ∧
    ∀ f, .analysed f ∈ s.history → f.request ≠ some n

/-- Nothing is on its way. -/
def Still (s : Inspector) : Prop := s.exposures = [] ∧ s.newImages = 0 ∧ s.analyses = []

/-- Commands come when nothing is on its way, and images of others only when it is idle. -/
def Calm (s : Inspector) : Input → Prop
  | .shoot _ | .loop _ | .file _ _ => s.Still
  | .image none => s.mState = .idle
  | _ => True

instance (s : Inspector) : Decidable s.Still := by unfold Still; infer_instance

instance (s : Inspector) (i : Input) : Decidable (s.Calm i) :=
  match i with
  | .shoot _ | .loop _ | .file _ _ => inferInstanceAs (Decidable s.Still)
  | .image none => inferInstanceAs (Decidable (s.mState = .idle))
  | .stop | .image (some _) | .newImage _ _ | .detected _ => isTrue trivial

/-! ## Where the image is -/

/-- Where the image that was asked for is. -/
inductive Place where
  | nowhere
  | camera (n : ℕ)
  | signal (f : Frame)
  | detection (f : Frame)

def Place.request : Place → Option ℕ
  | .nowhere => none
  | .camera n => some n
  | .signal f | .detection f => f.request

def Place.frame : Place → Option Frame
  | .nowhere | .camera _ => none
  | .signal f | .detection f => some f

/-- The camera, the signals, the solver and its connection have nothing to do. -/
def Free (s : Inspector) : Prop :=
  s.exposures = [] ∧ s.newImages = 0 ∧ s.analyses = [] ∧ s.connected = 0

/-- The image is there, and nothing else is on its way. -/
def Holds (s : Inspector) : Place → Prop
  | .nowhere => s.Free
  | .camera n => s.exposures = [n] ∧ s.newImages = 0 ∧ s.analyses = [] ∧ s.connected = 0
  | .signal f => s.exposures = [] ∧ s.newImages = 1 ∧ s.analyses = [] ∧ s.connected = 0 ∧
      s.image = some f
  | .detection f => s.exposures = [] ∧ s.newImages = 0 ∧ s.analyses = [f] ∧ s.connected = 1 ∧
      s.ssReady = true ∧ s.image = some f

/-- The frames that are done came before that of the place, and so did their requests. -/
structure Numbered (s : Inspector) (place : Place) : Prop where
  request : ∀ n, place.request = some n → n < s.requested
  frame : ∀ f, place.frame = some f → f.serial < s.arrived
  doneFrame : ∀ f, (.analysed f ∈ s.history ∨ .published f ∈ s.history) → f.serial < s.arrived ∧
    ∀ g, place.frame = some g → f.serial < g.serial
  doneRequest : ∀ f n, .analysed f ∈ s.history → f.request = some n → n < s.requested ∧
    ∀ m, place.request = some m → n < m

/-- What the histories of the mode have in common. -/
structure Told (s : Inspector) : Prop where
  loop : s.mState = .loop → armed s.history = true
  history : ∀ newer x older, s.history = newer ++ x :: older → Grounded older x

/-- What is known when the image is in a place. -/
structure At (s : Inspector) (place : Place) : Prop where
  holds : s.Holds place
  numbered : s.Numbered place
  told : s.Told
  idle : place = .nowhere → s.mState = .idle
  shot : ∀ n, s.shot = some n → s.mState = .single ∧ place.request = some n

/-! ## Lemmas -/

section
variable {s : Inspector} {place : Place}

/-- What happens next is grounded, and so is all before it. -/
theorem grounded_cons {x : Happening} {l : List Happening} (hx : Grounded l x)
    (hl : ∀ newer y older, l = newer ++ y :: older → Grounded older y) :
    ∀ newer y older, x :: l = newer ++ y :: older → Grounded older y := by
  intro newer y older h
  cases newer with
  | nil =>
    obtain ⟨rfl, rfl⟩ := List.cons.inj h
    exact hx
  | cons z newer =>
    obtain ⟨-, h⟩ := List.cons.inj h
    exact hl newer y older h

/-- The single shot is over: its frame is analysed. -/
def Over (s : Inspector) : Prop :=
  ∀ n, s.shot = some n → ∃ f, .analysed f ∈ s.history ∧ f.request = some n

/-- The numbers are right as long as no frame is done. -/
theorem Numbered.mono {t : Inspector} (h : s.Numbered place) (hr : s.requested ≤ t.requested)
    (ha : s.arrived ≤ t.arrived)
    (hdone : ∀ f, (.analysed f ∈ t.history → .analysed f ∈ s.history) ∧
      (.published f ∈ t.history → .published f ∈ s.history)) : t.Numbered place := by
  constructor
  · intro n hn
    exact lt_of_lt_of_le (h.request n hn) hr
  · intro f hf
    exact lt_of_lt_of_le (h.frame f hf) ha
  · intro f hf
    obtain ⟨hlt, hplace⟩ := h.doneFrame f (hf.imp (hdone f).1 (hdone f).2)
    exact ⟨lt_of_lt_of_le hlt ha, hplace⟩
  · intro f n hf hn
    obtain ⟨hlt, hplace⟩ := h.doneRequest f n ((hdone f).1 hf) hn
    exact ⟨lt_of_lt_of_le hlt hr, hplace⟩

/-- An exposure that the camera takes. -/
theorem expose_spec (hfree : s.Free) (hnum : s.Numbered .nowhere) (htold : s.Told)
    (harmed : armed s.history = true) :
    s.expose.Holds (.camera s.requested) ∧ s.expose.Numbered (.camera s.requested) ∧
      s.expose.Told := by
  obtain ⟨hexp, hnew, han, hconn⟩ := hfree
  refine ⟨⟨?_, hnew, han, hconn⟩, ?_, ?_⟩
  · show s.exposures ++ [s.requested] = [s.requested]
    rw [hexp, List.nil_append]
  · constructor
    · intro n hn
      obtain rfl := Option.some.inj hn
      exact Nat.lt_succ_self _
    · nofun
    · intro f hf
      refine ⟨(hnum.doneFrame f ?_).1, nofun⟩
      simpa [expose, note] using hf
    · intro f n hf hn
      have hlt := (hnum.doneRequest f n (by simpa [expose, note] using hf) hn).1
      refine ⟨Nat.lt_succ_of_lt hlt, fun m hm => ?_⟩
      obtain rfl := Option.some.inj hm
      exact hlt
  · exact ⟨fun _ => harmed, grounded_cons harmed htold.history⟩

/-- The end of a shot. -/
theorem finishSingle_at (hfree : s.Free) (hnum : s.Numbered .nowhere) (htold : s.Told)
    (hover : s.Over) : s.finishSingle.At .nowhere := by
  unfold finishSingle
  cases hshot : s.shot with
  | none =>
    refine ⟨hfree, hnum.mono le_rfl le_rfl fun f => ⟨id, id⟩, ⟨nofun, htold.history⟩, fun _ => rfl,
      nofun⟩
  | some n =>
    refine ⟨hfree, hnum.mono le_rfl le_rfl fun f => ?_, ⟨nofun, ?_⟩, fun _ => rfl, nofun⟩
    · constructor <;> intro hf <;> simpa [note] using hf
    · exact grounded_cons (hover n hshot) htold.history

theorem shoot_cases (s : Inspector) (camera : Camera) :
    (camera.optic && camera.capture) = true ∧
      s.Shoot camera = { s.expose with shooting := .Busy, actions := .Busy } ∨
    (camera.optic && camera.capture) = false ∧
      s.Shoot camera = { s with actions := .Error }.finishSingle := by
  unfold Shoot
  cases camera with
  | mk optic capture =>
    cases optic with
    | false => exact .inr ⟨rfl, rfl⟩
    | true =>
      cases capture with
      | false => exact .inr ⟨rfl, rfl⟩
      | true => exact .inl ⟨rfl, rfl⟩

/-- What a mode does when the frame is done: a loop goes on, a single shot ends. -/
theorem goOn_at (camera : Camera) (hfree : s.Free) (hnum : s.Numbered .nowhere) (htold : s.Told)
    (hover : s.Over) (hshot : s.mState = .loop → s.shot = none) :
    ∃ place, (if s.mState = .loop then s.Shoot camera else s.finishSingle).At place := by
  split
  · next hloop =>
    rcases s.shoot_cases camera with ⟨-, h⟩ | ⟨-, h⟩
    · obtain ⟨hholds, hnum', htold'⟩ := expose_spec hfree hnum htold (htold.loop hloop)
      rw [h]
      refine ⟨.camera s.requested, hholds, hnum'.mono le_rfl le_rfl fun f => ⟨id, id⟩, ⟨htold'.loop, htold'.history⟩,
        nofun, fun n hn => ?_⟩
      exact nomatch (hshot hloop).symm.trans hn
    · rw [h]
      refine ⟨.nowhere, finishSingle_at hfree (hnum.mono le_rfl le_rfl fun f => ⟨id, id⟩)
        ⟨htold.loop, htold.history⟩ hover⟩
  · exact ⟨.nowhere, finishSingle_at hfree hnum htold hover⟩

/-- Only single shots are remembered. -/
theorem none_of_loop (hloop : s.mState = .loop) (hshot : ∀ n, s.shot = some n → s.mState = .single) :
    s.shot = none := by
  cases h : s.shot with
  | none => rfl
  | some n => exact nomatch hloop.symm.trans (hshot n h)

/-- A frame that is analysed is done. -/
theorem analysed_spec {f : Frame} (hnum : s.Numbered place) (htold : s.Told)
    (hf : place.frame = some f) (hr : place.request = f.request) :
    (s.note (.analysed f)).Numbered .nowhere ∧ (s.note (.analysed f)).Told ∧
      ∀ g, .published g ∈ (s.note (.analysed f)).history → g.serial < f.serial := by
  have hnew : ∀ g, Happening.analysed g ∈ s.history → g.serial < f.serial := fun g hg =>
    (hnum.doneFrame g (.inl hg)).2 f hf
  have hpub : ∀ g, Happening.published g ∈ s.history → g.serial < f.serial := fun g hg =>
    (hnum.doneFrame g (.inr hg)).2 f hf
  refine ⟨⟨nofun, nofun, ?_, ?_⟩, ⟨fun h => htold.loop h, grounded_cons (fun h => ?_) htold.history⟩,
    fun g hg => hpub g (by simpa [note] using hg)⟩
  · intro g hg
    refine ⟨?_, nofun⟩
    have hcases : g = f ∨ (.analysed g ∈ s.history ∨ .published g ∈ s.history) := by
      simpa [note, or_assoc] using hg
    rcases hcases with rfl | hg
    · exact hnum.frame g hf
    · exact (hnum.doneFrame g hg).1
  · intro g n hg hn
    refine ⟨?_, nofun⟩
    have hcases : g = f ∨ .analysed g ∈ s.history := by simpa [note] using hg
    rcases hcases with rfl | hg
    · exact hnum.request n (hr.trans hn)
    · exact (hnum.doneRequest g n hg hn).1
  · exact absurd (hnew f h) (lt_irrefl _)

/-- `OnNewImage` with an image. -/
theorem onNewImage_eq {f : Frame} (analysis : Analysis) (camera : Camera)
    (himage : s.image = some f) : s.OnNewImage analysis camera =
      if analysis.inspector then
        { s with shooting := .Idle, analyzing := .Busy, connected := s.connected + 1 }.FindStars f
      else
        let t : Inspector :=
          { s.note (.analysed f) with shooting := .Idle, analyzing := .Idle }
        if t.mState = .loop then t.Shoot camera else t.finishSingle := by
  cases s
  cases himage
  rfl

/-- The end of a detection that is listened for. -/
theorem ssReadySEP_eq {f : Frame} (camera : Camera) (han : s.analyses = [f])
    (hready : s.ssReady = true) (hconn : s.connected ≠ 0) (himage : s.image = some f) :
    s.ssReadySEP camera =
      let t : Inspector :=
        { (s.note (.analysed f)).note (.published f) with
          analyses := [], ssReady := false, actions := .Ok, connected := 0, analyzing := .Idle }
      if t.mState = .loop then t.Shoot camera else t.finishSingle := by
  have hone : ∀ t : Inspector, t.connected = s.connected → t.image = some f → t.OnSucessSEP camera =
      let t : Inspector :=
        { t.note (.published f) with actions := .Ok, connected := 0, analyzing := .Idle }
      if t.mState = .loop then t.Shoot camera else t.finishSingle := by
    intro t htconn htimage
    unfold OnSucessSEP
    rw [if_neg (htconn ▸ hconn)]
    cases t
    cases htimage
    rfl
  unfold ssReadySEP
  rw [han]
  dsimp only
  rw [if_pos (show (s.note (.analysed f)).ssReady = true from hready)]
  exact hone { s.note (.analysed f) with analyses := [], ssReady := false } rfl himage

/-- The module has the image. -/
theorem onNewImage_at {f : Frame} (analysis : Analysis) (camera : Camera) (hfree : s.Free)
    (himage : s.image = some f) (hnum : s.Numbered (.signal f)) (htold : s.Told)
    (hshot : ∀ n, s.shot = some n → s.mState = .single ∧ f.request = some n) :
    ∃ place, (s.OnNewImage analysis camera).At place := by
  obtain ⟨hexp, hnew, han, hconn⟩ := hfree
  rw [onNewImage_eq analysis camera himage]
  split
  · refine ⟨.detection f, ⟨hexp, hnew, ?_, ?_, rfl, himage⟩, ?_, ?_, nofun, hshot⟩
    · show s.analyses ++ [f] = [f]
      rw [han, List.nil_append]
    · show s.connected + 1 = 1
      rw [hconn]
    · have hdet : s.Numbered (.detection f) :=
        ⟨hnum.request, hnum.frame, hnum.doneFrame, hnum.doneRequest⟩
      refine hdet.mono le_rfl le_rfl fun g => ?_
      constructor <;> intro hg <;> simpa [FindStars, note] using hg
    · exact ⟨htold.loop, grounded_cons trivial htold.history⟩
  · obtain ⟨hnum', htold', -⟩ := analysed_spec hnum htold rfl rfl
    exact goOn_at camera ⟨hexp, hnew, han, hconn⟩ (hnum'.mono le_rfl le_rfl fun f => ⟨id, id⟩)
      ⟨htold'.loop, htold'.history⟩ (fun n hn => ⟨f, List.mem_cons_self, (hshot n hn).2⟩)
      fun hloop => none_of_loop hloop fun n hn => (hshot n hn).1

/-- The star detection is done. -/
theorem ssReadySEP_at (camera : Camera) (h : s.At place) :
    ∃ place, (s.ssReadySEP camera).At place := by
  have hnone : s.analyses = [] → ∃ place, (s.ssReadySEP camera).At place := by
    intro han
    unfold ssReadySEP
    rw [han]
    exact ⟨place, h⟩
  cases place with
  | nowhere => exact hnone h.holds.2.2.1
  | camera n => exact hnone h.holds.2.2.1
  | signal f => exact hnone h.holds.2.2.1
  | detection f =>
    obtain ⟨hexp, hnew, han, hconn, hready, himage⟩ := h.holds
    obtain ⟨hnum, htold, hpub⟩ := analysed_spec h.numbered h.told rfl rfl
    rw [ssReadySEP_eq camera han hready (by omega) himage]
    refine goOn_at camera ⟨hexp, hnew, rfl, rfl⟩ ?_ ⟨htold.loop, ?_⟩
      (fun n hn => ⟨f, List.mem_cons_of_mem _ List.mem_cons_self, (h.shot n hn).2⟩)
      fun hloop => none_of_loop hloop fun n hn => (h.shot n hn).1
    · -- the published frame is the one that was just analysed
      refine ⟨nofun, nofun, fun g hg => ⟨?_, nofun⟩, fun g n hg hn => ⟨?_, nofun⟩⟩
      · have hcases : g = f ∨ (.analysed g ∈ (s.note (.analysed f)).history ∨
            .published g ∈ (s.note (.analysed f)).history) := by
          have hg' : .analysed g ∈ (s.note (.analysed f)).history ∨
              .published g ∈ .published f :: (s.note (.analysed f)).history :=
            hg.imp (fun h => by simpa [note] using h) id
          rcases hg' with hg' | hg'
          · exact .inr (.inl hg')
          · rcases List.mem_cons.mp hg' with hg' | hg'
            · cases hg'
              exact .inl rfl
            · exact .inr (.inr hg')
        rcases hcases with rfl | hg
        · exact h.numbered.frame g rfl
        · exact (hnum.doneFrame g hg).1
      · exact (hnum.doneRequest g n (by simpa [note] using hg) hn).1
    · exact grounded_cons (fun hp => absurd (hpub f hp) (lt_irrefl _)) htold.history

/-! ## Steps and runs -/

theorem nowhere_of_still (h : s.At place) (hs : s.Still) : place = .nowhere := by
  obtain ⟨hexp, hnew, han⟩ := hs
  cases place with
  | nowhere => rfl
  | camera n => exact nomatch hexp.symm.trans h.holds.1
  | signal f => exact nomatch hnew.symm.trans h.holds.2.1
  | detection f => exact nomatch han.symm.trans h.holds.2.2.1

theorem Numbered.nowhere (h : s.Numbered place) : s.Numbered .nowhere :=
  ⟨nofun, nofun, fun f hf => ⟨(h.doneFrame f hf).1, nofun⟩,
    fun f n hf hn => ⟨(h.doneRequest f n hf hn).1, nofun⟩⟩

/-- An image that arrives is newer than those that are done. -/
theorem Numbered.newFrame (h : s.Numbered place) (request : Option ℕ)
    (hr : ∀ n, request = some n → place.request = some n) :
    (s.setImage request).Numbered (.signal ⟨s.arrived, request⟩) := by
  constructor
  · intro n hn
    exact h.request n (hr n hn)
  · rintro f hf
    obtain rfl := Option.some.inj hf
    exact Nat.lt_succ_self _
  · intro f hf
    have hlt := (h.doneFrame f hf).1
    refine ⟨Nat.lt_succ_of_lt hlt, fun g hg => ?_⟩
    obtain rfl := Option.some.inj hg
    exact hlt
  · intro f n hf hn
    exact ⟨(h.doneRequest f n hf hn).1, fun m hm => (h.doneRequest f n hf hn).2 m (hr m hm)⟩

/-- Nothing goes on when nothing is on its way. -/
theorem At.shot_nowhere (h : s.At .nowhere) : s.shot = none := by
  cases hshot : s.shot with
  | none => rfl
  | some n => exact nomatch (h.shot n hshot).2

/-- A shot of a command. -/
theorem shoot_command_at (camera : Camera) (mode : Mode) (sh lo : Bool) (h : s.At .nowhere) :
    let t : Inspector :=
      { s.note .command with shoot := sh, loop := lo, mState := mode, idle := .Idle }
    ((camera.optic && camera.capture) = true →
      (t.Shoot camera).Holds (.camera s.requested) ∧
      (t.Shoot camera).Numbered (.camera s.requested) ∧ (t.Shoot camera).Told ∧
      (t.Shoot camera).mState = mode ∧ (t.Shoot camera).shot = none) ∧
    ((camera.optic && camera.capture) = false → (t.Shoot camera).At .nowhere) := by
  intro t
  have hfree : t.Free := h.holds
  have hnum : t.Numbered .nowhere := by
    refine h.numbered.mono le_rfl le_rfl fun f => ?_
    constructor <;> intro hf <;> simpa [t, note] using hf
  have htold : t.Told := ⟨fun _ => rfl, grounded_cons trivial h.told.history⟩
  rcases t.shoot_cases camera with ⟨hc, ht⟩ | ⟨hc, ht⟩
  · obtain ⟨hholds, hnum', htold'⟩ := expose_spec hfree hnum htold rfl
    rw [ht]
    exact ⟨fun _ => ⟨hholds, hnum'.mono le_rfl le_rfl fun f => ⟨id, id⟩,
      ⟨htold'.loop, htold'.history⟩, rfl, h.shot_nowhere⟩, fun hc' => nomatch hc.symm.trans hc'⟩
  · rw [ht]
    refine ⟨fun hc' => (nomatch hc.symm.trans hc'), fun _ => ?_⟩
    refine finishSingle_at hfree (hnum.mono le_rfl le_rfl fun f => ⟨id, id⟩)
      ⟨htold.loop, htold.history⟩ fun n hn => ?_
    exact nomatch h.shot_nowhere.symm.trans hn

/-- **Where the image is, one step further.** -/
theorem at_step (i : Input) (h : s.At place) (hc : s.Calm i) : ∃ place, (s.step i).At place := by
  cases i with
  | shoot camera =>
    obtain rfl := nowhere_of_still h hc
    obtain ⟨htaken, hrefused⟩ := shoot_command_at camera .single true s.loop h
    cases hcam : camera.optic && camera.capture with
    | true =>
      obtain ⟨hholds, hnum, htold, hmode, -⟩ := htaken hcam
      refine ⟨.camera s.requested, ?_⟩
      unfold step
      dsimp only
      rw [if_pos hcam]
      refine ⟨hholds, hnum.mono le_rfl le_rfl fun f => ⟨id, id⟩, ⟨htold.loop, htold.history⟩, nofun,
        fun n hn => ⟨hmode, hn⟩⟩
    | false =>
      refine ⟨.nowhere, ?_⟩
      unfold step
      dsimp only
      rw [if_neg (by rw [hcam]; nofun)]
      exact hrefused hcam
  | loop camera =>
    obtain rfl := nowhere_of_still h hc
    obtain ⟨htaken, hrefused⟩ := shoot_command_at camera .loop s.shoot true h
    cases hcam : camera.optic && camera.capture with
    | true =>
      obtain ⟨hholds, hnum, htold, -, hshot⟩ := htaken hcam
      exact ⟨.camera s.requested, hholds, hnum, htold, nofun, fun n hn => nomatch hshot.symm.trans hn⟩
    | false => exact ⟨.nowhere, hrefused hcam⟩
  | stop =>
    refine ⟨place, ?_, ?_, ⟨nofun, grounded_cons trivial h.told.history⟩, fun _ => rfl, nofun⟩
    · have hholds := h.holds
      cases place <;> exact hholds
    · exact h.numbered.mono le_rfl le_rfl fun f =>
        ⟨fun hf => (List.mem_cons.mp hf).resolve_left nofun,
          fun hf => (List.mem_cons.mp hf).resolve_left nofun⟩
  | file analysis camera =>
    obtain rfl := nowhere_of_still h hc
    have hnum := h.numbered.newFrame none nofun
    have hshot := h.shot_nowhere
    show ∃ place, (OnNewImage { s.setImage none with actions := .Ok, mState := .single } analysis
      camera).At place
    exact onNewImage_at (f := ⟨s.arrived, none⟩) analysis camera h.holds rfl
      (hnum.mono le_rfl le_rfl fun f => ⟨id, id⟩) ⟨nofun, h.told.history⟩
      fun n hn => nomatch hshot.symm.trans hn
  | image request =>
    have hholds := h.holds
    cases request with
    | none =>
      refine ⟨place, ?_⟩
      have hsame : s.newBLOB none = s := by
        unfold newBLOB
        dsimp only
        rw [if_pos (show s.mState = .idle from hc), List.filter_eq_self.mpr (by simp)]
      show (s.newBLOB none).At place
      rw [hsame]
      exact h
    | some n =>
      show ∃ place, (if n ∈ s.exposures then s.newBLOB (some n) else s).At place
      split
      · next hmem =>
        have hcamera : place = .camera n := by
          cases place with
          | camera m =>
            rw [hholds.1] at hmem
            rw [List.mem_singleton.mp hmem]
          | nowhere => exact absurd (hholds.1 ▸ hmem) List.not_mem_nil
          | signal f => exact absurd (hholds.1 ▸ hmem) List.not_mem_nil
          | detection f => exact absurd (hholds.1 ▸ hmem) List.not_mem_nil
        subst hcamera
        obtain ⟨hexp, hnew, han, hconn⟩ := hholds
        have hempty : s.exposures.filter (some · ≠ some n) = [] := by
          rw [hexp]
          simp
        unfold newBLOB
        dsimp only
        rw [hempty]
        split
        · -- a stopped exposure: nobody waits for its image
          next hidle =>
          refine ⟨.nowhere, ⟨rfl, hnew, han, hconn⟩,
            h.numbered.nowhere.mono le_rfl le_rfl fun f => ⟨id, id⟩, ⟨h.told.loop, h.told.history⟩,
            fun _ => hidle, fun m hm => ?_⟩
          exact nomatch hidle.symm.trans (h.shot m hm).1
        · have hnum := h.numbered.newFrame (some n) fun m hm => hm
          refine ⟨.signal ⟨s.arrived, some n⟩, ⟨rfl, ?_, han, hconn, rfl⟩,
            hnum.mono le_rfl le_rfl fun f => ⟨id, id⟩, ⟨h.told.loop, h.told.history⟩, nofun, h.shot⟩
          show s.newImages + 1 = 1
          rw [hnew]
      · exact ⟨place, h⟩
  | newImage analysis camera =>
    show ∃ place, (if s.newImages = 0 then s else _ : Inspector).At place
    split
    · exact ⟨place, h⟩
    · next hnew =>
      have hholds := h.holds
      cases place with
      | nowhere => exact absurd hholds.2.1 hnew
      | camera n => exact absurd hholds.2.1 hnew
      | detection f => exact absurd hholds.2.1 hnew
      | signal f =>
        obtain ⟨hexp, hone, han, hconn, himage⟩ := hholds
        have hfree : ({ s with newImages := s.newImages - 1 } : Inspector).Free :=
          ⟨hexp, by show s.newImages - 1 = 0; omega, han, hconn⟩
        exact onNewImage_at analysis camera hfree himage
          (h.numbered.mono le_rfl le_rfl fun f => ⟨id, id⟩) ⟨h.told.loop, h.told.history⟩ h.shot
  | detected camera => exact ssReadySEP_at camera h

theorem At.sound (h : s.At place) : s.Sound := by
  refine ⟨?_, h.told.history, fun n hn => ?_⟩
  · have hholds := h.holds
    cases place with
    | camera n => exact (congrArg List.length hholds.1).le
    | nowhere => exact (congrArg List.length hholds.1).le.trans (Nat.zero_le 1)
    | signal f => exact (congrArg List.length hholds.1).le.trans (Nat.zero_le 1)
    | detection f => exact (congrArg List.length hholds.1).le.trans (Nat.zero_le 1)
  · obtain ⟨hmode, hplace⟩ := h.shot n hn
    refine ⟨hmode, ?_, fun f hf hr => lt_irrefl n ((h.numbered.doneRequest f n hf hr).2 n hplace)⟩
    have hholds := h.holds
    cases place with
    | nowhere => cases hplace
    | camera m =>
      obtain rfl := Option.some.inj hplace
      exact .inl (hholds.1 ▸ List.mem_cons_self)
    | signal f => exact .inr ⟨f, hplace, hholds.2.2.2.2, .inl (by rw [hholds.2.1]; exact Nat.one_pos)⟩
    | detection f =>
      obtain ⟨-, -, han, hconn, hready, himage⟩ := hholds
      exact .inr ⟨f, hplace, himage, .inr ⟨han ▸ List.mem_cons_self, hready, by omega⟩⟩

theorem at_init : ({} : Inspector).At .nowhere := by
  refine ⟨⟨rfl, rfl, rfl, rfl⟩, ⟨nofun, nofun, fun f hf => ?_, fun f n hf => nomatch hf⟩, ⟨nofun, ?_⟩,
    fun _ => rfl, nofun⟩
  · rcases hf with hf | hf <;> cases hf
  · intro newer x older h
    exact absurd h (by simp)

end

/-- **The capture loop.**  As long as commands and files come when nothing is on its way, and images
of other clients when the inspector is idle, at most one exposure is outstanding, what has happened
is grounded, and a single shot goes on until its frame is analysed. -/
theorem captureLoop (inputs : List Input) (h : Meets step Calm {} inputs) :
    (inputs.foldl step {}).Sound := by
  obtain ⟨place, hat⟩ := Meets.invariant (I := fun s : Inspector => ∃ place, s.At place)
    (fun s i ⟨_, hs⟩ hi => at_step i hs hi) {} inputs ⟨Place.nowhere, at_init⟩ h
  exact hat.sound

/-! ## Samples -/

def ready : Camera := ⟨true, true⟩

/-- The star detection alone. -/
def stars : Analysis := ⟨true, false, false⟩

theorem captureLoop_single :
    ([.shoot ready, .image (some 0), .newImage stars ready, .detected ready].foldl step {} :
      Inspector).Sound :=
  captureLoop _ (by decide)

/-- A second shot while the camera exposes the first: two exposures are outstanding.  A shot after
a stop: it ends when the image of the stopped one has come. -/
theorem captureLoop_fails :
    ¬([.shoot ready, .shoot ready].foldl step {} : Inspector).Sound ∧
    ¬([.shoot ready, .stop, .shoot ready, .image (some 0), .newImage stars ready,
      .detected ready].foldl step {} : Inspector).Sound := by
  constructor
  · intro h
    exact absurd h.oneExposure (by decide)
  · intro h
    obtain ⟨f, hf, hr⟩ := h.history [] (.ended 1)
      [.published ⟨0, some 0⟩, .analysed ⟨0, some 0⟩, .handed ⟨0, some 0⟩, .requested 1, .command,
        .stopped, .requested 0, .command] (by decide)
    have hone : f = ⟨0, some 0⟩ := by simpa using hf
    rw [hone] at hr
    exact absurd hr (by decide)

end Inspector

end Ost.Inspecting
