import Ost.Property
import Ost.Lib.Run

/-!
# The session monitor

The monitor records what other modules signal.  A session starts with a stamp of the clock
and an empty list of rows; stopping it writes the rows to the archive file named after the
stamp, to the second.  A limit on the rows stops a session and starts the next one.  The
same list of rows holds an archive that is looked at while no session is active.

Algorithm:
- `appendEvent` takes a row while a session is active, and turns the session over at the limit.
- `stopSession` writes the rows that are there to the file of the last stamp, also when no
  session is active.
- `loadArchive` puts the rows of a file in their place.

Main theorems:
    archivedRows_document:  the rows of an archive are read back as they were written
    books_monitorStep:      one input keeps the books of the sessions, under its condition
    sessionArchive:         in a run whose inputs meet the condition every session that is
      over has its rows in its own file, and no other file has changed
-/

namespace Ost

open Lib

namespace Monitoring

/-! ## Rows -/

def kChartKeys : List String := ["guideRMS", "guideSNR", "imagehfr", "focusdone"]

/-- A valid date and time of the clock. -/
structure Reading where
  date : DateParts
  time : TimeParts
  deriving DecidableEq

structure EventRow where
  ts : QVariantMap := OrdMap.empty
  module : String
  type : String
  key : String
  valNum1 : ℚ := 0
  valNum2 : ℚ := 0
  valNum3 : ℚ := 0
  valNum4 : ℚ := 0
  valNum5 : ℚ := 0
  valNum6 : ℚ := 0
  valNum7 : ℚ := 0
  valNum8 : ℚ := 0
  valInt1 : Int32 := 0
  valInt2 : Int32 := 0
  valInt3 : Int32 := 0
  valStr1 : String := ""
  valStr2 : String := ""
  valStr3 : String := ""
  deriving DecidableEq

def Reading.ts (t : Reading) : QVariantMap :=
  Json.record [("year", ofInt t.date.year), ("month", ofInt t.date.month), ("day", ofInt t.date.day),
    ("hh", ofInt t.time.hour), ("mm", ofInt t.time.minute), ("ss", ofInt t.time.second),
    ("ms", ofInt t.time.msec)]

def gridheaders : List String :=
  ["ts", "module", "type", "key", "val_num1", "val_num2", "val_num3", "val_num4", "val_num5",
    "val_num6", "val_num7", "val_num8", "val_int1", "val_int2", "val_int3", "val_str1", "val_str2",
    "val_str3"]

/-- A row of an archive file. -/
def jsonRow (r : EventRow) : QJsonValue :=
  .arr [.object r.ts, .str r.module, .str r.type, .str r.key, .num r.valNum1, .num r.valNum2,
    .num r.valNum3, .num r.valNum4, .num r.valNum5, .num r.valNum6, .num r.valNum7, .num r.valNum8,
    ofInt r.valInt1, ofInt r.valInt2, ofInt r.valInt3, .str r.valStr1, .str r.valStr2,
    .str r.valStr3]

/-- A row read back; one that is too short or has another key is left out. -/
def readRow (jRow : QJsonValue) : Option EventRow :=
  let arr := fun i => jRow.toArray.getD i .null
  if jRow.toArray.length < 18 then none
  else if jsonText (arr 3) ∉ kChartKeys then none
  else some
    { ts := (arr 0).toMap
      module := jsonText (arr 1)
      type := jsonText (arr 2)
      key := jsonText (arr 3)
      valNum1 := jsonDouble (arr 4)
      valNum2 := jsonDouble (arr 5)
      valNum3 := jsonDouble (arr 6)
      valNum4 := jsonDouble (arr 7)
      valNum5 := jsonDouble (arr 8)
      valNum6 := jsonDouble (arr 9)
      valNum7 := jsonDouble (arr 10)
      valNum8 := jsonDouble (arr 11)
      valInt1 := jsonInt (arr 12)
      valInt2 := jsonInt (arr 13)
      valInt3 := jsonInt (arr 14)
      valStr1 := jsonText (arr 15)
      valStr2 := jsonText (arr 16)
      valStr3 := jsonText (arr 17) }

def archivedRows (file : QJsonValue) : List EventRow := (file.field "grid").toArray.filterMap readRow

/-! ## Names of files -/

def pad (width : ℕ) (n : Int32) : String :=
  let digits := toString n.toInt.toNat
  String.ofList (List.replicate (width - digits.length) '0') ++ digits

/-- `yyyyMMdd-HHmmss`. -/
def Reading.stamp (t : Reading) : String :=
  pad 4 t.date.year ++ pad 2 t.date.month ++ pad 2 t.date.day ++ "-" ++ pad 2 t.time.hour ++
    pad 2 t.time.minute ++ pad 2 t.time.second

/-- `Qt::ISODate`. -/
def Reading.isoDate (t : Reading) : String :=
  pad 4 t.date.year ++ "-" ++ pad 2 t.date.month ++ "-" ++ pad 2 t.date.day ++ "T" ++
    pad 2 t.time.hour ++ ":" ++ pad 2 t.time.minute ++ ":" ++ pad 2 t.time.second

/-- The archive file of the monitor of that name. -/
def archiveFile (name : String) (start : Reading) : String := name ++ "_" ++ start.stamp ++ ".json"

/-! ## The monitor -/

/-- Samples of the guiding kept for the next mean, with what the last one came from. -/
structure GuideBuf where
  samples : List ℚ := []
  module : String := ""
  type : String := ""

structure Monitor where
  name : String
  autostart : Bool := false
  sampling : Int32 := 10
  maxrows : Int32 := 200
  /-- the modules watched -/
  slaves : List String := []
  /-- the file names of the archive grid, and the one of its element -/
  archive : List String := []
  filename : String := ""
  mSessionStart : Option Reading := none
  mEvents : List EventRow := []
  mSessionActive : Bool := false
  guideRms : GuideBuf := {}
  guideSnr : GuideBuf := {}
  /-- the `*.json` files of the archive directory -/
  files : OrdMap String QJsonValue := OrdMap.empty

/-- What the monitor announces. -/
inductive MonitorEvent where
  | sessionstart (t : Reading)
  | newLine (row : EventRow)
  | sessionstop
  deriving DecidableEq

abbrev MonitorEmits := Emits Monitor MonitorEvent Unit

namespace Monitor

def document (m : Monitor) (start : Reading) : QJsonValue :=
  .object (Json.record
    [("session_start", .str start.isoDate), ("module", .str m.name),
      ("gridheaders", .arr (gridheaders.map .str)), ("grid", .arr (m.mEvents.map jsonRow))])

/-- The files, the last name first, in a grid of at most 5000 lines. -/
def scanArchive (m : Monitor) : Monitor :=
  let names := m.files.keys.reverse
  { m with
    archive := names.drop (names.length - 5000)
    filename := names.getLast?.getD m.filename }

def startSession (m : Monitor) (now : Reading) : MonitorEmits :=
  .emit { m with
    mSessionStart := some now
    mSessionActive := true
    mEvents := []
    guideRms := { m.guideRms with samples := [] }
    guideSnr := { m.guideSnr with samples := [] } } (.sessionstart now) ()

def stopSession (m : Monitor) : MonitorEmits :=
  (Emits.emit { m with mSessionActive := false } .sessionstop ()).andThen fun m =>
    match m.mSessionStart with
    | none => .quiet m ()
    | some start =>
      if m.mEvents = [] then .quiet m ()
      else .quiet
        { m with files := m.files.insert (archiveFile m.name start) (m.document start) }.scanArchive ()

/-- The row limit is reached. -/
def AtLimit (m : Monitor) : Prop :=
  0 < m.maxrows.toInt ∧ m.maxrows.toInt ≤ m.mEvents.length

instance (m : Monitor) : Decidable m.AtLimit := inferInstanceAs (Decidable (_ ∧ _))

/-- `now` stamps the row, `next` a session that the limit starts. -/
def appendEvent (m : Monitor) (row : EventRow) (now next : Reading) : MonitorEmits :=
  if row.key ∉ kChartKeys then .quiet m ()
  else if !m.mSessionActive then .quiet m ()
  else
    let row := { row with ts := now.ts }
    (Emits.emit { m with mEvents := m.mEvents ++ [row] } (.newLine row) ()).andThen fun m =>
      if m.AtLimit then m.stopSession.andThen fun m => m.startSession next
      else .quiet m ()

/-! ### Signals of other modules -/

def guideBuf (m : Monitor) (key : String) : GuideBuf :=
  if key = "guideRMS" then m.guideRms else m.guideSnr

def setGuideBuf (m : Monitor) (key : String) (buf : GuideBuf) : Monitor :=
  if key = "guideRMS" then { m with guideRms := buf } else { m with guideSnr := buf }

/-- The row of a buffer that is full: mean, least, greatest, median and deviation. -/
def flushed (sqrt : ℚ → ℚ) (key : String) (buf : GuideBuf) : EventRow :=
  let sorted := buf.samples.mergeSort (· ≤ ·)
  let size := sorted.length
  let mean := sorted.sum / size
  let median :=
    if size % 2 = 0 then (sorted.getD (size / 2 - 1) 0 + sorted.getD (size / 2) 0) / 2
    else sorted.getD (size / 2) 0
  let variance := (sorted.map fun v => (v - mean) * (v - mean)).sum
  { module := buf.module
    type := buf.type
    key := key
    valNum1 := mean
    valNum2 := sorted.headD 0
    valNum3 := sorted.getLastD 0
    valNum4 := median
    valNum5 := sqrt (variance / size) }

def onOtherModuleEvent (sqrt : ℚ → ℚ) (m : Monitor) (evt : EvType) (mod prp : String)
    (data : QVariant) (now next : Reading) : MonitorEmits :=
  if evt ≠ .ea then .quiet m ()
  else if mod ∉ m.slaves then .quiet m ()
  else
    let e := data.field "e"
    if prp ≠ "signals" then .quiet m ()
    else
      let key := jsonText (e.field "event")
      let num := jsonDouble (e.field "val_num")
      let type := jsonText (e.field "statedescription")
      if key = "guideRMS" ∨ key = "guideSNR" then
        if m.sampling.toInt ≤ 1 then
          m.appendEvent { module := mod, type := type, key := key, valNum1 := num } now next
        else
          let buf : GuideBuf := ⟨(m.guideBuf key).samples ++ [num], mod, type⟩
          let m := m.setGuideBuf key buf
          if m.sampling.toInt ≤ buf.samples.length then
            (m.appendEvent (flushed sqrt key buf) now next).andThen fun m =>
              .quiet (m.setGuideBuf key { m.guideBuf key with samples := [] }) ()
          else .quiet m ()
      else
        m.appendEvent
          { module := mod, type := type, key := key, valNum1 := num,
            valInt1 := jsonInt (e.field "val_int"), valStr1 := jsonText (e.field "val_str") } now next

/-! ### Archives -/

/-- `fetchLine`: the element takes the file name of a line; a line that is not there leaves it. -/
def fetchLine (m : Monitor) (line : ℤ) : Monitor :=
  { m with filename := m.archive.getD line.toNat m.filename }

def loadArchive (m : Monitor) (line : ℤ) : Monitor :=
  let m := m.fetchLine line
  if m.filename = "" then m
  else
    match m.files.get? m.filename with
    | none => m
    | some file => { m with mEvents := archivedRows file }

/-- `GF` for the archive: refused without a line, fetched by the base module, then loaded. -/
def onFetch (m : Monitor) (line : ℤ) : Monitor :=
  if line < 0 then m
  else
    let m := m.fetchLine line
    if m.mSessionActive then m else m.loadArchive line

def onAutoStart (m : Monitor) (now : Reading) : MonitorEmits :=
  let m := m.scanArchive
  if m.autostart then m.startSession now else .quiet m ()

end Monitor

/-! ## Runs -/

inductive MonitorInput where
  | onAutoStart (now : Reading)
  | start (now : Reading)
  | stop
  | fetch (line : ℤ)
  | otherModuleEvent (evt : EvType) (mod prp : String) (data : QVariant) (now next : Reading)
  | setParms (autostart : Bool) (sampling maxrows : Int32)
  | setSlaves (slaves : List String)
  /-- the other commands of clients on the grid of the archives -/
  | editArchive (archive : List String) (filename : String)

def monitorStep (sqrt : ℚ → ℚ) (m : Monitor) : MonitorInput → MonitorEmits
  | .onAutoStart now => m.onAutoStart now
  | .start now => m.startSession now
  | .stop => m.stopSession
  | .fetch line => .quiet (m.onFetch line) ()
  | .otherModuleEvent evt mod prp data now next => m.onOtherModuleEvent sqrt evt mod prp data now next
  | .setParms autostart sampling maxrows =>
    .quiet { m with autostart := autostart, sampling := sampling, maxrows := maxrows } ()
  | .setSlaves slaves => .quiet { m with slaves := slaves } ()
  | .editArchive archive filename => .quiet { m with archive := archive, filename := filename } ()

/-! ## The books of the sessions -/

/-- A session: when it started, and the rows it took. -/
structure Session where
  start : Reading
  events : List EventRow

/-- The sessions that are over, and the one that is not. -/
structure Sessions where
  finished : List Session := []
  current : Option Session := none

namespace Sessions

/-- A start ends the session before it. -/
def hear (L : Sessions) : MonitorEvent → Sessions
  | .sessionstart t => ⟨L.finished ++ L.current.toList, some ⟨t, []⟩⟩
  | .newLine row => ⟨L.finished, L.current.map fun s => { s with events := s.events ++ [row] }⟩
  | .sessionstop => ⟨L.finished ++ L.current.toList, none⟩

def hearAll (L : Sessions) (evs : List MonitorEvent) : Sessions := evs.foldl hear L

/-- The sessions that are over and took a row. -/
def recorded (L : Sessions) : List Session := L.finished.filter fun s => s.events ≠ []

end Sessions

/-- Every session that is over has its rows, in order, in a file of its own, and there is no other
file but those from before, as they were. -/
structure Archived (before : OrdMap String QJsonValue) (file : Reading → String) (L : Sessions)
    (files : OrdMap String QJsonValue) : Prop where
  kept : ∀ f doc, before.get? f = some doc → files.get? f = some doc
  written : ∀ s ∈ L.recorded, (files.get? (file s.start)).map archivedRows = some s.events
  own : (L.recorded.map fun s => file s.start).Nodup
  new : ∀ s ∈ L.recorded, before.get? (file s.start) = none
  only : ∀ f doc, files.get? f = some doc →
    before.get? f = some doc ∨ ∃ s ∈ L.recorded, f = file s.start

namespace Monitor

/-- The event is one for `appendEvent`. -/
def Accepts (m : Monitor) (evt : EvType) (mod prp : String) (data : QVariant) : Prop :=
  let key := jsonText ((data.field "e").field "event")
  evt = .ea ∧ mod ∈ m.slaves ∧ prp = "signals" ∧ key ∈ kChartKeys ∧
    (key = "guideRMS" ∨ key = "guideSNR" → m.sampling.toInt ≤ 1 ∨
      m.sampling.toInt ≤ (m.guideBuf key).samples.length + 1)

/-- Stopping writes nothing, a new file, or, when no session is active, what the file holds. -/
def SafeStop (m : Monitor) : Prop :=
  m.mEvents = [] ∨ ∀ start ∈ m.mSessionStart, m.files.get? (archiveFile m.name start) =
    if m.mSessionActive then none else some (m.document start)

instance (m : Monitor) (evt : EvType) (mod prp : String) (data : QVariant) :
    Decidable (m.Accepts evt mod prp data) := inferInstanceAs (Decidable (_ ∧ _))

instance (m : Monitor) : Decidable m.SafeStop := inferInstanceAs (Decidable (_ ∨ _))

end Monitor

/-- What is asked of an input: a session that has rows is not started anew, and no session is
written to the file of another. -/
def SafeInput (m : Monitor) : MonitorInput → Prop
  | .onAutoStart _ => m.autostart = true → ¬(m.mSessionActive = true ∧ m.mEvents ≠ [])
  | .start _ => ¬(m.mSessionActive = true ∧ m.mEvents ≠ [])
  | .stop => m.SafeStop
  | .otherModuleEvent evt mod prp data _ _ =>
    m.Accepts evt mod prp data ∧ m.mSessionActive = true ∧ 0 < m.maxrows.toInt ∧
      m.maxrows.toInt ≤ m.mEvents.length + 1 →
        ∀ start ∈ m.mSessionStart, m.files.get? (archiveFile m.name start) = none
  | _ => True

instance (m : Monitor) : (i : MonitorInput) → Decidable (SafeInput m i)
  | .onAutoStart _ => inferInstanceAs (Decidable (_ → _))
  | .start _ => inferInstanceAs (Decidable (¬_))
  | .stop => inferInstanceAs (Decidable m.SafeStop)
  | .otherModuleEvent _ _ _ _ _ _ => inferInstanceAs (Decidable (_ ∧ _ → _))
  | .fetch _ | .setParms _ _ _ | .setSlaves _ | .editArchive _ _ => inferInstanceAs (Decidable True)

/-! ## Lemmas -/

/-- **A row of an archive is read back as it was written.** -/
theorem readRow_jsonRow (r : EventRow) (h : r.key ∈ kChartKeys) : readRow (jsonRow r) = some r := by
  show (if 18 < 18 then none
    else if r.key ∉ kChartKeys then none
    else some { r with
      ts := (Json.object r.ts).toMap
      valInt1 := jsonInt (ofInt r.valInt1)
      valInt2 := jsonInt (ofInt r.valInt2)
      valInt3 := jsonInt (ofInt r.valInt3) }) = some r
  rw [if_neg (lt_irrefl 18), if_neg (not_not_intro h), Json.toMap_object, jsonInt_ofInt,
    jsonInt_ofInt, jsonInt_ofInt]

theorem document_grid (m : Monitor) (start : Reading) :
    (m.document start).field "grid" = .arr (m.mEvents.map jsonRow) := by
  have hgrid : (m.document start) = .object (OrdMap.insert
      (Json.record [("session_start", .str start.isoDate), ("module", .str m.name),
        ("gridheaders", .arr (gridheaders.map .str))]) "grid" (.arr (m.mEvents.map jsonRow))) := rfl
  rw [hgrid, Json.field_object, OrdMap.get?_insert_self]
  rfl

/-- **The rows of an archive are read back as they were written.** -/
theorem archivedRows_document (m : Monitor) (start : Reading)
    (h : ∀ r ∈ m.mEvents, r.key ∈ kChartKeys) : archivedRows (m.document start) = m.mEvents := by
  unfold archivedRows
  rw [document_grid]
  show (m.mEvents.map jsonRow).filterMap readRow = m.mEvents
  generalize m.mEvents = rows at h ⊢
  induction rows with
  | nil => rfl
  | cons r rows ih =>
    rw [List.map_cons, List.filterMap_cons_some (readRow_jsonRow r (h r List.mem_cons_self)),
      ih fun r' hr' => h r' (List.mem_cons_of_mem _ hr')]

theorem key_of_archivedRows (file : QJsonValue) (r : EventRow) (h : r ∈ archivedRows file) :
    r.key ∈ kChartKeys := by
  obtain ⟨j, -, hj⟩ := List.mem_filterMap.mp h
  unfold readRow at hj
  dsimp only at hj
  split at hj
  · cases hj
  · split at hj
    · cases hj
    · next hkey =>
      cases hj
      exact not_not.mp hkey

/-! ### The books -/

section
variable (before : OrdMap String QJsonValue) (file : Reading → String)

theorem Archived.of_recorded {L L' : Sessions} {files : OrdMap String QJsonValue}
    (h : Archived before file L files) (hL : L'.recorded = L.recorded) :
    Archived before file L' files :=
  ⟨h.kept, hL ▸ h.written, hL ▸ h.own, hL ▸ h.new, hL ▸ h.only⟩

/-- **A session that is over goes into a file that is not there yet.** -/
theorem Archived.record {L L' : Sessions} {files : OrdMap String QJsonValue}
    (h : Archived before file L files) (s : Session) (hL : L'.recorded = L.recorded ++ [s])
    (hfresh : files.get? (file s.start) = none) (doc : QJsonValue)
    (hdoc : archivedRows doc = s.events) :
    Archived before file L' (files.insert (file s.start) doc) := by
  have hother : ∀ s' ∈ L.recorded, file s'.start ≠ file s.start := by
    intro s' hs' heq
    have hw := h.written s' hs'
    rw [heq, hfresh] at hw
    cases hw
  have hnew : before.get? (file s.start) = none := by
    cases hb : before.get? (file s.start) with
    | none => rfl
    | some d =>
      rw [h.kept _ d hb] at hfresh
      cases hfresh
  constructor
  · intro f d hf
    rw [OrdMap.get?_insert, if_neg]
    · exact h.kept f d hf
    · rintro rfl
      rw [hnew] at hf
      cases hf
  · intro s' hs'
    rw [hL, List.mem_append, List.mem_singleton] at hs'
    rcases hs' with hs' | rfl
    · rw [OrdMap.get?_insert_of_ne _ _ _ _ (hother s' hs')]
      exact h.written s' hs'
    · rw [OrdMap.get?_insert_self, Option.map_some, hdoc]
  · rw [hL, List.map_append, List.nodup_append]
    refine ⟨h.own, List.nodup_singleton _, fun f hf f' hf' => ?_⟩
    obtain ⟨s', hs', rfl⟩ := List.mem_map.mp hf
    rw [List.map_singleton, List.mem_singleton] at hf'
    rw [hf']
    exact hother s' hs'
  · intro s' hs'
    rw [hL, List.mem_append, List.mem_singleton] at hs'
    rcases hs' with hs' | rfl
    · exact h.new s' hs'
    · exact hnew
  · intro f d hf
    rw [hL]
    rw [OrdMap.get?_insert] at hf
    split at hf
    · next heq => exact .inr ⟨s, List.mem_append_right _ (List.mem_singleton_self s), heq⟩
    · rcases h.only f d hf with hb | ⟨s', hs', heq⟩
      · exact .inl hb
      · exact .inr ⟨s', List.mem_append_left _ hs', heq⟩

end

/-- The books agree with the monitor: what is over is archived, and the current session has the
rows of the monitor. -/
structure Books (before : OrdMap String QJsonValue) (name : String) (m : Monitor) (L : Sessions) :
    Prop where
  named : m.name = name
  archived : Archived before (archiveFile name) L m.files
  keys : ∀ r ∈ m.mEvents, r.key ∈ kChartKeys
  started : m.mSessionActive = true → ∃ t, m.mSessionStart = some t ∧ L.current = some ⟨t, m.mEvents⟩
  stopped : m.mSessionActive = false → L.current = none

section
variable (before : OrdMap String QJsonValue) (name : String)

/-- The books after what a step leaves and announces. -/
def BooksAfter (L : Sessions) (x : MonitorEmits) : Prop := Books before name x.st (L.hearAll x.evs)

variable {before name}

theorem BooksAfter.andThen {L : Sessions} {x : MonitorEmits} {f : Monitor → MonitorEmits}
    (h : BooksAfter before name L x)
    (hf : ∀ L', Books before name x.st L' → BooksAfter before name L' (f x.st)) :
    BooksAfter before name L (x.andThen f) := by
  unfold BooksAfter at *
  have hrest := hf _ h
  rw [Emits.andThen_evs, Sessions.hearAll, List.foldl_append]
  exact hrest

/-- What is beside the sessions may change. -/
theorem Books.beside {m m' : Monitor} {L : Sessions} (h : Books before name m L)
    (hn : m'.name = m.name) (hf : m'.files = m.files) (he : m'.mEvents = m.mEvents)
    (ha : m'.mSessionActive = m.mSessionActive) (hs : m'.mSessionStart = m.mSessionStart) :
    Books before name m' L :=
  ⟨hn.trans h.named, by rw [hf]; exact h.archived, by rw [he]; exact h.keys,
    by rw [ha, hs, he]; exact h.started, by rw [ha]; exact h.stopped⟩

theorem recorded_append (L : Sessions) (l : List Session) (c : Option Session) :
    (⟨L.finished ++ l, c⟩ : Sessions).recorded = L.recorded ++ l.filter fun s => s.events ≠ [] :=
  List.filter_append ..

/-- **A start loses nothing if no session with rows is active.** -/
theorem books_startSession (m : Monitor) (L : Sessions) (now : Reading)
    (h : Books before name m L) (hs : ¬(m.mSessionActive = true ∧ m.mEvents ≠ [])) :
    BooksAfter before name L (m.startSession now) := by
  have hrec : (L.hear (.sessionstart now)).recorded = L.recorded := by
    unfold Sessions.hear
    dsimp only
    rw [recorded_append]
    cases ha : m.mSessionActive with
    | false =>
      rw [h.stopped ha]
      exact List.append_nil _
    | true =>
      obtain ⟨t, -, hc⟩ := h.started ha
      have he : m.mEvents = [] := not_not.mp fun hne => hs ⟨ha, hne⟩
      rw [hc, he]
      exact List.append_nil _
  refine ⟨h.named, h.archived.of_recorded before _ hrec, fun r hr => ?_, fun _ => ⟨now, rfl, rfl⟩,
    fun ha => ?_⟩
  · cases hr
  · cases ha

/-- Listing the archives changes nothing else. -/
theorem scanArchive_eq (m : Monitor) :
    ∃ archive filename, m.scanArchive = { m with archive := archive, filename := filename } :=
  ⟨_, _, rfl⟩

/-- What a stop leaves: the file of the last stamp has the rows, if there are any. -/
theorem stopSession_spec (m : Monitor) :
    m.stopSession.evs = [.sessionstop] ∧ m.stopSession.st.name = m.name ∧
      m.stopSession.st.mEvents = m.mEvents ∧ m.stopSession.st.mSessionActive = false ∧
      m.stopSession.st.files =
        match m.mSessionStart with
        | none => m.files
        | some start =>
          if m.mEvents = [] then m.files
          else m.files.insert (archiveFile m.name start) (m.document start) := by
  unfold Monitor.stopSession
  rw [Emits.andThen_evs, Emits.andThen_st]
  cases m.mSessionStart with
  | none => simp
  | some start =>
    by_cases he : m.mEvents = []
    · simp [he]
    · simp [he, Monitor.scanArchive, Monitor.document]

/-- **A stop writes the rows of the active session to its file, and otherwise changes none.** -/
theorem books_stopSession (m : Monitor) (L : Sessions) (h : Books before name m L)
    (hs : m.SafeStop) : BooksAfter before name L m.stopSession := by
  obtain ⟨hevs, hname, hrows, hoff, hfiles⟩ := stopSession_spec m
  refine ⟨hname.trans h.named, ?_, by rw [hrows]; exact h.keys, fun ha => ?_, fun _ => ?_⟩
  · rw [hevs, hfiles]
    show Archived before (archiveFile name) (L.hear .sessionstop) _
    cases ha : m.mSessionActive with
    | false =>
      -- no session is over, and a file written holds what it held
      have hrec : (L.hear .sessionstop).recorded = L.recorded := by
        unfold Sessions.hear
        dsimp only
        rw [recorded_append, h.stopped ha]
        exact List.append_nil _
      have hsame : (match m.mSessionStart with
          | none => m.files
          | some start =>
            if m.mEvents = [] then m.files
            else m.files.insert (archiveFile m.name start) (m.document start)) = m.files := by
        split
        · rfl
        · next start hstart =>
          split
          · rfl
          · next hne =>
            have hdoc := (hs.resolve_left hne) start hstart
            rw [ha, if_neg Bool.false_ne_true] at hdoc
            apply OrdMap.ext_get?
            intro f
            rw [OrdMap.get?_insert]
            split
            · next hf => rw [hf, hdoc]
            · rfl
      rw [hsame]
      exact h.archived.of_recorded before _ hrec
    | true =>
      obtain ⟨t, ht, hc⟩ := h.started ha
      rw [ht]
      dsimp only
      have hrec : (L.hear .sessionstop).recorded = L.recorded ++
          [(⟨t, m.mEvents⟩ : Session)].filter fun s => s.events ≠ [] := by
        unfold Sessions.hear
        dsimp only
        rw [recorded_append, hc]
        rfl
      split
      · next he =>
        rw [he] at hrec
        exact h.archived.of_recorded before _ (hrec.trans (List.append_nil _))
      · next hne =>
        have hfresh := (hs.resolve_left hne) t ht
        rw [ha, if_pos rfl, h.named] at hfresh
        rw [h.named]
        refine h.archived.record before _ ⟨t, m.mEvents⟩ ?_ hfresh _
          (archivedRows_document m t h.keys)
        rw [hrec, List.filter_cons_of_pos (by simpa using hne)]
        rfl
  · rw [hoff] at ha
    cases ha
  · rw [hevs]
    rfl

theorem books_newLine (m : Monitor) (L : Sessions) (row : EventRow) (h : Books before name m L)
    (hkey : row.key ∈ kChartKeys) :
    BooksAfter before name L
      (Emits.emit { m with mEvents := m.mEvents ++ [row] } (.newLine row) ()) := by
  refine ⟨h.named, h.archived.of_recorded before _ rfl, fun r hr => ?_, fun ha => ?_, fun ha => ?_⟩
  · rcases List.mem_append.mp hr with hr | hr
    · exact h.keys r hr
    · rw [List.mem_singleton.mp hr]
      exact hkey
  · obtain ⟨t, ht, hc⟩ := h.started ha
    refine ⟨t, ht, ?_⟩
    show L.current.map _ = _
    rw [hc]
    rfl
  · show L.current.map _ = none
    rw [h.stopped ha]
    rfl

/-- **A row is taken by the session that is active; at the limit the session goes into its file and
the next one starts.** -/
theorem books_appendEvent (m : Monitor) (L : Sessions) (row : EventRow) (now next : Reading)
    (h : Books before name m L)
    (hs : row.key ∈ kChartKeys → m.mSessionActive = true → 0 < m.maxrows.toInt →
      m.maxrows.toInt ≤ m.mEvents.length + 1 →
        ∀ start, m.mSessionStart = some start → m.files.get? (archiveFile m.name start) = none) :
    BooksAfter before name L (m.appendEvent row now next) := by
  unfold Monitor.appendEvent
  split
  · exact h
  · next hkey =>
    rw [not_not] at hkey
    split
    · exact h
    · next ha =>
      have hactive : m.mSessionActive = true := by simpa using ha
      dsimp only
      refine (books_newLine m L { row with ts := now.ts } h hkey).andThen fun L' h' => ?_
      split
      · next hlimit =>
        obtain ⟨hpos, hmax⟩ := hlimit
        have hmax' : m.maxrows.toInt ≤ m.mEvents.length + 1 := by
          have hlen : (m.mEvents ++ [({ row with ts := now.ts } : EventRow)]).length =
              m.mEvents.length + 1 := List.length_append
          dsimp only [Emits.emit_st] at hmax
          rw [hlen] at hmax
          exact_mod_cast hmax
        refine (books_stopSession _ L' h' (.inr fun start hstart => ?_)).andThen
          fun L'' h'' => books_startSession _ L'' next h'' ?_
        · exact (hs hkey hactive hpos hmax' start hstart).trans (if_pos hactive).symm
        · rintro ⟨hon, -⟩
          rw [(stopSession_spec _).2.2.2.1] at hon
          cases hon
      · exact h'

theorem books_setGuideBuf (m : Monitor) (L : Sessions) (key : String) (buf : GuideBuf)
    (h : Books before name m L) : Books before name (m.setGuideBuf key buf) L := by
  unfold Monitor.setGuideBuf
  split
  · exact h.beside rfl rfl rfl rfl rfl
  · exact h.beside rfl rfl rfl rfl rfl

/-- **A signal of another module.** -/
theorem books_onOtherModuleEvent (sqrt : ℚ → ℚ) (m : Monitor) (L : Sessions) (evt : EvType)
    (mod prp : String) (data : QVariant) (now next : Reading) (h : Books before name m L)
    (hs : SafeInput m (.otherModuleEvent evt mod prp data now next)) :
    BooksAfter before name L (m.onOtherModuleEvent sqrt evt mod prp data now next) := by
  unfold Monitor.onOtherModuleEvent
  split
  · exact h
  · next hev =>
    rw [not_not] at hev
    split
    · exact h
    · next hmod =>
      rw [not_not] at hmod
      dsimp only
      split
      · exact h
      · next hprp =>
        rw [not_not] at hprp
        split
        · next hguide =>
          split
          · next hsampling =>
            exact books_appendEvent m L _ now next h fun hkey ha hpos hmax =>
              hs ⟨⟨hev, hmod, hprp, hkey, fun _ => .inl hsampling⟩, ha, hpos, hmax⟩
          · split
            · next hfull =>
              have hbuf := books_setGuideBuf m L (jsonText ((data.field "e").field "event"))
                ⟨(m.guideBuf (jsonText ((data.field "e").field "event"))).samples ++
                  [jsonDouble ((data.field "e").field "val_num")], mod,
                  jsonText ((data.field "e").field "statedescription")⟩ h
              refine (books_appendEvent _ L _ now next hbuf fun hkey ha hpos hmax => ?_).andThen
                fun L' h' => books_setGuideBuf _ L' _ _ h'
              have hsize : m.sampling.toInt ≤
                  (m.guideBuf (jsonText ((data.field "e").field "event"))).samples.length + 1 := by
                rw [List.length_append, List.length_singleton] at hfull
                have hsame : ∀ key buf, (m.setGuideBuf key buf).sampling = m.sampling := by
                  intro key buf
                  unfold Monitor.setGuideBuf
                  split <;> rfl
                rw [hsame] at hfull
                exact_mod_cast hfull
              have hlast := fun ha hpos hmax =>
                hs ⟨⟨hev, hmod, hprp, hkey, fun _ => .inr hsize⟩, ha, hpos, hmax⟩
              unfold Monitor.setGuideBuf at ha hpos hmax ⊢
              split
              · next hrms =>
                rw [if_pos hrms] at ha hpos hmax
                exact hlast ha hpos hmax
              · next hrms =>
                rw [if_neg hrms] at ha hpos hmax
                exact hlast ha hpos hmax
            · exact books_setGuideBuf m L _ _ h
        · next hguide =>
          exact books_appendEvent m L _ now next h fun hkey ha hpos hmax =>
            hs ⟨⟨hev, hmod, hprp, hkey, fun hg => absurd hg hguide⟩, ha, hpos, hmax⟩

theorem books_loadArchive (m : Monitor) (L : Sessions) (line : ℤ) (h : Books before name m L)
    (hoff : m.mSessionActive = false) : Books before name (m.loadArchive line) L := by
  unfold Monitor.loadArchive
  dsimp only
  split
  · exact h.beside rfl rfl rfl rfl rfl
  · split
    · exact h.beside rfl rfl rfl rfl rfl
    · next file hfile =>
      refine ⟨h.named, h.archived, fun r hr => key_of_archivedRows file r hr, fun ha => ?_,
        fun _ => h.stopped hoff⟩
      exact absurd (hoff.symm.trans ha) Bool.false_ne_true

/-- **One input of the monitor keeps the books.** -/
theorem books_monitorStep (sqrt : ℚ → ℚ) (m : Monitor) (L : Sessions) (i : MonitorInput)
    (h : Books before name m L) (hs : SafeInput m i) :
    BooksAfter before name L (monitorStep sqrt m i) := by
  cases i with
  | onAutoStart now =>
    obtain ⟨archive, filename, hscan⟩ := scanArchive_eq m
    have h' : Books before name { m with archive := archive, filename := filename } L :=
      h.beside rfl rfl rfl rfl rfl
    unfold monitorStep Monitor.onAutoStart
    rw [hscan]
    dsimp only
    split
    · next hauto => exact books_startSession _ L now h' (hs hauto)
    · exact h'
  | start now => exact books_startSession m L now h hs
  | stop => exact books_stopSession m L h hs
  | fetch line =>
    show Books before name (m.onFetch line) L
    unfold Monitor.onFetch
    split
    · exact h
    · have hfetch : Books before name (m.fetchLine line) L := h.beside rfl rfl rfl rfl rfl
      dsimp only
      split
      · exact hfetch
      · next hoff => exact books_loadArchive _ L line hfetch (by simpa using hoff)
  | otherModuleEvent evt mod prp data now next =>
    exact books_onOtherModuleEvent sqrt m L evt mod prp data now next h hs
  | setParms autostart sampling maxrows => exact h.beside rfl rfl rfl rfl rfl
  | setSlaves slaves => exact h.beside rfl rfl rfl rfl rfl
  | editArchive archive filename => exact h.beside rfl rfl rfl rfl rfl

/-- The run of the inputs, one after the other. -/
theorem books_run (sqrt : ℚ → ℚ) (l : List MonitorInput) (m : Monitor) (L : Sessions)
    (h : Books before name m L)
    (hl : Meets (fun m i => (monitorStep sqrt m i).st) SafeInput m l) :
    BooksAfter before name L (Emits.each (monitorStep sqrt) l m) := by
  induction l generalizing m L with
  | nil => exact h
  | cons i l ih =>
    rw [Emits.each_cons]
    exact (books_monitorStep sqrt m L i h hl.1).andThen fun L' h' => ih _ L' h' hl.2

end

/-- **The archive of the sessions.**  From a monitor that has recorded nothing yet, in a run that
starts no session anew that has rows, ends none on a file that is there, and stops none after an
archive was looked at: every session that is over has its rows in a file of its own, in order and
unchanged, and the files from before are as they were. -/
theorem sessionArchive (sqrt : ℚ → ℚ) (m : Monitor) (hoff : m.mSessionActive = false)
    (hrows : m.mEvents = []) (l : List MonitorInput)
    (hl : Meets (fun m i => (monitorStep sqrt m i).st) SafeInput m l) :
    Archived m.files (archiveFile m.name)
      (({} : Sessions).hearAll (Emits.each (monitorStep sqrt) l m).evs)
      (Emits.each (monitorStep sqrt) l m).st.files := by
  have hstart : Books m.files m.name m {} := by
    refine ⟨rfl, ⟨fun _ _ hf => hf, ?_, List.nodup_nil, ?_, fun _ _ hf => .inl hf⟩, ?_, fun ha => ?_,
      fun _ => rfl⟩
    · intro s hs
      cases hs
    · intro s hs
      cases hs
    · rw [hrows]
      intro r hr
      cases hr
    · exact absurd (hoff.symm.trans ha) Bool.false_ne_true
  exact (books_run sqrt l m {} hstart hl).archived

def sampleReading (day : Int32) (h : isValidDate 2026 9 day = true) : Reading :=
  ⟨⟨2026, 9, day, h⟩, ⟨21, 30, 0, 0, by decide⟩⟩

def sampleMonitor : Monitor where
  name := "monitor"
  slaves := ["sequencer"]

/-- The sequencer signals the width of the stars of a frame. -/
def sampleSignal (hfr : ℚ) (now : Reading) : MonitorInput :=
  .otherModuleEvent .ea "sequencer" "signals"
    (.obj [("e", .obj [("event", .str "imagehfr"), ("val_num", .num hfr)])]) now now

theorem sessionArchive_sample :
    Archived sampleMonitor.files (archiveFile "monitor")
      (({} : Sessions).hearAll (Emits.each (monitorStep id)
        [.start (sampleReading 1 (by decide)), sampleSignal 2 (sampleReading 1 (by decide)), .stop,
          .fetch 0] sampleMonitor).evs)
      (Emits.each (monitorStep id)
        [.start (sampleReading 1 (by decide)), sampleSignal 2 (sampleReading 1 (by decide)), .stop,
          .fetch 0] sampleMonitor).st.files :=
  sessionArchive id sampleMonitor rfl rfl _ (by decide +kernel)

/-- Two nights are recorded, the first is looked at, and stop is pressed again: the file of the
second night now has the rows of the first. -/
def archiveViewed : List MonitorInput :=
  [.start (sampleReading 1 (by decide)), sampleSignal 2 (sampleReading 1 (by decide)), .stop,
    .start (sampleReading 2 (by decide)), sampleSignal 3 (sampleReading 2 (by decide)), .stop,
    .fetch 1, .stop]

theorem sessionArchive_fails :
    ¬Archived sampleMonitor.files (archiveFile "monitor")
      (({} : Sessions).hearAll (Emits.each (monitorStep id) archiveViewed sampleMonitor).evs)
      (Emits.each (monitorStep id) archiveViewed sampleMonitor).st.files := by
  intro h
  obtain ⟨s, hs, hlost⟩ : ∃ s ∈ (({} : Sessions).hearAll
      (Emits.each (monitorStep id) archiveViewed sampleMonitor).evs).recorded,
      ((Emits.each (monitorStep id) archiveViewed sampleMonitor).st.files.get?
        (archiveFile "monitor" s.start)).map archivedRows ≠ some s.events := by
    decide +kernel
  exact hlost (h.written s hs)

end Monitoring

end Ost
