import Ost.Lib.Journal
import Ost.Lib.Run
import Mathlib.Data.List.DropRight
import Mathlib.Order.Basic

/-!
# The drivers of the INDI server

The controller tells the INDI server through a pipe to start and to stop drivers, and keeps and
publishes a list of those that are active.  A driver with more than one entry in the catalog is
looked for on the bus half a second later; a server that is found or not managed is asked for its
devices.  A device has the label of an entry for its name, or that label and the model after it.

Algorithm:
- `bestCatalogMatchForLiveName` finds the entry of a device;
- `startIndiDriver`, `stopIndiDriver`, `reloadIndiDriver`, `queryActiveIndiDrivers`, `startIndi`,
  `stopIndi`, `loadIndiConfiguration` and the INDI part of `onSystemWatch`, with the timers that are
  pending.

What is told to the server is kept as a journal.

Main theorems:
    bestCatalogMatch_iff:  the label that is found, whatever the order of the catalog
    published_run:         the list that is published is the one of the active drivers
    starts_run:            a driver with one entry is not told to start twice
-/

namespace Ost.IndiDrivers

open Lib

/-! ## The catalog -/

structure IndiDriverInfo where
  label : List Char
  binary : List Char
  family : List Char
  mdpd : Bool
  deriving DecidableEq

/-- The device has the label for its name, or before it. -/
def IndiDriverInfo.isMatch (d : IndiDriverInfo) (deviceLabel : List Char) : Bool :=
  decide (d.label = deviceLabel) || d.mdpd && (d.label ++ [' ']).isPrefixOf deviceLabel

/-- The longest label so far. -/
def better (best : Option IndiDriverInfo) (d : IndiDriverInfo) : Option IndiDriverInfo :=
  match best with
  | none => some d
  | some b => if b.label.length < d.label.length then some d else some b

def bestCatalogMatchForLiveName (indiDrivers : List IndiDriverInfo) (deviceLabel : List Char) :
    Option IndiDriverInfo :=
  indiDrivers.foldl (fun best d => if d.isMatch deviceLabel then better best d else best) none

theorem IndiDriverInfo.label_prefix {d : IndiDriverInfo} {name : List Char}
    (h : d.isMatch name = true) : d.label <+: name := by
  unfold isMatch at h
  rcases (Bool.or_eq_true _ _).mp h with h | h
  · exact of_decide_eq_true h ▸ List.prefix_rfl
  · have hpre := List.isPrefixOf_iff_prefix.mp ((Bool.and_eq_true _ _).mp h).2
    exact (List.prefix_append _ _).trans hpre

/-- What is found is of the catalog, and no label is longer. -/
theorem bestCatalogMatch_spec (indiDrivers : List IndiDriverInfo) (name : List Char) :
    bestCatalogMatchForLiveName indiDrivers name = none ∧
        (∀ d ∈ indiDrivers, d.isMatch name = false) ∨
      ∃ b ∈ indiDrivers, bestCatalogMatchForLiveName indiDrivers name = some b ∧
        b.isMatch name = true ∧
        ∀ d ∈ indiDrivers, d.isMatch name = true → d.label.length ≤ b.label.length := by
  unfold bestCatalogMatchForLiveName
  induction indiDrivers using List.reverseRecOn with
  | nil => exact .inl ⟨rfl, nofun⟩
  | append_singleton l d ih =>
    rw [List.foldl_append, List.foldl_cons, List.foldl_nil]
    have hlast : ∀ {P : IndiDriverInfo → Prop}, (∀ x ∈ l, P x) → P d → ∀ x ∈ l ++ [d], P x := by
      intro P hl hd x hx
      rcases List.mem_append.mp hx with hx | hx
      · exact hl x hx
      · rw [List.mem_singleton.mp hx]
        exact hd
    have hd : d ∈ l ++ [d] := List.mem_append_right _ List.mem_cons_self
    cases hmatch : d.isMatch name with
    | false =>
      rw [if_neg Bool.false_ne_true]
      rcases ih with ⟨hnone, hall⟩ | ⟨b, hb, hsome, hbm, hall⟩
      · exact .inl ⟨hnone, hlast hall hmatch⟩
      · refine .inr ⟨b, List.mem_append_left _ hb, hsome, hbm, hlast hall fun h => ?_⟩
        exact absurd (hmatch.symm.trans h) Bool.false_ne_true
    | true =>
      rw [if_pos rfl]
      rcases ih with ⟨hnone, hall⟩ | ⟨b, hb, hsome, hbm, hall⟩
      · rw [hnone]
        refine .inr ⟨d, hd, rfl, hmatch, hlast (fun x hx h => ?_) fun _ => le_rfl⟩
        exact absurd ((hall x hx).symm.trans h) Bool.false_ne_true
      · rw [hsome]
        unfold better
        dsimp only
        split
        · next hlt =>
          exact .inr ⟨d, hd, rfl, hmatch,
            hlast (fun x hx h => (hall x hx h).trans hlt.le) fun _ => le_rfl⟩
        · next hge =>
          exact .inr ⟨b, List.mem_append_left _ hb, rfl, hbm,
            hlast hall fun _ => not_lt.mp hge⟩

/-- **The label of a device** is the longest one that is its name or before it: there is no other of
that length, so it does not matter how the catalog is sorted. -/
theorem bestCatalogMatch_iff (indiDrivers : List IndiDriverInfo) (name label : List Char) :
    (∃ b, bestCatalogMatchForLiveName indiDrivers name = some b ∧ b.label = label) ↔
      ∃ d ∈ indiDrivers, d.isMatch name = true ∧ d.label = label ∧
        ∀ d' ∈ indiDrivers, d'.isMatch name = true → d'.label.length ≤ label.length := by
  constructor
  · rintro ⟨b, hb, rfl⟩
    rcases bestCatalogMatch_spec indiDrivers name with ⟨hnone, -⟩ | ⟨b', hmem, hsome, hm, hall⟩
    · rw [hnone] at hb
      cases hb
    · obtain rfl := Option.some.inj (hsome.symm.trans hb)
      exact ⟨b', hmem, hm, rfl, hall⟩
  · rintro ⟨d, hd, hm, rfl, hall⟩
    rcases bestCatalogMatch_spec indiDrivers name with ⟨-, hnone⟩ | ⟨b, hb, hsome, hbm, hlongest⟩
    · exact absurd ((hnone d hd).symm.trans hm) Bool.false_ne_true
    · -- two beginnings of one length are one
      have hlength : b.label.length = d.label.length := le_antisymm (hall b hb hbm) (hlongest d hd hm)
      have hpre := List.prefix_of_prefix_length_le (IndiDriverInfo.label_prefix hbm)
        (IndiDriverInfo.label_prefix hm) hlength.le
      exact ⟨b, hsome, hpre.eq_of_length hlength⟩

/-! ## The bus -/

/-- `QChar::isSpace`: from tab to carriage return, and the separators. -/
def isSpace (c : Char) : Bool :=
  decide (9 ≤ c.toNat ∧ c.toNat ≤ 13) || decide (0x2000 ≤ c.toNat ∧ c.toNat ≤ 0x200A) ||
    decide (c.toNat ∈ [0x20, 0x85, 0xA0, 0x1680, 0x2028, 0x2029, 0x202F, 0x205F, 0x3000])

/-- Without the white space at both ends. -/
def trimmed (l : List Char) : List Char := (l.dropWhile isSpace).rdropWhile isSpace

/-- `section('.', 0, 0)` -/
def firstSection (l : List Char) : List Char := l.takeWhile (· ≠ '.')

/-- The devices whose `DRIVER_EXEC` is the driver, from what `indi_getprop` writes. -/
def resolveIndiDeviceNames (output : List Char) (pDriver : List Char) : List (List Char) :=
  (output.splitOn '\n').filterMap fun line =>
    let line := trimmed line
    match line.idxOf? '=' with
    | none => none
    | some eq =>
      if trimmed (line.drop (eq + 1)) ≠ pDriver then none
      else
        let deviceName := firstSection (line.take eq)
        if deviceName = [] then none else some deviceName

/-- The devices that have a connection. -/
def connectedDevices (output : List Char) : List (List Char) :=
  ((output.splitOn '\n').map fun line => firstSection (trimmed line)).filter (· ≠ [])

/-! ## The active drivers -/

/-- A timer of half a second. -/
inductive Pending
  | resolve (pDriver : List Char)
  | start (pDriver : List Char)

/-- What was told to the server; `lost` is where the list was cleared or read from the bus. -/
inductive Order
  | start (pDriver : List Char)
  | stop (pDriver : List Char)
  | lost
  deriving DecidableEq

/-- `indiactivedrivers` is the entry of the published data, `managed` whether the server is OST's. -/
structure Drivers where
  indiDrivers : List IndiDriverInfo
  managed : Bool
  activeIndiDrivers : List IndiDriverInfo := []
  indiactivedrivers : Option (List (List Char × List Char × List Char)) := none
  pending : List Pending := []
  journal : List Order := []

/-- `activeIndiDriversToVariant` -/
def IndiDriverInfo.toVariant (d : IndiDriverInfo) : List Char × List Char × List Char :=
  (d.label, d.binary, d.family)

namespace Drivers

variable (s : Drivers)

def publish : Drivers :=
  { s with indiactivedrivers := some (s.activeIndiDrivers.map IndiDriverInfo.toVariant) }

/-- `fifo`: the pipe can be opened. -/
def startIndiDriver (pDriver : List Char) (fifo : Bool) : Drivers :=
  if s.activeIndiDrivers.any fun d => decide (d.binary = pDriver) then s
  else if !fifo then s
  else
    let s : Drivers := { s with journal := s.journal ++ [Order.start pDriver] }
    match s.indiDrivers.filter fun d => decide (d.binary = pDriver) with
    | [] => s
    | [d] => { s with activeIndiDrivers := s.activeIndiDrivers ++ [d] }.publish
    | _ => { s with pending := s.pending ++ [.resolve pDriver] }

/-- The entry of a device, unless it is there. -/
def addDevice (device : List Char) : Drivers :=
  match bestCatalogMatchForLiveName s.indiDrivers device with
  | none => s
  | some best =>
    if s.activeIndiDrivers.any fun d => decide (d.binary = best.binary ∧ d.label = best.label) then s
    else { s with activeIndiDrivers := s.activeIndiDrivers ++ [best] }

/-- The timer of `startIndiDriver`; `resolved` is whether the list got longer. -/
def resolve (pDriver output : List Char) : Drivers :=
  let s' := (resolveIndiDeviceNames output pDriver).foldl addDevice s
  if s.activeIndiDrivers.length < s'.activeIndiDrivers.length then s'.publish else s'

def stopIndiDriver (pDriver : List Char) (fifo : Bool) : Drivers :=
  if !fifo then s
  else
    { s with
      journal := s.journal ++ [Order.stop pDriver]
      activeIndiDrivers := s.activeIndiDrivers.filter fun d => !decide (d.binary = pDriver) }.publish

def reloadIndiDriver (pDriver : List Char) (fifo : Bool) : Drivers :=
  let s := s.stopIndiDriver pDriver fifo
  { s with pending := s.pending ++ [.start pDriver] }

def queryActiveIndiDrivers (output : List Char) : Drivers :=
  { s with
    journal := s.journal ++ [Order.lost]
    activeIndiDrivers :=
      (connectedDevices output).filterMap (bestCatalogMatchForLiveName s.indiDrivers) }.publish

/-- `orphan` is what a server writes that survived; a new server has no drivers, but the list stays
as it is. -/
def startIndi (orphan : Option (List Char)) : Drivers :=
  match orphan with
  | some output => s.queryActiveIndiDrivers output
  | none => s

def stopIndi : Drivers :=
  { s with journal := s.journal ++ [Order.lost], activeIndiDrivers := [] }.publish

/-- A server that is not managed is asked at every tick, if it runs. -/
def onSystemWatch (bus : Option (List Char)) : Drivers :=
  if s.managed then s
  else
    match bus with
    | some output => s.queryActiveIndiDrivers output
    | none => if s.activeIndiDrivers = [] then s else s.stopIndi

/-- The drivers of a configuration, each with whether the pipe can be opened for it. -/
def loadIndiConfiguration (labels : List (List Char × Bool)) : Drivers :=
  labels.foldl (fun s (label, fifo) =>
    match s.indiDrivers.find? fun d => decide (d.label = label) with
    | some d => s.startIndiDriver d.binary fifo
    | none => s) s

inductive Input
  | startIndi (orphan : Option (List Char))
  | stopIndi
  | startIndiDriver (pDriver : List Char) (fifo : Bool)
  | stopIndiDriver (pDriver : List Char) (fifo : Bool)
  | reloadIndiDriver (pDriver : List Char) (fifo : Bool)
  | loadIndiConfiguration (labels : List (List Char × Bool))
  | onSystemWatch (bus : Option (List Char))
  | timeout (n : ℕ) (output : List Char) (fifo : Bool)

def step (s : Drivers) : Input → Drivers
  | .startIndi orphan => s.startIndi orphan
  | .stopIndi => s.stopIndi
  | .startIndiDriver pDriver fifo => s.startIndiDriver pDriver fifo
  | .stopIndiDriver pDriver fifo => s.stopIndiDriver pDriver fifo
  | .reloadIndiDriver pDriver fifo => s.reloadIndiDriver pDriver fifo
  | .loadIndiConfiguration labels => s.loadIndiConfiguration labels
  | .onSystemWatch bus => s.onSystemWatch bus
  | .timeout n output fifo =>
    let t := { s with pending := s.pending.eraseIdx n }
    match s.pending[n]? with
    | none => s
    | some (.resolve pDriver) => t.resolve pDriver output
    | some (.start pDriver) => t.startIndiDriver pDriver fifo

def run (s : Drivers) (l : List Input) : Drivers := l.foldl step s

/-! ## What is published -/

/-- The active drivers are of the catalog, and published as they are, or there is none and nothing is
published yet. -/
structure Listed (s : Drivers) : Prop where
  known : ∀ d ∈ s.activeIndiDrivers, d ∈ s.indiDrivers
  published : s.indiactivedrivers = some (s.activeIndiDrivers.map IndiDriverInfo.toVariant) ∨
    s.indiactivedrivers = none ∧ s.activeIndiDrivers = []

variable {s}

theorem listed_publish (h : ∀ d ∈ s.activeIndiDrivers, d ∈ s.indiDrivers) : s.publish.Listed :=
  ⟨h, .inl rfl⟩

/-- The devices of the bus lengthen the list. -/
structure Grown (s t : Drivers) : Prop where
  indiDrivers : t.indiDrivers = s.indiDrivers
  indiactivedrivers : t.indiactivedrivers = s.indiactivedrivers
  journal : t.journal = s.journal
  active : s.activeIndiDrivers <+: t.activeIndiDrivers
  known : (∀ d ∈ s.activeIndiDrivers, d ∈ s.indiDrivers) →
    ∀ d ∈ t.activeIndiDrivers, d ∈ t.indiDrivers

theorem Grown.refl (s : Drivers) : s.Grown s := ⟨rfl, rfl, rfl, List.prefix_rfl, id⟩

theorem Grown.trans {t u : Drivers} (h : s.Grown t) (h' : t.Grown u) : s.Grown u :=
  ⟨h'.indiDrivers.trans h.indiDrivers, h'.indiactivedrivers.trans h.indiactivedrivers,
    h'.journal.trans h.journal, h.active.trans h'.active, h'.known ∘ h.known⟩

theorem known_of_best {device : List Char} {l : List IndiDriverInfo} {best : IndiDriverInfo}
    (h : bestCatalogMatchForLiveName l device = some best) : best ∈ l := by
  rcases bestCatalogMatch_spec l device with ⟨hnone, -⟩ | ⟨b, hb, hsome, -⟩
  · rw [hnone] at h
    cases h
  · obtain rfl := Option.some.inj (hsome.symm.trans h)
    exact hb

theorem grown_addDevice (s : Drivers) (device : List Char) : s.Grown (s.addDevice device) := by
  unfold addDevice
  split
  · exact Grown.refl s
  · next best hbest =>
    split
    · exact Grown.refl s
    · refine ⟨rfl, rfl, rfl, List.prefix_append _ _, fun hknown d hd => ?_⟩
      rcases List.mem_append.mp hd with hd | hd
      · exact hknown d hd
      · rw [List.mem_singleton.mp hd]
        exact known_of_best hbest

theorem grown_foldl (devices : List (List Char)) (s : Drivers) :
    s.Grown (devices.foldl addDevice s) := by
  induction devices generalizing s with
  | nil => exact Grown.refl s
  | cons device l ih => exact (grown_addDevice s device).trans (ih _)

theorem listed_resolve (h : s.Listed) (pDriver output : List Char) :
    (s.resolve pDriver output).Listed := by
  have hgrown := grown_foldl (resolveIndiDeviceNames output pDriver) s
  unfold resolve
  dsimp only
  split
  · exact listed_publish (hgrown.known h.known)
  · next hlen =>
    have hsame := hgrown.active.eq_of_length_le (not_lt.mp hlen)
    refine ⟨hgrown.known h.known, ?_⟩
    rw [hgrown.indiactivedrivers, ← hsame]
    exact h.published

theorem listed_startIndiDriver (h : s.Listed) (pDriver : List Char) (fifo : Bool) :
    (s.startIndiDriver pDriver fifo).Listed := by
  unfold startIndiDriver
  split
  · exact h
  split
  · exact h
  · dsimp only
    split
    · exact ⟨h.known, h.published⟩
    · next d hd =>
      refine listed_publish fun x hx => ?_
      rcases List.mem_append.mp hx with hx | hx
      · exact h.known x hx
      · rw [List.mem_singleton.mp hx]
        exact (List.mem_filter.mp (hd ▸ List.mem_cons_self)).1
    · exact ⟨h.known, h.published⟩

theorem listed_stopIndiDriver (h : s.Listed) (pDriver : List Char) (fifo : Bool) :
    (s.stopIndiDriver pDriver fifo).Listed := by
  unfold stopIndiDriver
  split
  · exact h
  · exact listed_publish fun d hd => h.known d (List.mem_filter.mp hd).1

theorem listed_query (s : Drivers) (output : List Char) :
    (s.queryActiveIndiDrivers output).Listed :=
  listed_publish fun d hd => by
    obtain ⟨device, -, hdevice⟩ := List.mem_filterMap.mp hd
    exact known_of_best hdevice

theorem listed_stopIndi (s : Drivers) : s.stopIndi.Listed := listed_publish nofun

/-- **One input.** -/
theorem listed_step (s : Drivers) (i : Input) (h : s.Listed) : (s.step i).Listed := by
  cases i with
  | startIndi orphan =>
    cases orphan with
    | none => exact h
    | some output => exact listed_query s output
  | stopIndi => exact listed_stopIndi s
  | startIndiDriver pDriver fifo => exact listed_startIndiDriver h pDriver fifo
  | stopIndiDriver pDriver fifo => exact listed_stopIndiDriver h pDriver fifo
  | reloadIndiDriver pDriver fifo =>
    have hstop := listed_stopIndiDriver h pDriver fifo
    exact ⟨hstop.known, hstop.published⟩
  | loadIndiConfiguration labels =>
    show (s.loadIndiConfiguration labels).Listed
    unfold loadIndiConfiguration
    induction labels generalizing s with
    | nil => exact h
    | cons label l ih =>
      refine ih _ ?_
      dsimp only
      split
      · exact listed_startIndiDriver h _ _
      · exact h
  | onSystemWatch bus =>
    show (s.onSystemWatch bus).Listed
    unfold onSystemWatch
    split
    · exact h
    · split
      · exact listed_query s _
      · split
        · exact h
        · exact listed_stopIndi s
  | timeout n output fifo =>
    have htimer : ({ s with pending := s.pending.eraseIdx n } : Drivers).Listed :=
      ⟨h.known, h.published⟩
    unfold step
    dsimp only
    split
    · exact h
    · exact listed_resolve htimer _ _
    · exact listed_startIndiDriver htimer _ _

/-- **What is published**: in every run the published list is that of the active drivers, in their
order, and each of them is an entry of the catalog; before the first change nothing is published. -/
theorem published_run (indiDrivers : List IndiDriverInfo) (managed : Bool) (l : List Input) :
    (run { indiDrivers, managed } l).Listed := by
  unfold run
  induction l using List.reverseRecOn with
  | nil => exact ⟨nofun, .inr ⟨rfl, rfl⟩⟩
  | append_singleton l i ih =>
    rw [List.foldl_append]
    exact listed_step _ i ih

/-! ## What the server is told -/

def opens (pDriver : List Char) (o : Order) : Bool := o = .start pDriver

def closes (pDriver : List Char) (o : Order) : Bool := o = .stop pDriver || o = .lost

/-- A driver that was told to start, and not to stop, is in the list. -/
structure Started (pDriver : List Char) (s : Drivers) : Prop where
  sole : ∃ d, s.indiDrivers.filter (fun d => decide (d.binary = pDriver)) = [d]
  separated : Separated (opens pDriver) (closes pDriver) s.journal
  active : opened (opens pDriver) (closes pDriver) s.journal = true →
    ∃ d ∈ s.activeIndiDrivers, d.binary = pDriver

variable {pDriver : List Char}

/-- Nothing is told to the server, and no driver is lost. -/
theorem Started.congr {t : Drivers} (h : s.Started pDriver) (hd : t.indiDrivers = s.indiDrivers)
    (hj : t.journal = s.journal)
    (ha : ∀ d ∈ s.activeIndiDrivers, d ∈ t.activeIndiDrivers) : t.Started pDriver := by
  refine ⟨hd ▸ h.sole, hj ▸ h.separated, fun hopen => ?_⟩
  rw [hj] at hopen
  obtain ⟨d, hmem, hbinary⟩ := h.active hopen
  exact ⟨d, ha d hmem, hbinary⟩

/-- An entry that closes. -/
theorem Started.close {t : Drivers} (h : s.Started pDriver) (o : Order)
    (ho : closes pDriver o = true) (hd : t.indiDrivers = s.indiDrivers)
    (hj : t.journal = s.journal ++ [o]) : t.Started pDriver := by
  have hnot : opens pDriver o = false := by
    unfold opens
    unfold closes at ho
    cases o with
    | start p => simp at ho
    | stop p | lost => rfl
  refine ⟨hd ▸ h.sole, ?_, fun hopen => ?_⟩
  · rw [hj]
    exact separated_concat _ _ _ _ h.separated fun h => absurd (hnot.symm.trans h) Bool.false_ne_true
  · rw [hj, opened_concat, if_neg (by rw [hnot]; decide), if_pos ho] at hopen
    cases hopen

/-- An entry that is about another driver. -/
theorem Started.other {t : Drivers} (h : s.Started pDriver) (o : Order)
    (hopens : opens pDriver o = false) (hcloses : closes pDriver o = false)
    (hd : t.indiDrivers = s.indiDrivers) (hj : t.journal = s.journal ++ [o])
    (ha : ∀ d ∈ s.activeIndiDrivers, d.binary = pDriver → d ∈ t.activeIndiDrivers) :
    t.Started pDriver := by
  refine ⟨hd ▸ h.sole, ?_, fun hopen => ?_⟩
  · rw [hj]
    exact separated_concat _ _ _ _ h.separated fun h =>
      absurd (hopens.symm.trans h) Bool.false_ne_true
  · rw [hj, opened_concat, if_neg (by rw [hopens]; decide), if_neg (by rw [hcloses]; decide)] at hopen
    obtain ⟨d, hmem, hbinary⟩ := h.active hopen
    exact ⟨d, ha d hmem hbinary, hbinary⟩

theorem started_startIndiDriver (h : s.Started pDriver) (p : List Char) (fifo : Bool) :
    (s.startIndiDriver p fifo).Started pDriver := by
  unfold startIndiDriver
  split
  · exact h
  split
  · exact h
  · next hactive _ =>
    dsimp only
    by_cases hp : p = pDriver
    · subst hp
      obtain ⟨d, hd⟩ := h.sole
      rw [hd]
      -- it is not in the list, so nothing is open
      have hclosed : opened (opens p) (closes p) s.journal = false := by
        by_contra hopen
        obtain ⟨x, hx, hbinary⟩ := h.active (Bool.of_not_eq_false hopen)
        exact hactive (List.any_eq_true.mpr ⟨x, hx, decide_eq_true hbinary⟩)
      have hmem : d ∈ s.indiDrivers.filter fun d => decide (d.binary = p) :=
        hd ▸ List.mem_cons_self
      have hbinary : d.binary = p := of_decide_eq_true (List.mem_filter.mp hmem).2
      exact ⟨⟨d, hd⟩, separated_concat _ _ _ _ h.separated fun _ => hclosed, fun _ =>
        ⟨d, List.mem_append_right _ List.mem_cons_self, hbinary⟩⟩
    · have hopens : opens pDriver (.start p) = false := by
        unfold opens
        simpa using hp
      split
      · exact h.other _ hopens rfl rfl rfl fun d hd _ => hd
      · exact h.other _ hopens rfl rfl rfl fun d hd _ => List.mem_append_left _ hd
      · exact h.other _ hopens rfl rfl rfl fun d hd _ => hd

theorem started_stopIndiDriver (h : s.Started pDriver) (p : List Char) (fifo : Bool) :
    (s.stopIndiDriver p fifo).Started pDriver := by
  unfold stopIndiDriver
  split
  · exact h
  · by_cases hp : p = pDriver
    · subst hp
      exact h.close (.stop p) (by simp [closes]) rfl rfl
    · refine h.other (.stop p) rfl (by simpa [closes] using hp) rfl rfl fun d hd hbinary => ?_
      refine List.mem_filter.mpr ⟨hd, ?_⟩
      rw [hbinary, decide_eq_false (Ne.symm hp)]
      rfl

/-- **One input.** -/
theorem started_step (s : Drivers) (i : Input) (h : s.Started pDriver) :
    (s.step i).Started pDriver := by
  have hquery : ∀ output, (s.queryActiveIndiDrivers output).Started pDriver := fun output =>
    h.close .lost rfl rfl rfl
  cases i with
  | startIndi orphan =>
    cases orphan with
    | none => exact h
    | some output => exact hquery output
  | stopIndi => exact h.close .lost rfl rfl rfl
  | startIndiDriver p fifo => exact started_startIndiDriver h p fifo
  | stopIndiDriver p fifo => exact started_stopIndiDriver h p fifo
  | reloadIndiDriver p fifo =>
    exact (started_stopIndiDriver h p fifo).congr rfl rfl fun _ hd => hd
  | loadIndiConfiguration labels =>
    show (s.loadIndiConfiguration labels).Started pDriver
    clear hquery
    unfold loadIndiConfiguration
    induction labels generalizing s with
    | nil => exact h
    | cons label l ih =>
      refine ih _ ?_
      dsimp only
      split
      · exact started_startIndiDriver h _ _
      · exact h
  | onSystemWatch bus =>
    show (s.onSystemWatch bus).Started pDriver
    unfold onSystemWatch
    split
    · exact h
    · split
      · exact hquery _
      · split
        · exact h
        · exact h.close .lost rfl rfl rfl
  | timeout n output fifo =>
    have htimer : ({ s with pending := s.pending.eraseIdx n } : Drivers).Started pDriver :=
      h.congr rfl rfl fun _ hd => hd
    unfold step
    dsimp only
    split
    · exact h
    · next p _ =>
      have hgrown := grown_foldl (resolveIndiDeviceNames output p)
        { s with pending := s.pending.eraseIdx n }
      unfold resolve
      dsimp only
      split
      · exact htimer.congr hgrown.indiDrivers hgrown.journal fun d hd => hgrown.active.subset hd
      · exact htimer.congr hgrown.indiDrivers hgrown.journal fun d hd => hgrown.active.subset hd
    · exact started_startIndiDriver htimer _ _

/-- **A driver is not started twice**: one that has one entry in the catalog is told to start again
only after it was told to stop, or the list was cleared or read from the bus; so, too, if the server
was started anew in the meantime and has no drivers. -/
theorem starts_run (indiDrivers : List IndiDriverInfo) (managed : Bool) (pDriver : List Char)
    (hsole : ∃ d, indiDrivers.filter (fun d => decide (d.binary = pDriver)) = [d])
    (l : List Input) :
    Separated (opens pDriver) (closes pDriver) (run { indiDrivers, managed } l).journal := by
  have h : (run { indiDrivers, managed } l).Started pDriver := by
    unfold run
    induction l using List.reverseRecOn with
    | nil => exact ⟨hsole, separated_nil _ _, nofun⟩
    | append_singleton l i ih =>
      rw [List.foldl_append]
      exact started_step _ i ih
  exact h.separated

/-- The entry of a simulator. -/
def simulator : IndiDriverInfo :=
  ⟨"CCD Simulator".toList, "indi_simulator_ccd".toList, "CCDs".toList, false⟩

/-- The server is started anew between two commands for one driver, which is told to stop after them
and then to start again. -/
def anew : List Input :=
  [.startIndiDriver simulator.binary true, .startIndi none, .startIndiDriver simulator.binary true,
    .stopIndiDriver simulator.binary true, .startIndiDriver simulator.binary true]

theorem starts_run_anew :
    (run { indiDrivers := [simulator], managed := true } anew).journal =
        [.start simulator.binary, .stop simulator.binary, .start simulator.binary] ∧
      Separated (opens simulator.binary) (closes simulator.binary)
        (run { indiDrivers := [simulator], managed := true } anew).journal :=
  ⟨by decide, starts_run [simulator] true simulator.binary ⟨simulator, by decide⟩ anew⟩

end Drivers

end Ost.IndiDrivers
