import Ost.Qt

/-!
# Elements and grid values

An element of a property has a label, display settings and a content, one of
eleven types; a grid cell is a `Value` of the type of its element.

Algorithm:
- `Element.setValue` is the `setValue` of the element's class.  Numbers outside an
  active min/max are refused; a string is always announced; any other value is
  announced when it is a change, where image, video and progress data have no
  comparison and always count as one.
- `ElementUpdate.visit` converts an untyped value to the element's type first.

Everything but the value and the null flag is the element's `frame`.

Main theorems:
    setValue_frame:     setValue keeps the frame
    setValue_value:     a value of the element's type within bounds is stored
    setValue_quiet:     if nothing is announced (and it could be), no value changed
-/

namespace Ost

open Lib

/-! ## Enumerations and plain data -/

inductive State where
  | Idle | Ok | Busy | Error
  deriving DecidableEq, Repr

def StateToInt : State → Int32
  | .Idle => 0
  | .Ok => 1
  | .Busy => 2
  | .Error => 3

inductive SwitchsRule where
  | OneOfMany | AtMostOne | Any
  deriving DecidableEq, Repr

def SwitchsRule.toInt32 : SwitchsRule → Int32
  | .OneOfMany => 0
  | .AtMostOne => 1
  | .Any => 2

inductive SliderRule where
  | SliderNone | SliderOnly | SliderAndValue
  deriving DecidableEq, Repr

def SliderRule.toInt32 : SliderRule → Int32
  | .SliderNone => 0
  | .SliderOnly => 1
  | .SliderAndValue => 2

inductive LovScope where
  | Module | Controller
  deriving DecidableEq, Repr

inductive PrgType where
  | bar | spinner
  deriving DecidableEq, Repr

structure PrgData where
  dynlabel : String := ""
  value : ℚ := 0
  deriving DecidableEq

structure VideoData where
  url : String := ""
  deriving DecidableEq

/-- What the dumps show of an image: the arrays hold one entry for each of three channels. -/
structure ImgData where
  mUrlJpeg : String := ""
  mUrlFits : String := ""
  mUrlOverlay : String := ""
  mUrlThumbnail : String := ""
  mAlternates : List String := []
  min : Vector ℚ 3 := Vector.replicate 3 0
  max : Vector ℚ 3 := Vector.replicate 3 0
  mean : Vector ℚ 3 := Vector.replicate 3 0
  stddev : Vector ℚ 3 := Vector.replicate 3 0
  median : Vector ℚ 3 := Vector.replicate 3 0
  SNR : ℚ := 0
  width : UInt16 := 0
  height : UInt16 := 0
  channels : UInt8 := 1
  HFRavg : ℚ := 0
  HFRavgDev : ℚ := 0
  starsCount : ℚ := 0
  isSolved : Bool := false
  solverRA : ℚ := 0
  solverDE : ℚ := 0
  solverOrientation : ℚ := 0
  solverPixscale : ℚ := 0
  solverFieldWidth : ℚ := 0
  solverFieldHeight : ℚ := 0
  sampling : ℚ := 0
  histogram : Vector (List ℚ) 3 := Vector.replicate 3 []
  deriving DecidableEq

/-! ## Values and contents -/

inductive EltType where
  | int | float | bool | string | date | time | datetime | light | prg | img | video
  deriving DecidableEq, Repr

/-- The types a command that sets a whole line must give a value for. -/
def EltType.isScalar : EltType → Bool
  | .int | .float | .bool | .string | .date | .time | .datetime => true
  | .light | .prg | .img | .video => false

/-- The value of an element, or of a grid cell. -/
inductive Value where
  | int (v : Int32)
  | float (v : ℚ)
  | bool (v : Bool)
  | string (v : String)
  | date (v : QDate)
  | time (v : QTime)
  | datetime (v : QDateTime)
  | light (v : State)
  | prg (v : PrgData)
  | img (v : ImgData)
  | video (v : VideoData)
  deriving DecidableEq

def Value.type : Value → EltType
  | .int _ => .int
  | .float _ => .float
  | .bool _ => .bool
  | .string _ => .string
  | .date _ => .date
  | .time _ => .time
  | .datetime _ => .datetime
  | .light _ => .light
  | .prg _ => .prg
  | .img _ => .img
  | .video _ => .video

/-- Settings of a numeric element (`ElementTemplateNumeric`) and its list of values,
whose keys are the numbers of type `K` that the `T` stand for. -/
structure NumericSettings (T K : Type) [LinearOrder K] where
  min : T
  max : T
  step : T
  useMinMax : Bool := false
  format : String := ""
  slider : SliderRule := .SliderNone
  lov : OrdMap K String := OrdMap.empty
  deriving DecidableEq

/-- The typed part of an element: its value and the settings of its class. -/
inductive Content where
  | int (value : Int32) (num : NumericSettings Int32 ℤ)
  | float (value : ℚ) (num : NumericSettings ℚ ℚ)
  | bool (value : Bool)
  | string (value : String) (lov : OrdMap String String)
  | date (value : QDate)
  | time (value : QTime) (useMs : Bool)
  | datetime (value : QDateTime)
  | light (value : State)
  | prg (value : PrgData) (prgType : PrgType)
  | img (value : ImgData) (showStats : Bool)
  | video (value : VideoData)
  deriving DecidableEq

namespace Content

def value : Content → Value
  | .int v _ => .int v
  | .float v _ => .float v
  | .bool v => .bool v
  | .string v _ => .string v
  | .date v => .date v
  | .time v _ => .time v
  | .datetime v => .datetime v
  | .light v => .light v
  | .prg v _ => .prg v
  | .img v _ => .img v
  | .video v => .video v

/-- The settings alone, the value put back to its default. -/
def settings : Content → Content
  | .int _ num => .int 0 num
  | .float _ num => .float 0 num
  | .bool _ => .bool false
  | .string _ lov => .string "" lov
  | .date _ => .date none
  | .time _ useMs => .time none useMs
  | .datetime _ => .datetime .null
  | .light _ => .light .Idle
  | .prg _ t => .prg {} t
  | .img _ b => .img {} b
  | .video _ => .video {}

end Content

/-- `ElementBase` and the content of its class. -/
structure Element where
  label : String := "change me"
  order : String := "change me"
  hint : String := ""
  autoUpdate : Bool := false
  directEdit : Bool := false
  badge : Bool := false
  preIcon : String := ""
  postIcon : String := ""
  globalLov : String := ""
  lovScope : LovScope := .Module
  lovConstrained : Bool := false
  nullable : Bool := false
  isNull : Bool := false
  content : Content
  deriving DecidableEq

/-- Outcome of a write: the element, whether it emitted `ee`, whether it took the value. -/
structure Written where
  elt : Element
  emitted : Bool
  ret : Bool

namespace Element

def type (e : Element) : EltType := e.content.value.type

def value (e : Element) : Value := e.content.value

/-- All of an element but its value and its null flag. -/
def frame (e : Element) : Element := { e with isNull := false, content := e.content.settings }

/-! ## Algorithm -/

/-- Whether a write is a change worth announcing (types with a comparison). -/
def valueActuallyChanged {T : Type} [DecidableEq T] (wasNull : Bool) (oldValue newValue : T) :
    Bool :=
  if wasNull then true else decide (oldValue ≠ newValue)

/-- The common end of every `setValue`. -/
def store (e : Element) (content : Content) (isNull changed emitEvent : Bool) : Written :=
  ⟨{ e with content := content, isNull := isNull }, emitEvent && changed, true⟩

/-- The min/max test of `ElementTemplateNumeric::setValue`. -/
def outOfRange {T K : Type} [LinearOrder K] [LT T] [DecidableLT T] (num : NumericSettings T K)
    (v : T) : Bool :=
  num.useMinMax && (decide (v < num.min) || decide (num.max < v))

/-- `setValue` of the element's class, on a value of its own type. -/
def setValue (e : Element) (v : Value) (emitEvent : Bool) : Written :=
  match e.content, v with
  | .int old num, .int x =>
    if outOfRange num x then ⟨e, false, false⟩
    else e.store (.int x num) false (valueActuallyChanged e.isNull old x) emitEvent
  | .float old num, .float x =>
    if outOfRange num x then ⟨e, false, false⟩
    else e.store (.float x num) false (valueActuallyChanged e.isNull old x) emitEvent
  | .bool old, .bool x => e.store (.bool x) false (valueActuallyChanged e.isNull old x) emitEvent
  | .string _ lov, .string x => e.store (.string x lov) x.isEmpty true emitEvent
  | .date old, .date x => e.store (.date x) false (valueActuallyChanged e.isNull old x) emitEvent
  | .time old useMs, .time x =>
    e.store (.time x useMs) false (valueActuallyChanged e.isNull old x) emitEvent
  | .datetime old, .datetime x =>
    e.store (.datetime x) false (valueActuallyChanged e.isNull old x) emitEvent
  | .light old, .light x => e.store (.light x) false (valueActuallyChanged e.isNull old x) emitEvent
  | .prg _ t, .prg x => e.store (.prg x t) false true emitEvent
  | .img _ b, .img x => e.store (.img x b) false true emitEvent
  | .video _, .video x => e.store (.video x) false true emitEvent
  -- a setValue of another type does not exist
  | _, _ => ⟨e, false, false⟩

/-- `setPrgValue` of a progress element. -/
def setPrgValue (e : Element) (v : ℚ) (emitEvent : Bool) : Written :=
  match e.content with
  | .prg d _ =>
    if v < 0 ∨ 100 < v then ⟨e, false, false⟩
    else e.setValue (.prg { d with value := v }) emitEvent
  | _ => ⟨e, false, false⟩

/-- `setDynLabel` of a progress element. -/
def setDynLabel (e : Element) (s : String) (emitEvent : Bool) : Written :=
  match e.content with
  | .prg d _ => e.setValue (.prg { d with dynlabel := s }) emitEvent
  | _ => ⟨e, false, false⟩

end Element

/-- A date out of the fields of a map. -/
def dateOfMap [QtText] (m : QVariant) : QDate :=
  QDate.setDate (toInt (m.field "year")) (toInt (m.field "month")) (toInt (m.field "day"))

/-- A time out of the fields of a map. -/
def timeOfMap [QtText] (m : QVariant) : QTime :=
  QTime.setHMS (toInt (m.field "hh")) (toInt (m.field "mm")) (toInt (m.field "ss"))
    (toInt (m.field "ms"))

/-- `ElementUpdate::visit`, one case for each class, on `data["value"]`. -/
def ElementUpdate.visit [QtText] (e : Element) (v : QVariant) (emitEvent : Bool) : Written :=
  match e.content with
  | .int _ _ => e.setValue (.int (Int32.ofInt (toLongLong v))) emitEvent
  | .float _ _ => e.setValue (.float (toDouble v)) emitEvent
  | .bool _ => e.setValue (.bool (toBool v)) emitEvent
  | .string _ _ => e.setValue (.string (toText v)) emitEvent
  | .light _ =>
    if toInt v = 0 then e.setValue (.light .Idle) emitEvent
    else if toInt v = 1 then e.setValue (.light .Ok) emitEvent
    else if toInt v = 2 then e.setValue (.light .Busy) emitEvent
    else if toInt v = 3 then e.setValue (.light .Error) emitEvent
    else ⟨e, false, false⟩
  | .date _ => e.setValue (.date (dateOfMap v)) emitEvent
  | .time _ useMs =>
    let ms := if useMs then toInt (v.field "ms") else 0
    e.setValue (.time (QTime.setHMS (toInt (v.field "hh")) (toInt (v.field "mm"))
      (toInt (v.field "ss")) ms)) emitEvent
  | .datetime _ => e.setValue (.datetime (QDateTime.build (dateOfMap v) (timeOfMap v))) emitEvent
  | .prg _ _ | .img _ _ | .video _ => ⟨e, false, false⟩

/-! ## Lemmas -/

namespace Element

/-- The value lies within the element's active min/max. -/
def Accepts (e : Element) (v : Value) : Prop :=
  match e.content, v with
  | .int _ num, .int x => outOfRange num x = false
  | .float _ num, .float x => outOfRange num x = false
  | _, _ => True

instance (e : Element) (v : Value) : Decidable (e.Accepts v) := by
  unfold Accepts
  split <;> infer_instance

theorem of_content (e : Element) (c : Content) (h : e.content = c) :
    e.value = c.value ∧ e.type = c.value.type := by
  subst h
  exact ⟨rfl, rfl⟩

theorem type_eq_of_frame_eq (e e' : Element) (h : e.frame = e'.frame) : e.type = e'.type := by
  have hc : e.content.settings = e'.content.settings := congrArg Element.content h
  have hset : ∀ c : Content, c.settings.value.type = c.value.type := fun c => by cases c <;> rfl
  show e.content.value.type = e'.content.value.type
  rw [← hset e.content, ← hset e'.content, hc]

theorem accepts_frame (e : Element) (v : Value) : e.frame.Accepts v ↔ e.Accepts v := by
  show Accepts { e with isNull := false, content := e.content.settings } v ↔ e.Accepts v
  unfold Accepts
  cases e.content <;> cases v <;> exact Iff.rfl

theorem accepts_iff_of_frame_eq (e e' : Element) (v : Value) (h : e.frame = e'.frame) :
    e.Accepts v ↔ e'.Accepts v := by
  rw [← accepts_frame e, ← accepts_frame e', h]

theorem eq_of_not_valueActuallyChanged {T : Type} [DecidableEq T] (wasNull : Bool) (old new : T)
    (h : valueActuallyChanged wasNull old new = false) : new = old := by
  unfold valueActuallyChanged at h
  cases wasNull with
  | false =>
    rw [if_neg Bool.false_ne_true, decide_eq_false_iff_not, not_not] at h
    exact h.symm
  | true => cases h

theorem setValue_of_type_ne (e : Element) (v : Value) (emitEvent : Bool) (h : v.type ≠ e.type) :
    e.setValue v emitEvent = ⟨e, false, false⟩ := by
  have h' : v.type ≠ e.content.value.type := h
  unfold setValue
  cases hc : e.content <;> rw [hc] at h' <;> cases v <;> first | rfl | exact absurd rfl h'

/-- A write is refused, or stores the value, the settings staying as they are; a write that
does not count as a change stores what was there. -/
theorem setValue_cases (e : Element) (v : Value) :
    ((∀ emitEvent, e.setValue v emitEvent = ⟨e, false, false⟩) ∧
      ¬(v.type = e.type ∧ e.Accepts v)) ∨
    (∃ c isNull changed, (∀ emitEvent, e.setValue v emitEvent = e.store c isNull changed emitEvent) ∧
      c.value = v ∧ c.settings = e.content.settings ∧ (changed = false → c = e.content)) := by
  by_cases ht : v.type = e.type
  · have ht' : v.type = e.content.value.type := ht
    have hval : ∀ {T : Type} [DecidableEq T] (mk : T → Content) (old new : T),
        valueActuallyChanged e.isNull old new = false → mk new = mk old :=
      fun mk old new h => by rw [eq_of_not_valueActuallyChanged _ _ _ h]
    unfold setValue Accepts
    cases hc : e.content <;> rw [hc] at ht' <;> cases v <;> try (cases ht'; done)
    case int.int old num x =>
      by_cases hr : outOfRange num x = true
      · exact .inl ⟨fun _ => if_pos hr, by simp [hr]⟩
      · exact .inr ⟨_, _, _, fun _ => if_neg hr, rfl, rfl, hval (.int · num) _ _⟩
    case float.float old num x =>
      by_cases hr : outOfRange num x = true
      · exact .inl ⟨fun _ => if_pos hr, by simp [hr]⟩
      · exact .inr ⟨_, _, _, fun _ => if_neg hr, rfl, rfl, hval (.float · num) _ _⟩
    case bool.bool => exact .inr ⟨_, _, _, fun _ => rfl, rfl, rfl, hval .bool _ _⟩
    case string.string => exact .inr ⟨_, _, _, fun _ => rfl, rfl, rfl, nofun⟩
    case date.date => exact .inr ⟨_, _, _, fun _ => rfl, rfl, rfl, hval .date _ _⟩
    case time.time old useMs x => exact .inr ⟨_, _, _, fun _ => rfl, rfl, rfl, hval (.time · useMs) _ _⟩
    case datetime.datetime => exact .inr ⟨_, _, _, fun _ => rfl, rfl, rfl, hval .datetime _ _⟩
    case light.light => exact .inr ⟨_, _, _, fun _ => rfl, rfl, rfl, hval .light _ _⟩
    case prg.prg => exact .inr ⟨_, _, _, fun _ => rfl, rfl, rfl, nofun⟩
    case img.img => exact .inr ⟨_, _, _, fun _ => rfl, rfl, rfl, nofun⟩
    case video.video => exact .inr ⟨_, _, _, fun _ => rfl, rfl, rfl, nofun⟩
  · exact .inl ⟨fun b => setValue_of_type_ne e v b ht, fun h => ht h.1⟩

/-- **A write changes the value and the null flag only.** -/
theorem setValue_frame (e : Element) (v : Value) (emitEvent : Bool) :
    (e.setValue v emitEvent).elt.frame = e.frame := by
  rcases setValue_cases e v with ⟨h, -⟩ | ⟨c, n, ch, h, -, hs, -⟩
  · rw [h]
  · rw [h]
    unfold store frame
    rw [← hs]

theorem setValue_type (e : Element) (v : Value) (emitEvent : Bool) :
    (e.setValue v emitEvent).elt.type = e.type :=
  type_eq_of_frame_eq _ _ (setValue_frame e v emitEvent)

/-- **A value of the element's own type within its bounds is stored.** -/
theorem setValue_value (e : Element) (v : Value) (emitEvent : Bool) (ht : v.type = e.type)
    (ha : e.Accepts v) : (e.setValue v emitEvent).elt.value = v := by
  rcases setValue_cases e v with ⟨-, h⟩ | ⟨c, n, ch, h, hv, -, -⟩
  · exact absurd ⟨ht, ha⟩ h
  · rw [h]
    exact hv

theorem setValue_silent (e : Element) (v : Value) : (e.setValue v false).emitted = false := by
  rcases setValue_cases e v with ⟨h, -⟩ | ⟨c, n, ch, h, -, -, -⟩ <;> rw [h]
  rfl

/-- **No change goes unannounced**: a write that may emit and does not keeps the content. -/
theorem setValue_quiet (e : Element) (v : Value) (h : (e.setValue v true).emitted = false) :
    (e.setValue v true).elt.content = e.content := by
  rcases setValue_cases e v with ⟨hr, -⟩ | ⟨c, n, ch, hs, -, -, hq⟩
  · rw [hr]
  · rw [hs] at h ⊢
    exact hq h

/-- A value that is not accepted is refused. -/
theorem setValue_of_not_accepts (e : Element) (v : Value) (emitEvent : Bool)
    (h : ¬e.Accepts v) : e.setValue v emitEvent = ⟨e, false, false⟩ := by
  unfold Accepts at h
  unfold setValue
  split at h
  · next hc =>
    simp only [hc]
    exact if_pos (Bool.eq_true_of_not_eq_false h)
  · next hc =>
    simp only [hc]
    exact if_pos (Bool.eq_true_of_not_eq_false h)
  · exact absurd trivial h

/-- An element holds the value written to it exactly if it accepts it or held it. -/
theorem setValue_value_iff (e : Element) (v : Value) (emitEvent : Bool) (ht : v.type = e.type) :
    (e.setValue v emitEvent).elt.value = v ↔ e.Accepts v ∨ e.value = v := by
  by_cases ha : e.Accepts v
  · exact iff_of_true (e.setValue_value v emitEvent ht ha) (.inl ha)
  · rw [setValue_of_not_accepts e v emitEvent ha]
    exact ⟨.inr, fun h => h.resolve_left ha⟩

/-- The value an element holds stays when it is written again. -/
theorem setValue_self (e : Element) (emitEvent : Bool) :
    (e.setValue e.value emitEvent).elt.value = e.value :=
  (setValue_value_iff e e.value emitEvent rfl).mpr (.inr rfl)

/-- A value is accepted if it is of the element's type and within its bounds. -/
theorem setValue_ret_iff (e : Element) (v : Value) (emitEvent : Bool) :
    (e.setValue v emitEvent).ret = true ↔ v.type = e.type ∧ e.Accepts v := by
  rcases e.setValue_cases v with ⟨hr, hno⟩ | ⟨c, n, ch, hs, hv, -, -⟩
  · rw [hr]
    exact ⟨nofun, fun h => absurd h hno⟩
  · have hret : (e.setValue v emitEvent).ret = true := by rw [hs]; rfl
    refine ⟨fun _ => ?_, fun _ => hret⟩
    have ht : v.type = e.type := by
      by_contra hne
      rw [e.setValue_of_type_ne v emitEvent hne] at hret
      cases hret
    refine ⟨ht, ?_⟩
    by_contra ha
    have hboth := (hs emitEvent).symm.trans (e.setValue_of_not_accepts v emitEvent ha)
    exact absurd (congrArg Written.ret hboth) Bool.noConfusion

end Element

namespace ElementUpdate

variable [QtText]

/-- A visit writes one value of the element's type, or nothing. -/
theorem visit_cases (e : Element) (v : QVariant) (emitEvent : Bool) :
    (∃ x, visit e v emitEvent = e.setValue x emitEvent) ∨ visit e v emitEvent = ⟨e, false, false⟩ := by
  unfold visit
  cases e.content with
  | light _ =>
    simp only
    split
    · exact .inl ⟨_, rfl⟩
    · split
      · exact .inl ⟨_, rfl⟩
      · split
        · exact .inl ⟨_, rfl⟩
        · split
          · exact .inl ⟨_, rfl⟩
          · exact .inr rfl
  | prg _ _ => exact .inr rfl
  | img _ _ => exact .inr rfl
  | video _ => exact .inr rfl
  | _ => exact .inl ⟨_, rfl⟩

theorem visit_frame (e : Element) (v : QVariant) (emitEvent : Bool) :
    (visit e v emitEvent).elt.frame = e.frame := by
  rcases visit_cases e v emitEvent with ⟨x, h⟩ | h
  · rw [h, Element.setValue_frame]
  · rw [h]

theorem visit_silent (e : Element) (v : QVariant) : (visit e v false).emitted = false := by
  rcases visit_cases e v false with ⟨x, h⟩ | h
  · rw [h, Element.setValue_silent]
  · rw [h]

theorem visit_quiet (e : Element) (v : QVariant) (h : (visit e v true).emitted = false) :
    (visit e v true).elt.content = e.content := by
  rcases visit_cases e v true with ⟨x, hx⟩ | hx
  · rw [hx] at h ⊢
    exact Element.setValue_quiet e x h
  · rw [hx]

end ElementUpdate

end Ost
