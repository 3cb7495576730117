import Ost.SwitchMaps
import Ost.Dump

/-!
# Maps of values, all or nothing

`setAll`, `newLine` and `updateLine` look whether a map has a value for every element that
needs one, and refuse it if not.  Then they write the elements one by one; an element that
refuses its value says so in the log, and the operation goes on.

Algorithm:
- `setAllRefusal`, `newLineRefusal`: what the operations log when they refuse a map, before
  they have done anything; `updateLine` returns false;
- `Denotes`: the value of a map is the value of an element; `TakesAll`: the maps that leave
  every element with the value they give it, and the others as they were.

Main theorems:
    denotes_written_iff:  an element has the value after the write exactly if it takes it
    follows_setElts_iff:  the switches follow a map exactly if their rule allows it
    setElts_applied_iff:  a complete map is applied exactly if every element takes its value
    allOrNothing_iff:  an operation applies a map or refuses it exactly if the map is refused
      or every element takes its value
-/

namespace Ost

open Lib

/-! ## Values -/

/-- The milliseconds of a time may be left out. -/
def msIs (v : QVariant) (ms : Int32) : Prop :=
  v.field "ms" = ofInt ms ∨ v.field "ms" = .null ∧ ms.toInt ≤ 0

def dateIs (v : QVariant) (d : QDate) : Prop :=
  v.field "year" = ofInt d.year ∧ v.field "month" = ofInt d.month ∧ v.field "day" = ofInt d.day

def timeIs (v : QVariant) (t : QTime) : Prop :=
  v.field "hh" = ofInt t.hour ∧ v.field "mm" = ofInt t.minute ∧ v.field "ss" = ofInt t.second ∧
    msIs v t.msec

/-- The value of a map is the value of an element. -/
def Denotes (v : QVariant) : Value → Prop
  | .date d => dateIs v d
  | .time t => timeIs v t
  | .datetime dt => dateIs v dt.date ∧ timeIs v dt.time
  | x => v = ValueJsonDumper.visit x

/-- An element takes the value: one of its type, which it accepts or has already. -/
def Element.Takes (e : Element) (v : QVariant) : Prop :=
  match e.content with
  | .int old num => ∃ n, v = ofInt n ∧ (outOfRange num n = false ∨ old = n)
  | .float old num => ∃ x, v = .num x ∧ (outOfRange num x = false ∨ old = x)
  | .bool _ => ∃ b, v = .bool b
  | .string _ _ => ∃ s, v = .str s
  | .date _ => ∃ d, dateIs v d
  | .time _ useMs => ∃ t, timeIs v t ∧ (useMs = true ∨ t.msec.toInt ≤ 0)
  | .datetime _ => ∃ dt : QDateTime, dateIs v dt.date ∧ timeIs v dt.time
  | .light _ => ∃ s, v = ofInt (StateToInt s)
  -- nothing can be written to these
  | c => v = ValueJsonDumper.visit c.value

/-- An element that the map does not mention is left as it is: a light is put to Idle, and a
date-time to no date at midnight. -/
def Element.Unmentioned (e : Element) : Prop :=
  match e.content with
  | .light s => s = .Idle ∧ e.isNull = false
  | .datetime dt => dt = QDateTime.build none (QTime.setHMS 0 0 0 0) ∧ e.isNull = false
  | .prg _ _ | .img _ _ | .video _ => True
  | _ => False

namespace PropertyMulti

section
variable [QtText]

/-- What `setElt` leaves of an element that is no switch. -/
def written (e : Element) (v : QVariant) : Element :=
  match e.type with
  | .int | .string | .float => if canConvert v then (ElementUpdate.visit e v false).elt else e
  | .time | .date | .datetime => (ElementUpdate.visit e (.object v.toMap) false).elt
  | .light => (ElementUpdate.visit e v false).elt
  | _ => e

/-! ### What is read back from a map -/

theorem toInt_field_of_msIs (v : QVariant) (t : QTime) (h : msIs v t.msec) :
    QTime.setHMS t.hour t.minute t.second (toInt (v.field "ms")) = t := by
  rcases h with h | ⟨h, hms⟩
  · rw [h, toInt_ofInt, QTime.setHMS_parts]
  · rw [h, toInt_null]
    cases t with
    | none => decide
    | some t =>
      have hvalid := t.valid
      have hzero : t.msec = 0 := by
        unfold isValidTime at hvalid
        simp only [Bool.and_eq_true, decide_eq_true_eq] at hvalid
        have hms' : t.msec.toInt ≤ 0 := hms
        exact Int32.toInt_inj.mp (by rw [Int32.toInt_zero]; omega)
      show QTime.setHMS t.hour t.minute t.second 0 = some t
      rw [← hzero]
      exact QTime.setHMS_parts (some t)

theorem dateOfMap_of_dateIs (v : QVariant) (d : QDate) (h : dateIs v d) : dateOfMap v = d := by
  obtain ⟨hy, hm, hd⟩ := h
  unfold dateOfMap
  rw [hy, hm, hd, toInt_ofInt, toInt_ofInt, toInt_ofInt, QDate.setDate_parts]

theorem timeOfMap_of_timeIs (v : QVariant) (t : QTime) (h : timeIs v t) : timeOfMap v = t := by
  obtain ⟨hh, hm, hs, hms⟩ := h
  unfold timeOfMap
  rw [hh, hm, hs, toInt_ofInt, toInt_ofInt, toInt_ofInt, toInt_field_of_msIs v t hms]

theorem dateOfMap_object (v : QVariant) : dateOfMap (.object v.toMap) = dateOfMap v := by
  unfold dateOfMap
  rw [Json.field_object_toMap, Json.field_object_toMap, Json.field_object_toMap]

theorem timeOfMap_object (v : QVariant) : timeOfMap (.object v.toMap) = timeOfMap v := by
  unfold timeOfMap
  rw [Json.field_object_toMap, Json.field_object_toMap, Json.field_object_toMap,
    Json.field_object_toMap]

/-- **A value is taken exactly if the element has it after the write.** -/
theorem denotes_written_iff (e : Element) (v : QVariant) (hb : e.type ≠ .bool) :
    Denotes v (written e v).value ↔ e.Takes v := by
  have htype : e.type = e.content.value.type := rfl
  have hvalue : e.value = e.content.value := rfl
  unfold written Element.Takes
  cases hc : e.content with
  | bool b => exact absurd (htype.trans (by rw [hc]; rfl)) hb
  | int old num =>
    have ht : e.type = .int := by rw [htype, hc]; rfl
    have hvisit : ElementUpdate.visit e v false =
        if Element.outOfRange num (Int32.ofInt (toLongLong v)) then ⟨e, false, false⟩
        else e.store (.int (Int32.ofInt (toLongLong v)) num) false
          (Element.valueActuallyChanged e.isNull old (Int32.ofInt (toLongLong v))) false := by
      unfold ElementUpdate.visit
      rw [hc]
      dsimp only
      unfold Element.setValue
      rw [hc]
    have hofInt : ∀ n : Int32, Int32.ofInt (toLongLong (ofInt n)) = n := fun n => by
      rw [toLongLong_ofInt, Int32.ofInt_toInt]
    rw [ht]
    dsimp only
    rw [hvisit]
    constructor
    · intro h
      split at h
      · split at h
        · next hout =>
          rw [hvalue, hc] at h
          exact ⟨old, h, .inr rfl⟩
        · next hout => exact ⟨_, h, .inl (by simpa using hout)⟩
      · next hconv =>
        rw [hvalue, hc] at h
        exact absurd (show canConvert v = true by rw [show v = ofInt old from h]; rfl) hconv
    · rintro ⟨n, rfl, hin⟩
      rw [if_pos (canConvert_ofInt n), hofInt]
      split
      · next hout =>
        rw [hvalue, hc]
        rcases hin with hin | rfl
        · exact absurd (hin.symm.trans hout) (by decide)
        · rfl
      · rfl
  | float old num =>
    have ht : e.type = .float := by rw [htype, hc]; rfl
    have hvisit : ElementUpdate.visit e v false =
        if Element.outOfRange num (toDouble v) then ⟨e, false, false⟩
        else e.store (.float (toDouble v) num) false
          (Element.valueActuallyChanged e.isNull old (toDouble v)) false := by
      unfold ElementUpdate.visit
      rw [hc]
      dsimp only
      unfold Element.setValue
      rw [hc]
    rw [ht]
    dsimp only
    rw [hvisit]
    constructor
    · intro h
      split at h
      · split at h
        · next hout =>
          rw [hvalue, hc] at h
          exact ⟨old, h, .inr rfl⟩
        · next hout => exact ⟨_, h, .inl (by simpa using hout)⟩
      · next hconv =>
        rw [hvalue, hc] at h
        exact absurd (show canConvert v = true by rw [show v = .num old from h]; rfl) hconv
    · rintro ⟨x, rfl, hin⟩
      have hconv : canConvert (.num x : QVariant) = true := rfl
      rw [if_pos hconv]
      show Denotes (.num x) (Written.elt (if Element.outOfRange num x then _ else _)).value
      split
      · next hout =>
        rw [hvalue, hc]
        rcases hin with hin | rfl
        · exact absurd (hin.symm.trans hout) (by decide)
        · rfl
      · rfl
  | string old lov =>
    have ht : e.type = .string := by rw [htype, hc]; rfl
    have hvisit : (ElementUpdate.visit e v false).elt.value = .string (toText v) := by
      unfold ElementUpdate.visit
      rw [hc]
      dsimp only
      unfold Element.setValue
      rw [hc]
      rfl
    rw [ht]
    dsimp only
    constructor
    · intro h
      split at h
      · rw [hvisit] at h
        exact ⟨_, h⟩
      · next hconv =>
        rw [hvalue, hc] at h
        exact absurd (show canConvert v = true by rw [show v = .str old from h]; rfl) hconv
    · rintro ⟨t, rfl⟩
      have hconv : canConvert (.str t : QVariant) = true := rfl
      rw [if_pos hconv, hvisit]
      rfl
  | date old =>
    have ht : e.type = .date := by rw [htype, hc]; rfl
    have hvisit : (ElementUpdate.visit e (.object v.toMap) false).elt.value =
        .date (dateOfMap v) := by
      unfold ElementUpdate.visit
      rw [hc]
      dsimp only
      unfold Element.setValue
      rw [hc, dateOfMap_object]
      rfl
    rw [ht]
    dsimp only
    rw [hvisit]
    constructor
    · intro h
      exact ⟨_, h⟩
    · rintro ⟨d, hd⟩
      rw [dateOfMap_of_dateIs v d hd]
      exact hd
  | time old useMs =>
    have ht : e.type = .time := by rw [htype, hc]; rfl
    have hvisit : (ElementUpdate.visit e (.object v.toMap) false).elt.value =
        .time (QTime.setHMS (toInt (v.field "hh")) (toInt (v.field "mm")) (toInt (v.field "ss"))
          (if useMs then toInt (v.field "ms") else 0)) := by
      unfold ElementUpdate.visit
      rw [hc]
      dsimp only
      unfold Element.setValue
      rw [hc, Json.field_object_toMap, Json.field_object_toMap, Json.field_object_toMap,
        Json.field_object_toMap]
      rfl
    rw [ht]
    dsimp only
    rw [hvisit]
    constructor
    · intro h
      refine ⟨_, h, ?_⟩
      cases useMs with
      | true => exact .inl rfl
      | false =>
        refine .inr ?_
        rw [if_neg (by decide)]
        unfold QTime.setHMS
        split
        · show (0 : Int32).toInt ≤ 0
          decide
        · decide
    · rintro ⟨t, htime, hms⟩
      obtain ⟨hh, hm, hs, hmsIs⟩ := htime
      have hset : QTime.setHMS (toInt (v.field "hh")) (toInt (v.field "mm"))
          (toInt (v.field "ss")) (if useMs then toInt (v.field "ms") else 0) = t := by
        rw [hh, hm, hs, toInt_ofInt, toInt_ofInt, toInt_ofInt]
        cases useMs with
        | true => exact toInt_field_of_msIs v t hmsIs
        | false =>
          -- no milliseconds are read, and there are none
          have hzero : t.msec.toInt ≤ 0 := by
            rcases hms with hms | hms
            · cases hms
            · exact hms
          exact toInt_field_of_msIs .null t (.inr ⟨rfl, hzero⟩)
      rw [hset]
      exact ⟨hh, hm, hs, hmsIs⟩
  | datetime old =>
    have ht : e.type = .datetime := by rw [htype, hc]; rfl
    have hvisit : (ElementUpdate.visit e (.object v.toMap) false).elt.value =
        .datetime (QDateTime.build (dateOfMap v) (timeOfMap v)) := by
      unfold ElementUpdate.visit
      rw [hc]
      dsimp only
      unfold Element.setValue
      rw [hc, dateOfMap_object, timeOfMap_object]
      rfl
    rw [ht]
    dsimp only
    rw [hvisit]
    constructor
    · intro h
      exact ⟨_, h⟩
    · rintro ⟨dt, hd, htime⟩
      rw [dateOfMap_of_dateIs v _ hd, timeOfMap_of_timeIs v _ htime, QDateTime.build_parts]
      exact ⟨hd, htime⟩
  | light old =>
    have ht : e.type = .light := by rw [htype, hc]; rfl
    rw [ht]
    dsimp only
    constructor
    · intro h
      have htype' : (ElementUpdate.visit e v false).elt.type = .light := by
        rw [Element.type_eq_of_frame_eq _ _ (ElementUpdate.visit_frame e v false), ht]
      have hlight : ∃ s, (ElementUpdate.visit e v false).elt.value = .light s := by
        have h' : (ElementUpdate.visit e v false).elt.value.type = .light := htype'
        cases hx : (ElementUpdate.visit e v false).elt.value <;> rw [hx] at h' <;>
          first | exact ⟨_, rfl⟩ | cases h'
      obtain ⟨s, hs⟩ := hlight
      rw [hs] at h
      exact ⟨s, h⟩
    · rintro ⟨s, rfl⟩
      have hvisit : (ElementUpdate.visit e (ofInt (StateToInt s)) false).elt.value = .light s := by
        unfold ElementUpdate.visit
        rw [hc]
        dsimp only
        unfold Element.setValue
        rw [toInt_ofInt, hc]
        cases s <;> rfl
      rw [hvisit]
      rfl
  | prg d t =>
    have ht : e.type = .prg := by rw [htype, hc]; rfl
    rw [ht]
    dsimp only
    rw [hvalue, hc]
    exact Iff.rfl
  | img d b =>
    have ht : e.type = .img := by rw [htype, hc]; rfl
    rw [ht]
    dsimp only
    rw [hvalue, hc]
    exact Iff.rfl
  | video d =>
    have ht : e.type = .video := by rw [htype, hc]; rfl
    rw [ht]
    dsimp only
    rw [hvalue, hc]
    exact Iff.rfl

/-- An element without a value, of a type that may be left out. -/
theorem written_null_eq_iff (e : Element) (ht : e.type.isScalar = false ∨ e.type = .datetime) :
    written e .null = e ↔ e.Unmentioned := by
  have htype : e.type = e.content.value.type := rfl
  -- a write of the content that the element has, the null flag taken away
  have hsame : ∀ c : Content, (e.store c false true false).elt = e ↔
      c = e.content ∧ e.isNull = false := by
    intro c
    unfold Element.store
    constructor
    · intro h
      exact ⟨congrArg Element.content h, (congrArg Element.isNull h).symm⟩
    · rintro ⟨rfl, hnull⟩
      cases e
      cases hnull
      rfl
  have hstore : ∀ c n ch b, (e.store c n ch b).elt = (e.store c n true false).elt :=
    fun _ _ _ _ => rfl
  unfold Element.Unmentioned
  cases hc : e.content with
  | light old =>
    have ht' : e.type = .light := by rw [htype, hc]; rfl
    have hvisit : written e .null = (e.store (.light .Idle) false true false).elt := by
      unfold written
      rw [ht']
      dsimp only
      unfold ElementUpdate.visit
      rw [hc]
      dsimp only
      rw [toInt_null, if_pos rfl]
      unfold Element.setValue
      rw [hc]
      rfl
    rw [hvisit, hsame, hc]
    refine and_congr_left fun _ => ⟨fun h => ?_, fun h => ?_⟩
    · cases h
      rfl
    · rw [h]
  | datetime old =>
    have ht' : e.type = .datetime := by rw [htype, hc]; rfl
    have hvisit : written e .null = (e.store (.datetime (QDateTime.build none
        (QTime.setHMS 0 0 0 0))) false true false).elt := by
      unfold written
      rw [ht']
      dsimp only
      unfold ElementUpdate.visit
      rw [hc]
      dsimp only
      rw [dateOfMap_object, timeOfMap_object]
      unfold Element.setValue
      rw [hc]
      rfl
    rw [hvisit, hsame, hc]
    refine and_congr_left fun _ => ⟨fun h => ?_, fun h => ?_⟩
    · cases h
      rfl
    · rw [h]
  | prg d t =>
    have ht' : e.type = .prg := by rw [htype, hc]; rfl
    unfold written
    rw [ht']
    exact ⟨fun _ => trivial, fun _ => rfl⟩
  | img d b =>
    have ht' : e.type = .img := by rw [htype, hc]; rfl
    unfold written
    rw [ht']
    exact ⟨fun _ => trivial, fun _ => rfl⟩
  | video d =>
    have ht' : e.type = .video := by rw [htype, hc]; rfl
    unfold written
    rw [ht']
    exact ⟨fun _ => trivial, fun _ => rfl⟩
  | _ =>
    rw [htype, hc] at ht
    rcases ht with ht | ht <;> cases ht

/-! ## The elements that are no switches -/

/-- The elements but the switches. -/
def others (p : PropertyMulti) : OrdMap String Element :=
  p.elts.filterMap fun _ e => if e.type = .bool then none else some e

omit [QtText] in
theorem get?_others (p : PropertyMulti) (k : String) (e : Element) :
    p.others.get? k = some e ↔ p.elts.get? k = some e ∧ e.type ≠ .bool := by
  unfold others
  rw [OrdMap.get?_filterMap]
  cases p.elts.get? k with
  | none => exact ⟨nofun, fun h => nomatch h.1⟩
  | some e' =>
    rw [Option.bind_some]
    by_cases ht : e'.type = .bool
    · rw [if_pos ht]
      refine ⟨fun h => (by cases h), fun ⟨h, hne⟩ => ?_⟩
      cases h
      exact absurd ht hne
    · rw [if_neg ht]
      refine ⟨fun h => ?_, fun h => h.1⟩
      cases h
      exact ⟨rfl, ht⟩

omit [QtText] in
/-- The elements keep their types. -/
theorem OnlyValues.type_get? {p q : PropertyMulti} (h : OnlyValues p q) (k : String) :
    (q.elts.get? k).map Element.type = (p.elts.get? k).map Element.type := by
  have hget := congrArg (fun m => OrdMap.get? m k) h.types
  unfold PropertyMulti.types at hget
  rw [OrdMap.get?_map, OrdMap.get?_map] at hget
  exact hget

omit [QtText] in
theorem others_writeElt (p : PropertyMulti) (key : String) (write : Element → Written)
    (hw : KeepsFrame write) :
    (p.writeElt key write).st.others = p.others.modify key fun e => (write e).elt := by
  have htype : ∀ e, (write e).elt.type = e.type := fun e => Element.type_eq_of_frame_eq _ _ (hw e)
  apply OrdMap.ext_get?
  intro k
  unfold others
  rw [OrdMap.get?_modify, OrdMap.get?_filterMap, OrdMap.get?_filterMap, writeElt_elts,
    OrdMap.get?_modify]
  by_cases hk : k = key
  · rw [if_pos hk, if_pos hk]
    cases p.elts.get? k with
    | none => rfl
    | some e =>
      rw [Option.map_some, Option.bind_some, Option.bind_some, htype]
      split <;> rfl
  · rw [if_neg hk, if_neg hk]

/-- The event asked for or not, the write is the same. -/
theorem visit_elt (e : Element) (v : QVariant) (emitEvent : Bool) :
    (ElementUpdate.visit e v emitEvent).elt = (ElementUpdate.visit e v false).elt := by
  have hset : ∀ x b, (e.setValue x b).elt = (e.setValue x false).elt := by
    intro x b
    rcases e.setValue_cases x with ⟨h, -⟩ | ⟨c, n, ch, h, -, -, -⟩
    · rw [h, h]
    · rw [h, h]
      rfl
  unfold ElementUpdate.visit
  cases e.content with
  | light s =>
    dsimp only
    split
    · exact hset _ _
    split
    · exact hset _ _
    split
    · exact hset _ _
    split
    · exact hset _ _
    · rfl
  | prg _ _ | img _ _ | video _ => rfl
  | _ => exact hset _ _

theorem others_acceptUpdate (p : PropertyMulti) (key : String) (v : QVariant) (emitEvent : Bool) :
    (p.acceptUpdate key v emitEvent).st.others =
      p.others.modify key fun e => (ElementUpdate.visit e v false).elt := by
  unfold acceptUpdate
  rw [Emits.returning_st, others_writeElt p key _ fun e => ElementUpdate.visit_frame e v emitEvent]
  exact OrdMap.modify_congr _ _ _ _ fun e _ => visit_elt e v emitEvent

/-- A write of a switch leaves them alone. -/
theorem others_acceptUpdate_bool (p : PropertyMulti) (key : String) (v : QVariant)
    (emitEvent : Bool) (hb : (p.elts.get? key).map Element.type = some .bool) :
    (p.acceptUpdate key v emitEvent).st.others = p.others := by
  rw [others_acceptUpdate]
  refine OrdMap.modify_of_get?_eq_none _ _ _ ?_
  cases h : p.others.get? key with
  | none => rfl
  | some e =>
    obtain ⟨he, hne⟩ := (get?_others p key e).mp h
    rw [he, Option.map_some] at hb
    exact absurd (Option.some.inj hb) hne

theorem others_unsetOthers (p : PropertyMulti) (key : String) (emitEvent : Bool) :
    (p.unsetOthers key emitEvent).st.others = p.others := by
  unfold unsetOthers
  refine Emits.each_st_induction (fun q => q.others = p.others) _ _ (fun q elt _ hq => ?_) p rfl
  split
  · next h => rw [others_acceptUpdate_bool q elt _ emitEvent h.1, hq]
  · exact hq

/-- **What `setElt` does to them**: it writes the one of its key. -/
theorem others_setElt (p : PropertyMulti) (key : String) (val : QVariant) (emitEvent : Bool) :
    (p.setElt key val emitEvent).st.others = p.others.modify key fun e => written e val := by
  cases he : p.elts.get? key with
  | none =>
    have hnone : p.others.get? key = none := by
      cases h : p.others.get? key with
      | none => rfl
      | some e => exact nomatch he.symm.trans ((get?_others p key e).mp h).1
    unfold setElt
    rw [OrdMap.modify_of_get?_eq_none _ _ _ hnone, he]
    rfl
  | some e =>
    have hget : ∀ e', p.others.get? key = some e' → e' = e := fun e' he' =>
      Option.some.inj (((get?_others p key e').mp he').1.symm.trans he)
    have hself : written e val = e →
        p.others = p.others.modify key fun e => written e val := fun hw =>
      (OrdMap.modify_eq_self _ _ _ fun e' he' => by rw [hget e' he', hw]).symm
    have hupd : ∀ v, written e val = (ElementUpdate.visit e v false).elt →
        (p.acceptUpdate key v emitEvent).st.others =
          p.others.modify key fun e => written e val := by
      intro v hw
      rw [others_acceptUpdate]
      exact OrdMap.modify_congr _ _ _ _ fun e' he' => by rw [hget e' he', hw]
    unfold setElt
    rw [he]
    dsimp only
    cases ht : e.type with
    | int | string | float =>
      dsimp only
      split
      · next hconv =>
        rw [Emits.returning_st]
        exact hupd val (by unfold written; rw [ht]; exact if_pos hconv)
      · next hconv => exact hself (by unfold written; rw [ht]; exact if_neg hconv)
    | time | date | datetime =>
      rw [Emits.returning_st]
      exact hupd _ (by unfold written; rw [ht])
    | light =>
      rw [Emits.returning_st]
      exact hupd _ (by unfold written; rw [ht])
    | prg | img | video => exact hself (by unfold written; rw [ht])
    | bool =>
      rw [← hself (by unfold written; rw [ht])]
      have hswitch : (p.elts.get? key).map Element.type = some .bool := by
        rw [he, Option.map_some, ht]
      have hboth : ((p.unsetOthers key emitEvent).andThen
          fun p => p.acceptUpdate key val emitEvent).st.others = p.others := by
        have htype := (p.unsetOthers_writesValues key emitEvent).st.type_get? key
        rw [Emits.andThen_st, others_acceptUpdate_bool _ key val emitEvent (htype.trans hswitch),
          others_unsetOthers]
      dsimp only
      split
      · cases p.rule with
        | Any => exact others_acceptUpdate_bool p key val emitEvent hswitch
        | AtMostOne => exact hboth
        | OneOfMany =>
          dsimp only
          split
          · exact hboth
          · rfl
      · rfl

/-! ## The switches -/

/-- The map puts the switch on. -/
def isOn (values : QVariantMap) (k : String) : Bool :=
  match values.get? k with
  | some (.bool b) => b
  | _ => false

/-- The switch rule allows a map: with AtMostOne what is on has to be the last of the switches,
with OneOfMany one is on, unless the switches are all off and stay so. -/
def SwitchesFit (p : PropertyMulti) (m : String → Bool) : Prop :=
  match p.rule with
  | .Any => True
  | .AtMostOne => ∀ k ∈ p.switches.keys, m k = true →
      (p.elts.keys.filter (· ∈ p.switches.keys)).getLast? = some k
  | .OneOfMany =>
    (∀ k ∈ p.switches.keys, ∀ k' ∈ p.switches.keys, m k = true → m k' = true → k = k') ∧
      ((∃ k ∈ p.switches.keys, m k = true) ∨ ∀ k ∈ p.switches.keys, p.switches.get? k = some false)

/-- The rule allows a map whose switches are written in some order. -/
def SwitchesFitIn (p : PropertyMulti) (order : List String) (m : String → Bool) : Prop :=
  match p.rule with
  | .Any => True
  | .AtMostOne => ∀ k ∈ p.switches.keys, m k = true →
      (order.filter (· ∈ p.switches.keys)).getLast? = some k
  | .OneOfMany =>
    (∀ k ∈ p.switches.keys, ∀ k' ∈ p.switches.keys, m k = true → m k' = true → k = k') ∧
      ((∃ k ∈ p.switches.keys, m k = true) ∨ ∀ k ∈ p.switches.keys, p.switches.get? k = some false)

/-- **The switches follow a map exactly if their rule allows it.** -/
theorem follows_setEltsIn_iff (p : PropertyMulti) (order : List String)
    (horder : order.Perm p.elts.keys) (values : QVariantMap) (emitEvent : Bool)
    (m : String → Bool) (hm : ∀ k ∈ p.switches.keys, values.get? k = some (.bool (m k))) :
    Follows (p.setEltsIn order values emitEvent).st.switches m ↔ p.SwitchesFitIn order m := by
  have hmem := mem_filter_switches_iff horder
  have hnodup : order.Nodup := horder.nodup_iff.mpr p.elts.keys_nodup
  unfold SwitchesFitIn
  cases hrule : p.rule with
  | Any =>
    refine iff_of_true ?_ trivial
    have hsw := p.switches_setEltsIn_any order values emitEvent m hrule hm
    rw [hsw]
    have hfst : ((order.filter (· ∈ p.switches.keys)).map fun k => (k, m k)).map Prod.fst =
        order.filter (· ∈ p.switches.keys) := by
      rw [List.map_map]
      exact List.map_id _
    intro k hk
    by_cases hin : k ∈ p.switches.keys
    · obtain ⟨b, hb⟩ := (OrdMap.mem_keys_iff _ _).mp hin
      rw [Switches.get?_assign_of_mem _ _ (by rw [hfst]; exact hnodup.filter _) k (m k)
        (List.mem_map.mpr ⟨k, (hmem k).mpr hin, rfl⟩), hb]
      rfl
    · obtain ⟨b, hb⟩ := (OrdMap.mem_keys_iff _ _).mp hk
      rw [Switches.get?_assign_of_not_mem _ _ k
        (by rw [hfst]; exact fun h => hin ((hmem k).mp h))] at hb
      exact absurd ((OrdMap.mem_keys_iff _ _).mpr ⟨b, hb⟩) hin
  | AtMostOne =>
    have hsw := p.switches_setEltsIn order values emitEvent m (by rw [hrule]; nofun) hm
    rw [hrule, Switches.foldl_write_atMostOne] at hsw
    rw [hsw]
    dsimp only
    cases hlast : (order.filter (· ∈ p.switches.keys)).getLast? with
    | none =>
      have hempty := not_mem_switches_of_getLast? horder hlast
      exact ⟨fun _ k hk => absurd hk (hempty k), fun _ k hk => absurd hk (hempty k)⟩
    | some key =>
      refine (follows_only_iff p.switches m key).trans ⟨fun h k hk hon => ?_, fun h k hk hon => ?_⟩
      · rw [h k hk hon]
      · exact (Option.some.inj (h k hk hon)).symm
  | OneOfMany =>
    have hsw := p.switches_setEltsIn order values emitEvent m (by rw [hrule]; nofun) hm
    rw [hrule, Switches.foldl_write_lastOn] at hsw
    rw [hsw]
    dsimp only
    cases hlast : ((order.filter (· ∈ p.switches.keys)).filter m).getLast? with
    | none =>
      have hnil := List.getLast?_eq_none_iff.mp hlast
      have hoff : ∀ k ∈ p.switches.keys, m k = false := fun k hk => by
        refine eq_false_of_ne_true fun hon => ?_
        have h := List.mem_filter.mpr ⟨(hmem k).mpr hk, hon⟩
        rw [hnil] at h
        cases h
      constructor
      · intro h
        refine ⟨fun k hk _ _ hon _ => ?_, .inr fun k hk => (h k hk).trans (by rw [hoff k hk])⟩
        rw [hoff k hk] at hon
        cases hon
      · rintro ⟨-, ⟨k, hk, hon⟩ | h⟩ k' hk'
        · rw [hoff k hk] at hon
          cases hon
        · rw [h k' hk', hoff k' hk']
    | some one =>
      obtain ⟨hone, hon⟩ := List.mem_filter.mp (List.mem_of_getLast? hlast)
      refine (follows_only_iff p.switches m one).trans ⟨fun h => ⟨fun k hk k' hk' hk1 hk2 => ?_,
        .inl ⟨one, (hmem one).mp hone, hon⟩⟩, fun h k hk hk1 => ?_⟩
      · rw [h k hk hk1, h k' hk' hk2]
      · exact h.1 k hk one ((hmem one).mp hone) hk1 hon

theorem follows_setElts_iff (p : PropertyMulti) (values : QVariantMap) (emitEvent : Bool)
    (m : String → Bool) (hm : ∀ k ∈ p.switches.keys, values.get? k = some (.bool (m k))) :
    Follows (p.setElts values emitEvent).st.switches m ↔ p.SwitchesFit m :=
  p.follows_setEltsIn_iff p.elts.keys (.refl _) values emitEvent m hm

/-- The elements that are no switches, written in some order. -/
theorem get?_others_setEltsIn (p : PropertyMulti) (order : List String)
    (horder : order.Perm p.elts.keys) (values : QVariantMap) (emitEvent : Bool) (k : String) :
    (p.setEltsIn order values emitEvent).st.others.get? k =
      (p.others.get? k).map fun e => written e (valueFor values k) := by
  obtain ⟨hin, hout⟩ := Emits.get?_each others id (fun elt e => written e (valueFor values elt))
    (fun p elt => (p.setElt elt (valueFor values elt) emitEvent).returning ())
    (fun q elt => others_setElt q elt _ emitEvent) order
    (by rw [List.map_id]; exact horder.nodup_iff.mpr p.elts.keys_nodup) p
  by_cases hk : k ∈ order
  · exact hin k hk
  · have hsame : (p.setEltsIn order values emitEvent).st.others.get? k = p.others.get? k :=
      hout k (by rw [List.map_id]; exact hk)
    rw [hsame]
    cases h : p.others.get? k with
    | none => rfl
    | some e =>
      exact absurd (horder.mem_iff.mpr
        ((OrdMap.mem_keys_iff _ _).mpr ⟨e, ((get?_others p k e).mp h).1⟩)) hk

theorem get?_others_setElts (p : PropertyMulti) (values : QVariantMap) (emitEvent : Bool)
    (k : String) : (p.setElts values emitEvent).st.others.get? k =
      (p.others.get? k).map fun e => written e (valueFor values k) :=
  p.get?_others_setEltsIn p.elts.keys (.refl _) values emitEvent k

/-! ## A whole map -/

/-- Every element has the value that the map gives it, and the others what they had. -/
structure Applied (p q : PropertyMulti) (values : QVariantMap) : Prop where
  given : ∀ k v, values.get? k = some v → ∃ e, q.elts.get? k = some e ∧ Denotes v e.value
  unmentioned : ∀ k, values.get? k = none → q.elts.get? k = p.elts.get? k

/-- Every element can take what the map gives it. -/
structure TakesAll (p : PropertyMulti) (values : QVariantMap) : Prop where
  known : ∀ k v, values.get? k = some v → ∃ e, p.elts.get? k = some e
  takes : ∀ k v e, values.get? k = some v → p.elts.get? k = some e → e.Takes v
  unmentioned : ∀ k e, values.get? k = none → p.elts.get? k = some e → e.Unmentioned
  switches : p.SwitchesFit (isOn values)

omit [QtText] in
/-- In a complete map an element without a value is of a type that needs none. -/
theorem complete_get? (p : PropertyMulti) (required : EltType → Bool) (values : QVariantMap)
    (hc : p.complete required values = true) (k : String) (e : Element)
    (he : p.elts.get? k = some e) (hk : values.get? k = none) : required e.type = false := by
  unfold complete at hc
  have h := List.all_eq_true.mp hc (k, e) ((OrdMap.get?_eq_some_iff _ _ _).mp he)
  unfold OrdMap.contains at h
  rw [hk] at h
  cases hr : required e.type with
  | false => rfl
  | true =>
    rw [hr] at h
    cases h

omit [QtText] in
theorem denotes_switch_iff (e : Element) (h : e.type = .bool) (v : QVariant) :
    Denotes v e.value ↔ ∃ b, v = .bool b ∧ e.switch? = some b := by
  obtain ⟨b, hc, hs⟩ := e.switch?_of_bool h
  have hvalue : e.value = .bool b := by
    unfold Element.value
    rw [hc]
    rfl
  rw [hvalue, hs]
  constructor
  · intro hd
    exact ⟨b, hd, rfl⟩
  · rintro ⟨b', rfl, hb⟩
    rw [Option.some.inj hb]
    rfl

omit [QtText] in
theorem takes_switch_iff (e : Element) (h : e.type = .bool) (v : QVariant) :
    e.Takes v ↔ ∃ b, v = .bool b := by
  obtain ⟨b, hc, -⟩ := e.switch?_of_bool h
  unfold Element.Takes
  rw [hc]

omit [QtText] in
theorem isOn_of_get? (values : QVariantMap) (k : String) (b : Bool)
    (h : values.get? k = some (.bool b)) : isOn values k = b := by
  unfold isOn
  rw [h]

/-- **A complete map is applied exactly if every element can take what it gives.** -/
theorem setElts_applied_iff (p : PropertyMulti) (required : EltType → Bool)
    (hreq : ∀ t, required t = false → t.isScalar = false ∨ t = .datetime) (values : QVariantMap)
    (emitEvent : Bool) (hc : p.complete required values = true) :
    Applied p (p.setElts values emitEvent).st values ↔ p.TakesAll values := by
  have hov := (p.setElts_writesValues values emitEvent).st
  have hmissing : ∀ k e, p.elts.get? k = some e → values.get? k = none →
      e.type.isScalar = false ∨ e.type = .datetime := fun k e he hk =>
    hreq _ (p.complete_get? required values hc k e he hk)
  -- an element that is no switch
  have hother : ∀ k e, p.elts.get? k = some e → e.type ≠ .bool →
      (p.setElts values emitEvent).st.elts.get? k = some (written e (valueFor values k)) := by
    intro k e he hne
    have h := p.get?_others_setElts values emitEvent k
    rw [(get?_others p k e).mpr ⟨he, hne⟩, Option.map_some] at h
    exact ((get?_others _ k _).mp h).1
  -- a switch
  have hswitch : ∀ k e, p.elts.get? k = some e → e.type = .bool →
      ∃ e', (p.setElts values emitEvent).st.elts.get? k = some e' ∧ e'.type = .bool ∧
        (p.setElts values emitEvent).st.switches.get? k = e'.switch? ∧
        ∃ v, values.get? k = some v := by
    intro k e he ht
    have htype := hov.type_get? k
    rw [he, Option.map_some, ht] at htype
    obtain ⟨e', he', ht'⟩ := Option.map_eq_some_iff.mp htype
    refine ⟨e', he', ht', by rw [get?_switches, he', Option.bind_some], ?_⟩
    cases hv : values.get? k with
    | some v => exact ⟨v, rfl⟩
    | none =>
      rcases hmissing k e he hv with h | h
      · rw [ht] at h
        cases h
      · rw [ht] at h
        cases h
  have hvalueFor : ∀ k v, values.get? k = some v → valueFor values k = v := by
    intro k v hv
    unfold valueFor
    rw [hv]
    rfl
  have hnullFor : ∀ k, values.get? k = none → valueFor values k = .null := by
    intro k hv
    unfold valueFor
    rw [hv]
    rfl
  constructor
  · intro h
    -- what a switch is given is a bool, and it has it
    have hbool : ∀ k e, p.elts.get? k = some e → e.type = .bool →
        (p.setElts values emitEvent).st.switches.get? k = some (isOn values k) ∧
          values.get? k = some (.bool (isOn values k)) := by
      intro k e he ht
      obtain ⟨e', he', ht', hsw, v, hv⟩ := hswitch k e he ht
      obtain ⟨e'', he'', hd⟩ := h.given k v hv
      obtain rfl : e' = e'' := Option.some.inj (he'.symm.trans he'')
      obtain ⟨b, rfl, hs⟩ := (denotes_switch_iff e' ht' v).mp hd
      rw [isOn_of_get? values k b hv]
      exact ⟨hsw.trans hs, hv⟩
    constructor
    · intro k v hv
      obtain ⟨e', he', -⟩ := h.given k v hv
      have htype := hov.type_get? k
      rw [he', Option.map_some] at htype
      obtain ⟨e, he, -⟩ := Option.map_eq_some_iff.mp htype.symm
      exact ⟨e, he⟩
    · intro k v e hv he
      by_cases ht : e.type = .bool
      · refine (takes_switch_iff e ht v).mpr ⟨isOn values k, ?_⟩
        exact Option.some.inj (hv.symm.trans (hbool k e he ht).2)
      · obtain ⟨e', he', hd⟩ := h.given k v hv
        rw [hother k e he ht] at he'
        obtain rfl := Option.some.inj he'
        rw [hvalueFor k v hv] at hd
        exact (denotes_written_iff e v ht).mp hd
    · intro k e hv he
      have hsame := (h.unmentioned k hv).trans he
      have ht : e.type ≠ .bool := by
        intro ht
        obtain ⟨-, -, -, -, v, hv'⟩ := hswitch k e he ht
        exact nomatch hv.symm.trans hv'
      rw [hother k e he ht, hnullFor k hv] at hsame
      exact (written_null_eq_iff e (hmissing k e he hv)).mp (Option.some.inj hsame)
    · refine (p.follows_setElts_iff values emitEvent (isOn values) fun k hk => ?_).mp fun k hk => ?_
      · obtain ⟨e, he, ht⟩ := (mem_keys_switches_iff p k).mp hk
        exact (hbool k e he ht).2
      · obtain ⟨e', he', ht'⟩ := (mem_keys_switches_iff _ k).mp hk
        have htype := hov.type_get? k
        rw [he', Option.map_some, ht'] at htype
        obtain ⟨e, he, ht⟩ := Option.map_eq_some_iff.mp htype.symm
        exact (hbool k e he ht).1
  · intro h
    have hm : ∀ k ∈ p.switches.keys, values.get? k = some (.bool (isOn values k)) := by
      intro k hk
      obtain ⟨e, he, ht⟩ := (mem_keys_switches_iff p k).mp hk
      obtain ⟨-, -, -, -, v, hv⟩ := hswitch k e he ht
      obtain ⟨b, rfl⟩ := (takes_switch_iff e ht v).mp (h.takes k v e hv he)
      rw [isOn_of_get? values k b hv]
      exact hv
    have hfollows := (p.follows_setElts_iff values emitEvent (isOn values) hm).mpr h.switches
    constructor
    · intro k v hv
      obtain ⟨e, he⟩ := h.known k v hv
      by_cases ht : e.type = .bool
      · obtain ⟨e', he', ht', hsw, -⟩ := hswitch k e he ht
        have hval := hm k ((mem_keys_switches_iff p k).mpr ⟨e, he, ht⟩)
        have hon := hfollows k ((mem_keys_switches_iff _ k).mpr ⟨e', he', ht'⟩)
        refine ⟨e', he', (denotes_switch_iff e' ht' v).mpr ⟨isOn values k, ?_, hsw.symm.trans hon⟩⟩
        exact Option.some.inj (hv.symm.trans hval)
      · refine ⟨_, hother k e he ht, ?_⟩
        rw [hvalueFor k v hv]
        exact (denotes_written_iff e v ht).mpr (h.takes k v e hv he)
    · intro k hv
      cases he : p.elts.get? k with
      | none =>
        have htype := hov.type_get? k
        rw [he] at htype
        exact Option.map_eq_none_iff.mp htype
      | some e =>
        have ht : e.type ≠ .bool := by
          intro ht
          obtain ⟨-, -, -, -, v, hv'⟩ := hswitch k e he ht
          exact nomatch hv.symm.trans hv'
        rw [hother k e he ht, hnullFor k hv,
          (written_null_eq_iff e (hmissing k e he hv)).mpr (h.unmentioned k e hv he)]

/-! ## The operations -/

/-- The first element that misses its value. -/
def missing (p : PropertyMulti) (required : EltType → Bool) (values : QVariantMap) :
    Option String :=
  (p.elts.entries.find? fun e => required e.2.type && !values.contains e.1).map Prod.fst

/-- What `setAll` logs when it refuses the map. -/
def setAllRefusal (p : PropertyMulti) (values : QVariantMap) : Option (String × List String) :=
  (p.missing EltType.isScalar values).map fun elt =>
    ("PropertyMulti::setAll incomplete values, %1 missing ", [elt])

/-- What `newLine` logs when it refuses the map. -/
def newLineRefusal (p : PropertyMulti) (values : QVariantMap) : Option (String × List String) :=
  if !p.hasGrid then some ("PropertyMulti::newLine - no array/grid defined", [])
  else (p.missing EltType.isScalar values).map fun elt =>
    ("PropertyMulti::newLine incomplete values, %1 missing ", [elt])

/-- The line has the values of the map. -/
def RowIs (row : GridLine) (values : QVariantMap) : Prop :=
  ∀ k v, values.get? k = some v → ∃ x, row.get? k = some x ∧ Denotes v x

/-- The line is new at the end of the grid; a full grid has lost its first one. -/
def Appended (p q : PropertyMulti) (row : GridLine) : Prop :=
  q.grid = p.grid ++ [row] ∨ p.grid ≠ [] ∧ q.grid = p.grid.tail ++ [row]

/-- All or nothing: the map is applied, the grid is as it should be and success is reported, or
nothing has happened and failure is. -/
def AllOrNothing {ρ : Type} (p : PropertyMulti) (values : QVariantMap) (x : PrpEmits ρ)
    (edited failed : Prop) : Prop :=
  Applied p x.st values ∧ edited ∧ ¬failed ∨ x.st = p ∧ x.evs = [] ∧ failed

omit [QtText] in
theorem missing_eq_none_iff (p : PropertyMulti) (required : EltType → Bool)
    (values : QVariantMap) : p.missing required values = none ↔ p.complete required values = true := by
  unfold missing complete
  rw [Option.map_eq_none_iff, List.find?_eq_none, List.all_eq_true]
  refine forall₂_congr fun e _ => ?_
  cases required e.2.type <;> cases values.contains e.1 <;> decide

omit [QtText] in
theorem rowIs_currentLine (p q : PropertyMulti) (values : QVariantMap) (h : Applied p q values) :
    RowIs q.currentLine values := by
  intro k v hv
  obtain ⟨e, he, hd⟩ := h.given k v hv
  refine ⟨e.value, ?_, hd⟩
  unfold currentLine
  rw [OrdMap.get?_map, he, Option.map_some]

omit [QtText] in
theorem Applied.of_elts {p q q' : PropertyMulti} {values : QVariantMap} (h : Applied p q values)
    (hq : q'.elts = q.elts) : Applied p q' values :=
  ⟨fun k v hv => by rw [hq]; exact h.given k v hv, fun k hv => by rw [hq]; exact h.unmentioned k hv⟩

omit [QtText] in
theorem allOrNothing_refused {ρ : Type} (p : PropertyMulti) (values : QVariantMap) (r : ρ)
    (edited failed : Prop) (hf : failed) :
    AllOrNothing p values (.quiet p r : PrpEmits ρ) edited failed :=
  .inr ⟨rfl, rfl, hf⟩

omit [QtText] in
/-- Once the map is written, it has to be applied. -/
theorem allOrNothing_written_iff {ρ : Type} (p q : PropertyMulti) (values : QVariantMap)
    (x : PrpEmits ρ) (edited failed : Prop) (hx : x.st.elts = q.elts)
    (he : Applied p q values → edited) (hf : ¬failed) :
    AllOrNothing p values x edited failed ↔ Applied p q values := by
  constructor
  · rintro (h | h)
    · exact h.1.of_elts hx.symm
    · exact absurd h.2.2 hf
  · intro h
    exact .inl ⟨h.of_elts hx, he h, hf⟩

omit [QtText] in
/-- `push` appends the current line, and drops the first one if there are too many. -/
theorem push_appended (p : PropertyMulti) (silent : Bool) (hg : p.hasGrid = true) :
    (p.push silent).st.elts = p.elts ∧ Appended p (p.push silent).st p.currentLine := by
  unfold push
  rw [if_neg (by simp [hg]), Emits.andThen_st, emitUnless_st]
  dsimp only
  split
  · next hfull =>
    rw [emitUnless_st]
    cases hgrid : p.grid with
    | nil =>
      rw [hgrid] at hfull
      simp only [List.nil_append, List.length_singleton] at hfull
      omega
    | cons row rows =>
      refine ⟨rfl, .inr ⟨by rw [hgrid]; nofun, ?_⟩⟩
      rw [hgrid]
      rfl
  · exact ⟨rfl, .inl rfl⟩

theorem setAll_allOrNothing (p : PropertyMulti) (values : QVariantMap) :
    AllOrNothing p values (p.setAll values) ((p.setAll values).st.grid = p.grid)
        (p.setAllRefusal values ≠ none) ↔
      p.complete EltType.isScalar values = false ∨ p.TakesAll values := by
  have hrefusal : p.setAllRefusal values = none ↔ p.complete EltType.isScalar values = true := by
    unfold setAllRefusal
    rw [Option.map_eq_none_iff, missing_eq_none_iff]
  cases hc : p.complete EltType.isScalar values with
  | false =>
    refine iff_of_true ?_ (.inl rfl)
    unfold setAll
    rw [if_neg (by rw [hc]; nofun)]
    exact allOrNothing_refused p values () _ _ (by rw [Ne, hrefusal, hc]; nofun)
  | true =>
    have hst : (p.setAll values).st = (p.setElts values false).st := by
      unfold setAll
      rw [if_pos hc]
      rfl
    rw [allOrNothing_written_iff p _ values _ _ _ (congrArg elts hst) (fun _ => ?_)
      (not_not.mpr (hrefusal.mpr hc)), p.setElts_applied_iff _ (fun t ht => .inl ht) values false hc]
    · exact ⟨.inr, fun h => h.resolve_left nofun⟩
    · rw [hst]
      exact (p.setElts_writesValues values false).st.grid

theorem newLine_allOrNothing (p : PropertyMulti) (values : QVariantMap) (silent : Bool) :
    AllOrNothing p values (p.newLine values silent)
        (∃ row, Appended p (p.newLine values silent).st row ∧ RowIs row values)
        (p.newLineRefusal values ≠ none) ↔
      p.hasGrid = false ∨ p.complete EltType.isScalar values = false ∨ p.TakesAll values := by
  have hrefusal : p.hasGrid = true →
      (p.newLineRefusal values = none ↔ p.complete EltType.isScalar values = true) := by
    intro hg
    unfold newLineRefusal
    rw [if_neg (by simp [hg]), Option.map_eq_none_iff, missing_eq_none_iff]
  cases hg : p.hasGrid with
  | false =>
    refine iff_of_true ?_ (.inl rfl)
    unfold newLine newLineRefusal
    rw [if_pos (by simp [hg]), if_pos (by simp [hg])]
    exact allOrNothing_refused p values () _ _ nofun
  | true =>
    cases hc : p.complete EltType.isScalar values with
    | false =>
      refine iff_of_true ?_ (.inr (.inl rfl))
      unfold newLine
      rw [if_neg (by simp [hg]), if_neg (by rw [hc]; nofun)]
      exact allOrNothing_refused p values () _ _ (by rw [Ne, hrefusal hg, hc]; nofun)
    | true =>
      have hov := (p.setElts_writesValues values !silent).st
      have hst : (p.newLine values silent).st = ((p.setElts values !silent).st.push silent).st := by
        unfold newLine
        rw [if_neg (by simp [hg]), if_pos hc]
        rfl
      obtain ⟨helts, happ⟩ := push_appended (p.setElts values !silent).st silent
        (hov.hasGrid.trans hg)
      unfold Appended at happ
      rw [hov.grid] at happ
      rw [allOrNothing_written_iff p _ values _ _ _ ((congrArg elts hst).trans helts) (fun h => ?_)
        (not_not.mpr ((hrefusal hg).mpr hc)),
        p.setElts_applied_iff _ (fun t ht => .inl ht) values _ hc]
      · exact ⟨fun h => .inr (.inr h), fun h => (h.resolve_left nofun).resolve_left nofun⟩
      · refine ⟨_, ?_, rowIs_currentLine p _ values h⟩
        unfold Appended
        rw [hst]
        exact happ

theorem updateLine_allOrNothing (p : PropertyMulti) (i : ℤ) (values : QVariantMap)
    (hrows : p.RowsFit) :
    (∃ x, p.updateLine i values = some x ∧ AllOrNothing p values x
        (∃ row, x.st.grid = p.grid.set i.toNat row ∧ RowIs row values) (x.ret = false)) ↔
      p.hasGrid = false ∨ (p.grid.length : ℤ) ≤ i ∨
        p.complete requiredByUpdateLine values = false ∨ 0 ≤ i ∧ p.TakesAll values := by
  have hrefused : ∀ x : PrpEmits Bool, x = .quiet p false → p.updateLine i values = some x →
      ∃ x, p.updateLine i values = some x ∧ AllOrNothing p values x
        (∃ row, x.st.grid = p.grid.set i.toNat row ∧ RowIs row values) (x.ret = false) := by
    rintro x rfl hx
    exact ⟨_, hx, allOrNothing_refused p values false _ _ rfl⟩
  cases hg : p.hasGrid with
  | false =>
    refine iff_of_true (hrefused _ rfl ?_) (.inl rfl)
    unfold updateLine
    rw [if_pos (by simp [hg])]
  | true =>
    by_cases hi : (p.grid.length : ℤ) ≤ i
    · refine iff_of_true (hrefused _ rfl ?_) (.inr (.inl hi))
      unfold updateLine
      rw [if_neg (by simp [hg]), if_pos hi]
    cases hc : p.complete requiredByUpdateLine values with
    | false =>
      refine iff_of_true (hrefused _ rfl ?_) (.inr (.inr (.inl rfl)))
      unfold updateLine
      rw [if_neg (by simp [hg]), if_neg hi, if_pos (by simp [hc])]
    | true =>
      have hcond : (true = false ∨ (p.grid.length : ℤ) ≤ i ∨ true = false ∨
          0 ≤ i ∧ p.TakesAll values) ↔ 0 ≤ i ∧ p.TakesAll values :=
        ⟨fun h => ((h.resolve_left nofun).resolve_left hi).resolve_left nofun,
          fun h => .inr (.inr (.inr h))⟩
      rw [hcond]
      by_cases hneg : i < 0
      · -- the line is looked up with a negative number
        have hnone : p.updateLine i values = none := by
          unfold updateLine
          rw [if_neg (by simp [hg]), if_neg hi, if_neg (by simp [hc]), if_pos hneg]
        rw [hnone]
        exact ⟨fun ⟨x, hx, _⟩ => (nomatch hx), fun h => absurd h.1 (by omega)⟩
      · have hov := (p.setElts_writesValues values false).st
        obtain ⟨x, hx, helts, hgrid, hret⟩ : ∃ x, p.updateLine i values = some x ∧
            x.st.elts = (p.setElts values false).st.elts ∧
            x.st.grid = p.grid.modify i.toNat (p.setElts values false).st.refreshLine ∧
            x.ret = true := by
          unfold updateLine
          rw [if_neg (by simp [hg]), if_neg hi, if_neg (by simp [hc]), if_neg hneg]
          exact ⟨_, rfl, rfl, congrArg (fun g => List.modify g i.toNat _) hov.grid, rfl⟩
        have hlt : i.toNat < p.grid.length := by omega
        have hset : x.st.grid = p.grid.set i.toNat (p.setElts values false).st.currentLine := by
          have hfits : Fits (p.setElts values false).st.types p.grid[i.toNat] := by
            rw [hov.types]
            exact hrows _ (List.getElem_mem hlt)
          rw [hgrid, List.modify_eq_set, List.getElem?_eq_getElem hlt, Option.getD_some,
            refreshLine_eq_currentLine _ _ hfits]
        have hone := allOrNothing_written_iff p (p.setElts values false).st values x
          (∃ row, x.st.grid = p.grid.set i.toNat row ∧ RowIs row values) (x.ret = false) helts
          (fun h => ⟨_, hset, rowIs_currentLine p _ values h⟩) (by rw [hret]; nofun)
        rw [p.setElts_applied_iff _ (fun t ht => ?_) values false hc] at hone
        · constructor
          · rintro ⟨y, hy, h⟩
            obtain rfl : x = y := Option.some.inj (hx.symm.trans hy)
            exact ⟨by omega, hone.mp h⟩
          · rintro ⟨-, h⟩
            exact ⟨x, hx, hone.mpr h⟩
        · unfold requiredByUpdateLine at ht
          cases hs : t.isScalar with
          | false => exact .inl rfl
          | true =>
            rw [hs] at ht
            exact .inr (by simpa using ht)

/-- **All or nothing.**  Each of the three applies a map and reports success, or does nothing and
reports failure, exactly if it refuses the map or every element takes what the map gives it. -/
theorem allOrNothing_iff (p : PropertyMulti) (values : QVariantMap) (silent : Bool) (i : ℤ)
    (hrows : p.RowsFit) :
    (AllOrNothing p values (p.setAll values) ((p.setAll values).st.grid = p.grid)
        (p.setAllRefusal values ≠ none) ↔
      p.complete EltType.isScalar values = false ∨ p.TakesAll values) ∧
    (AllOrNothing p values (p.newLine values silent)
        (∃ row, Appended p (p.newLine values silent).st row ∧ RowIs row values)
        (p.newLineRefusal values ≠ none) ↔
      p.hasGrid = false ∨ p.complete EltType.isScalar values = false ∨ p.TakesAll values) ∧
    ((∃ x, p.updateLine i values = some x ∧ AllOrNothing p values x
        (∃ row, x.st.grid = p.grid.set i.toNat row ∧ RowIs row values) (x.ret = false)) ↔
      p.hasGrid = false ∨ (p.grid.length : ℤ) ≤ i ∨
        p.complete requiredByUpdateLine values = false ∨ 0 ≤ i ∧ p.TakesAll values) :=
  ⟨p.setAll_allOrNothing values, p.newLine_allOrNothing values silent,
    p.updateLine_allOrNothing i values hrows⟩

end

/-! ## Samples -/

def gain : Element := { content := .int 3 { min := 0, max := 10, step := 1, useMinMax := true } }

def offset : Element := { content := .int 1 { min := 0, max := 0, step := 1 } }

/-- A number between 0 and 10 and a free one, with a line of the grid. -/
def twoNumbers : PropertyMulti where
  key := "limits"
  hasGrid := true
  elts := OrdMap.ofEntries [("gain", gain), ("offset", offset)]
  grid := [OrdMap.ofEntries [("gain", .int 3), ("offset", .int 1)]]

def twoValues (gain offset : ℚ) : QVariantMap :=
  OrdMap.ofEntries [("gain", .num gain), ("offset", .num offset)]

theorem twoNumbers_rowsFit : twoNumbers.RowsFit := by
  intro line hl
  rw [List.mem_singleton.mp hl]
  show (OrdMap.map _ _ : OrdMap String EltType) = twoNumbers.types
  decide +kernel

theorem get?_twoNumbers (k : String) (e : Element) (h : twoNumbers.elts.get? k = some e) :
    k = "gain" ∧ e = gain ∨ k = "offset" ∧ e = offset := by
  have hentries : twoNumbers.elts.entries = [("gain", gain), ("offset", offset)] := by
    decide +kernel
  have hmem := (OrdMap.get?_eq_some_iff _ _ _).mp h
  rw [hentries] at hmem
  simpa using hmem

theorem get?_twoValues (k : String) (v : QVariant) (h : (twoValues 5 7).get? k = some v) :
    k = "gain" ∧ v = .num 5 ∨ k = "offset" ∧ v = .num 7 := by
  have hentries : (twoValues 5 7).entries = [("gain", .num 5), ("offset", .num 7)] := rfl
  have hmem := (OrdMap.get?_eq_some_iff _ _ _).mp h
  rw [hentries] at hmem
  simpa using hmem

theorem allOrNothing_twoNumbers :
    @AllOrNothing Unit twoNumbers (twoValues 5 7) (@setAll .plain twoNumbers (twoValues 5 7))
      ((@setAll .plain twoNumbers (twoValues 5 7)).st.grid = twoNumbers.grid)
      (twoNumbers.setAllRefusal (twoValues 5 7) ≠ none) := by
  refine (@allOrNothing_iff .plain twoNumbers (twoValues 5 7) false 0 twoNumbers_rowsFit).1.mpr
    (.inr ⟨fun k v h => ?_, fun k v e hv he => ?_, fun k e hv he => ?_, trivial⟩)
  · rcases get?_twoValues k v h with ⟨rfl, -⟩ | ⟨rfl, -⟩
    · exact ⟨gain, by decide +kernel⟩
    · exact ⟨offset, by decide +kernel⟩
  · rcases get?_twoNumbers k e he with ⟨rfl, rfl⟩ | ⟨rfl, rfl⟩
    · rcases get?_twoValues _ v hv with ⟨-, rfl⟩ | ⟨hk, -⟩
      · exact ⟨5, rfl, .inl (by decide +kernel)⟩
      · exact absurd hk (by decide)
    · rcases get?_twoValues _ v hv with ⟨hk, -⟩ | ⟨-, rfl⟩
      · exact absurd hk (by decide)
      · exact ⟨7, rfl, .inl (by decide +kernel)⟩
  · rcases get?_twoNumbers k e he with ⟨rfl, -⟩ | ⟨rfl, -⟩
    · cases hv
    · cases hv

/-- The first value is out of range: the second one is written all the same, and nobody is told. -/
theorem setAll_half :
    ¬AllOrNothing twoNumbers (twoValues 50 7) (@setAll .plain twoNumbers (twoValues 50 7))
      ((@setAll .plain twoNumbers (twoValues 50 7)).st.grid = twoNumbers.grid)
      (twoNumbers.setAllRefusal (twoValues 50 7) ≠ none) ∧
    ((@setAll .plain twoNumbers (twoValues 50 7)).st.elts.get? "gain").map Element.value =
      some (.int 3) ∧
    ((@setAll .plain twoNumbers (twoValues 50 7)).st.elts.get? "offset").map Element.value =
      some (.int 7) := by
  have hgain : ((@setAll .plain twoNumbers (twoValues 50 7)).st.elts.get? "gain").map
      Element.value = some (.int 3) := by decide +kernel
  refine ⟨?_, hgain, by decide +kernel⟩
  rintro (⟨happ, -, -⟩ | ⟨-, hquiet, -⟩)
  · obtain ⟨e, he, hd⟩ := happ.given "gain" (.num 50) (by decide +kernel)
    rw [he] at hgain
    rw [Option.some.inj hgain] at hd
    exact absurd (show (Json.num 50 : QVariant) = .num 3 from hd) (by decide +kernel)
  · have hlen := congrArg List.length hquiet
    exact absurd hlen (by decide +kernel)

end PropertyMulti

end Ost
