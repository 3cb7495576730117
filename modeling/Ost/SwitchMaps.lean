import Ost.SwitchRule
import Mathlib.Data.List.Induction

/-!
# Maps of switches set at once

`setAll` writes the elements one after the other, each through `setElt`, which edits the
other switches of the property.  Under OneOfMany an element put to false is left alone.
Under AtMostOne it is written like any other, and the others are put to false with it, so
that only the last of the switches to be written can be on.

Algorithm: `setAll` with the order of the elements as a parameter (`setAllIn`); the code
takes that of its map, the order of the keys.

Main theorems:
    switches_setEltsIn:  the switches of a map are written in the order of the elements
    setAllIn_iff:  every switch gets its value exactly if the rule is OneOfMany or what is on
      in the map is written last
-/

namespace Ost

open Lib

namespace Switches

/-- A switch written under a rule, which is not Any. -/
def write (rule : SwitchsRule) (s : Switches) (key : String) (b : Bool) : Switches :=
  if rule = .OneOfMany ∧ b = false then s else s.only key b

@[simp] theorem keys_only (s : Switches) (key : String) (b : Bool) :
    (s.only key b).keys = s.keys := OrdMap.keys_map _ _

@[simp] theorem keys_write (rule : SwitchsRule) (s : Switches) (key : String) (b : Bool) :
    (s.write rule key b).keys = s.keys := by
  unfold write
  split
  · rfl
  · exact s.keys_only key b

theorem only_only (s : Switches) (k k' : String) (b b' : Bool) :
    (s.only k b).only k' b' = s.only k' b' := by
  unfold only
  rw [OrdMap.map_map]

theorem get?_only_of_mem (s : Switches) (key : String) (b : Bool) (k : String) (hk : k ∈ s.keys) :
    (s.only key b).get? k = some (if k = key then b else false) := by
  obtain ⟨c, hc⟩ := (OrdMap.mem_keys_iff s k).mp hk
  unfold only
  rw [OrdMap.get?_map, hc, Option.map_some]

/-- Under AtMostOne only the last one written can be on. -/
theorem foldl_write_atMostOne (m : String → Bool) (l : List String) (s : Switches) :
    l.foldl (fun s k => s.write .AtMostOne k (m k)) s =
      match l.getLast? with
      | none => s
      | some k => s.only k (m k) := by
  induction l using List.reverseRecOn with
  | nil => rfl
  | append_singleton l k ih =>
    rw [List.foldl_append, ih, List.getLast?_concat, List.foldl_cons, List.foldl_nil]
    show write .AtMostOne _ k (m k) = s.only k (m k)
    unfold write
    rw [if_neg fun h => nomatch h.1]
    cases l.getLast? with
    | none => rfl
    | some k' => exact s.only_only k' k _ _

/-- Under OneOfMany the last one that is put on stays the only one. -/
theorem foldl_write_lastOn (m : String → Bool) (l : List String) (s : Switches) :
    l.foldl (fun s k => s.write .OneOfMany k (m k)) s =
      match (l.filter m).getLast? with
      | none => s
      | some k => s.only k (m k) := by
  induction l using List.reverseRecOn with
  | nil => rfl
  | append_singleton l k ih =>
    rw [List.foldl_append, ih, List.foldl_cons, List.foldl_nil, List.filter_append]
    cases hk : m k with
    | false =>
      have hnil : [k].filter m = [] := List.filter_singleton .. |>.trans (by rw [hk]; rfl)
      rw [hnil, List.append_nil]
      show write .OneOfMany _ k false = _
      unfold write
      rw [if_pos ⟨rfl, rfl⟩]
    | true =>
      have hone : [k].filter m = [k] := List.filter_singleton .. |>.trans (by rw [hk]; rfl)
      have hwrite : ∀ s' : Switches, s'.write .OneOfMany k true = s'.only k true := fun s' =>
        if_neg fun h => nomatch h.2
      rw [hone, List.getLast?_concat, hwrite]
      dsimp only
      rw [hk]
      cases (l.filter m).getLast? with
      | none => rfl
      | some k' => exact s.only_only k' k _ _

/-- If one is put on, it is the one. -/
theorem foldl_write_oneOfMany (m : String → Bool) (one : String) (l : List String)
    (hm : ∀ k ∈ l, m k = true ↔ k = one) (s : Switches) :
    l.foldl (fun s k => s.write .OneOfMany k (m k)) s = if one ∈ l then s.only one true else s := by
  rw [foldl_write_lastOn]
  cases hlast : (l.filter m).getLast? with
  | none =>
    have hnil := List.getLast?_eq_none_iff.mp hlast
    rw [if_neg fun hone => ?_]
    have hmem : one ∈ l.filter m := List.mem_filter.mpr ⟨hone, (hm one hone).mpr rfl⟩
    rw [hnil] at hmem
    cases hmem
  | some k =>
    obtain ⟨hk, hon⟩ := List.mem_filter.mp (List.mem_of_getLast? hlast)
    obtain rfl := (hm k hk).mp hon
    rw [if_pos hk, ← hon]

end Switches

namespace PropertyMulti

section
variable [QtText]

/-! ## Algorithm -/

/-- `setElts` in some order. -/
def setEltsIn (p : PropertyMulti) (order : List String) (values : QVariantMap)
    (emitEvent : Bool) : PrpEmits Unit :=
  Emits.each (fun p elt => (p.setElt elt (valueFor values elt) emitEvent).returning ()) order p

/-- `setAll` in some order. -/
def setAllIn (p : PropertyMulti) (order : List String) (values : QVariantMap) : PrpEmits Unit :=
  if p.complete EltType.isScalar values then
    (p.setEltsIn order values false).andThen fun p => .emit p ⟨.ea, .null, none, p⟩ ()
  else .quiet p ()

/-- The order of the code. -/
theorem setAll_eq (p : PropertyMulti) (values : QVariantMap) :
    p.setAll values = p.setAllIn p.elts.keys values := rfl

/-! ## One switch -/

omit [QtText] in
theorem mem_keys_switches_iff (p : PropertyMulti) (key : String) :
    key ∈ p.switches.keys ↔ ∃ e, p.elts.get? key = some e ∧ e.type = .bool := by
  rw [OrdMap.mem_keys_iff]
  constructor
  · rintro ⟨b, hb⟩
    rw [get?_switches] at hb
    obtain ⟨e, he, hs⟩ := Option.bind_eq_some_iff.mp hb
    refine ⟨e, he, ?_⟩
    by_contra hne
    rw [e.switch?_eq_none hne] at hs
    cases hs
  · rintro ⟨e, he, ht⟩
    obtain ⟨b, -, hs⟩ := e.switch?_of_bool ht
    refine ⟨b, ?_⟩
    rw [get?_switches, he]
    exact hs

/-- An element that is no switch leaves them as they are. -/
theorem switches_setElt_of_not_mem (p : PropertyMulti) (key : String) (val : QVariant)
    (emitEvent : Bool) (hk : key ∉ p.switches.keys) :
    (p.setElt key val emitEvent).st.switches = p.switches := by
  have hnone : p.switches.get? key = none := by
    cases h : p.switches.get? key with
    | none => rfl
    | some b => exact absurd ((OrdMap.mem_keys_iff _ _).mpr ⟨b, h⟩) hk
  have hupd : ∀ v, (p.acceptUpdate key v emitEvent).st.switches = p.switches := by
    intro v
    rw [switches_acceptUpdate]
    exact OrdMap.modify_of_get?_eq_none _ _ _ hnone
  unfold setElt
  cases he : p.elts.get? key with
  | none => rfl
  | some e =>
    dsimp only
    cases ht : e.type with
    | bool => exact absurd ((mem_keys_switches_iff p key).mpr ⟨e, he, ht⟩) hk
    | int | string | float =>
      dsimp only
      split
      · exact hupd val
      · rfl
    | time | date | datetime | light => exact hupd _
    | prg | img | video => rfl

theorem switches_setElt_any (p : PropertyMulti) (key : String) (b emitEvent : Bool)
    (hr : p.rule = .Any) (hk : key ∈ p.switches.keys) :
    (p.setElt key (.bool b) emitEvent).st.switches = p.switches.modify key fun _ => b := by
  obtain ⟨e, he, ht⟩ := (mem_keys_switches_iff p key).mp hk
  have hconv : canConvert (.bool b : QVariant) = true := rfl
  unfold setElt
  rw [he]
  simp only [ht, hr]
  rw [if_pos hconv, Emits.returning_st]
  exact switches_acceptUpdate p key (.bool b) emitEvent

theorem switches_setElt_bool (p : PropertyMulti) (key : String) (b emitEvent : Bool)
    (hr : p.rule ≠ .Any) (hk : key ∈ p.switches.keys) :
    (p.setElt key (.bool b) emitEvent).st.switches =
      p.switches.write p.rule key b := by
  obtain ⟨e, he, ht⟩ := (mem_keys_switches_iff p key).mp hk
  unfold setElt
  rw [he]
  simp only [ht]
  have hconv : canConvert (.bool b : QVariant) = true := rfl
  rw [if_pos hconv]
  unfold Switches.write
  cases hrule : p.rule with
  | Any => exact absurd hrule hr
  | OneOfMany =>
    cases b with
    | false => rfl
    | true =>
      simp only
      rw [if_pos (show toBool (.bool true) = true from rfl), if_neg (by simp), Emits.returning_st]
      exact switches_unsetOthers_set p key _ emitEvent
  | AtMostOne =>
    simp only
    rw [if_neg (by simp), Emits.returning_st]
    exact switches_unsetOthers_set p key _ emitEvent

/-! ## All switches -/

/-- The switches of the order are written one after the other, whatever a write does. -/
theorem switches_setEltsIn_foldl (write : Switches → String → Bool → Switches)
    (hkeys : ∀ s k b, (write s k b).keys = s.keys) (p : PropertyMulti) (order : List String)
    (values : QVariantMap) (emitEvent : Bool) (m : String → Bool)
    (hwrite : ∀ (q : PropertyMulti) k b, q.rule = p.rule → k ∈ q.switches.keys →
      (q.setElt k (.bool b) emitEvent).st.switches = write q.switches k b)
    (hm : ∀ k ∈ p.switches.keys, values.get? k = some (.bool (m k))) :
    (p.setEltsIn order values emitEvent).st.switches =
      (order.filter (· ∈ p.switches.keys)).foldl (fun s k => write s k (m k)) p.switches := by
  induction order generalizing p with
  | nil => rfl
  | cons key order ih =>
    have hrule : (p.setElt key (valueFor values key) emitEvent).st.rule = p.rule := by
      rw [(p.setElt_writesValues key _ emitEvent).st.rest]
    have hstep : (p.setEltsIn (key :: order) values emitEvent).st =
        ((p.setElt key (valueFor values key) emitEvent).st.setEltsIn order values emitEvent).st :=
      rfl
    rw [hstep]
    by_cases hk : key ∈ p.switches.keys
    · have hval : valueFor values key = .bool (m key) := by
        unfold valueFor
        rw [hm key hk]
        rfl
      have hsw := hwrite p key (m key) rfl hk
      rw [← hval] at hsw
      have hsame : (p.setElt key (valueFor values key) emitEvent).st.switches.keys =
          p.switches.keys := by
        rw [hsw, hkeys]
      rw [ih _ (hrule ▸ hwrite) (hsame ▸ hm), hsame, hsw,
        List.filter_cons_of_pos (by simpa using hk), List.foldl_cons]
    · have hsw := p.switches_setElt_of_not_mem key (valueFor values key) emitEvent hk
      rw [ih _ (hrule ▸ hwrite) (hsw ▸ hm), hsw, List.filter_cons_of_neg (by simpa using hk)]

/-- Under a rule the others are written with each of them. -/
theorem switches_setEltsIn (p : PropertyMulti) (order : List String) (values : QVariantMap)
    (emitEvent : Bool) (m : String → Bool) (hr : p.rule ≠ .Any)
    (hm : ∀ k ∈ p.switches.keys, values.get? k = some (.bool (m k))) :
    (p.setEltsIn order values emitEvent).st.switches =
      (order.filter (· ∈ p.switches.keys)).foldl (fun s k => s.write p.rule k (m k))
        p.switches := by
  refine p.switches_setEltsIn_foldl (fun s => s.write p.rule) (Switches.keys_write p.rule) order
    values emitEvent m (fun q k b hrule hk => ?_) hm
  rw [← hrule]
  exact q.switches_setElt_bool k b emitEvent (hrule ▸ hr) hk

/-- Without a rule every switch takes its own value. -/
theorem switches_setEltsIn_any (p : PropertyMulti) (order : List String) (values : QVariantMap)
    (emitEvent : Bool) (m : String → Bool) (hr : p.rule = .Any)
    (hm : ∀ k ∈ p.switches.keys, values.get? k = some (.bool (m k))) :
    (p.setEltsIn order values emitEvent).st.switches =
      p.switches.assign ((order.filter (· ∈ p.switches.keys)).map fun k => (k, m k)) := by
  rw [p.switches_setEltsIn_foldl (fun s k b => s.modify k fun _ => b)
    (fun s k _ => OrdMap.keys_modify s k _) order values emitEvent m
    (fun q k b hrule hk => q.switches_setElt_any k b emitEvent (hrule.trans hr) hk) hm]
  unfold Switches.assign
  rw [List.foldl_map]

/-- Every switch has the value of the map. -/
def Follows (s : Switches) (m : String → Bool) : Prop := ∀ k ∈ s.keys, s.get? k = some (m k)

theorem setAllIn_switches (p : PropertyMulti) (order : List String) (values : QVariantMap)
    (hc : p.complete EltType.isScalar values = true) :
    (p.setAllIn order values).st.switches = (p.setEltsIn order values false).st.switches := by
  unfold setAllIn
  rw [if_pos hc]
  rfl

omit [QtText] in
/-- Every switch has its place in the order of the elements. -/
theorem mem_filter_switches_iff {p : PropertyMulti} {order : List String}
    (horder : order.Perm p.elts.keys) (k : String) :
    k ∈ order.filter (· ∈ p.switches.keys) ↔ k ∈ p.switches.keys := by
  rw [List.mem_filter, decide_eq_true_eq, horder.mem_iff]
  refine ⟨fun h => h.2, fun h => ⟨?_, h⟩⟩
  obtain ⟨e, he, -⟩ := (mem_keys_switches_iff p k).mp h
  exact (OrdMap.mem_keys_iff _ _).mpr ⟨e, he⟩

omit [QtText] in
/-- So a property whose order has no last switch has no switch. -/
theorem not_mem_switches_of_getLast? {p : PropertyMulti} {order : List String}
    (horder : order.Perm p.elts.keys)
    (hlast : (order.filter (· ∈ p.switches.keys)).getLast? = none) (k : String) :
    k ∉ p.switches.keys := by
  intro hk
  have h := (mem_filter_switches_iff horder k).mpr hk
  rw [List.getLast?_eq_none_iff.mp hlast] at h
  cases h

omit [QtText] in
/-- A rule that allows one switch at most leaves the one written last, or, under OneOfMany, the
one that is on. -/
theorem follows_only_iff (s : Switches) (m : String → Bool) (key : String) :
    Follows (s.only key (m key)) m ↔ ∀ k ∈ s.keys, m k = true → k = key := by
  unfold Follows
  rw [s.keys_only key]
  constructor
  · intro h k hk hon
    have hval := h k hk
    rw [s.get?_only_of_mem key _ k hk, hon] at hval
    by_contra hne
    rw [if_neg hne] at hval
    cases hval
  · intro h k hk
    rw [s.get?_only_of_mem key _ k hk]
    by_cases hkey : k = key
    · rw [if_pos hkey, hkey]
    · rw [if_neg hkey, eq_false_of_ne_true fun hon => hkey (h k hk hon)]

/-- **A map of switches set at once.**  Under a rule that allows one switch at most, a map with
one switch on at most (one exactly under OneOfMany) gives every switch its value exactly if the
rule is OneOfMany or the switch that is on is the last one to be written. -/
theorem setAllIn_iff (p : PropertyMulti) (order : List String) (horder : order.Perm p.elts.keys)
    (values : QVariantMap) (m : String → Bool)
    (hc : p.complete EltType.isScalar values = true)
    (hm : ∀ k ∈ p.switches.keys, values.get? k = some (.bool (m k)))
    (hone : ∀ k ∈ p.switches.keys, ∀ k' ∈ p.switches.keys, m k = true → m k' = true → k = k')
    (hrule : p.rule = .AtMostOne ∨ p.rule = .OneOfMany ∧ ∃ k ∈ p.switches.keys, m k = true) :
    (∀ k ∈ p.switches.keys, (p.setAllIn order values).st.switches.get? k = some (m k)) ↔
      p.rule = .OneOfMany ∨ ∀ k ∈ p.switches.keys, m k = true →
        (order.filter (· ∈ p.switches.keys)).getLast? = some k := by
  have hmem := mem_filter_switches_iff horder
  rcases hrule with hrule | ⟨hrule, one, hmemOne, hon⟩
  · have hsw := p.switches_setEltsIn order values false m (by rw [hrule]; nofun) hm
    rw [hrule, Switches.foldl_write_atMostOne] at hsw
    rw [setAllIn_switches p order values hc, hsw, hrule]
    cases hlast : (order.filter (· ∈ p.switches.keys)).getLast? with
    | none =>
      have hempty := not_mem_switches_of_getLast? horder hlast
      exact ⟨fun _ => .inr fun k hk => absurd hk (hempty k), fun _ k hk => absurd hk (hempty k)⟩
    | some key =>
      have hfollows := follows_only_iff p.switches m key
      unfold Follows at hfollows
      rw [Switches.keys_only] at hfollows
      refine hfollows.trans ⟨fun h => .inr fun k hk hk' => congrArg some (h k hk hk').symm, ?_⟩
      rintro (h | h) k hk hk'
      · cases h
      · exact (Option.some.inj (h k hk hk')).symm
  · refine ⟨fun _ => .inl hrule, fun _ => ?_⟩
    have hsw := p.switches_setEltsIn order values false m (by rw [hrule]; nofun) hm
    have htrue : ∀ k ∈ order.filter (· ∈ p.switches.keys), m k = true ↔ k = one := by
      intro k hk
      refine ⟨fun h => hone k ((hmem k).mp hk) one hmemOne h hon, fun h => ?_⟩
      rw [h]
      exact hon
    rw [hrule, Switches.foldl_write_oneOfMany m one _ htrue, if_pos ((hmem one).mpr hmemOne)] at hsw
    rw [setAllIn_switches p order values hc, hsw]
    have hfollows := (follows_only_iff p.switches m one).mpr fun k hk hk' =>
      hone k hk one hmemOne hk' hon
    unfold Follows at hfollows
    rw [Switches.keys_only, hon] at hfollows
    exact hfollows

end

/-! ## Samples -/

/-- Two switches, of which the first is on and none has to be. -/
def optionalSwitches : PropertyMulti :=
  { SwitchOp.sampleSwitches with rule := .AtMostOne }

/-- One of the two on, the other off. -/
def oneOn (fast : Bool) : QVariantMap :=
  OrdMap.ofEntries [("fast", .bool fast), ("slow", .bool !fast)]

theorem setAllIn_slow :
    (@setAllIn .plain optionalSwitches optionalSwitches.elts.keys
        (oneOn false)).st.switches.get? "fast" = some false ∧
      (@setAllIn .plain optionalSwitches optionalSwitches.elts.keys
        (oneOn false)).st.switches.get? "slow" = some true := by
  have hfollows := (@setAllIn_iff .plain optionalSwitches optionalSwitches.elts.keys (.refl _)
    (oneOn false) (fun k => k == "slow") (by decide +kernel) (by decide +kernel)
    (by decide +kernel) (.inl rfl)).mpr (.inr (by decide +kernel))
  exact ⟨hfollows "fast" (by decide +kernel), hfollows "slow" (by decide +kernel)⟩

/-- The first of the two put on, the second off: both are off. -/
theorem setAll_loses_first :
    optionalSwitches.Conforms ∧ (oneOn true).get? "fast" = some (.bool true) ∧
      (@setAll .plain optionalSwitches (oneOn true)).st.switches.get? "fast" = some false ∧
      (@setAll .plain optionalSwitches (oneOn true)).st.switches.get? "slow" = some false := by
  decide +kernel

end PropertyMulti

end Ost
