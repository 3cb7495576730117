import Ost.WShandler
import Ost.Front.Connection
import Ost.Lib.JsonWeight
import Mathlib.Data.List.Chain

/-!
# What the server makes of a client's text

A client sends `{[command]: payload}` as `JSON.stringify` writes it.  The server undoes
escapes in the raw text before it reads it (`rewritten`), so that it does not always get
what was sent.

Algorithm:
- The rewriting takes away chars that stand in certain pairs (`replacePair`).  A text
  without such a pair is left alone; any other gets lighter, and no lighter text stands
  for the value that was written.
- In the text of a value such a pair can only stand in a string (`isChain_write_iff`).

Main theorems:
    rewritten_of_kept, weight_rewritten_lt:  what the rewriting does to a text
    isChain_write_iff:  the text of a value is left alone exactly if all strings are harmless
    decoded_iff:        a command is decoded as it was sent exactly if its type is known,
      its strings are harmless and it is not nested too deep
-/

namespace Ost

open Lib Front

/-! ## Texts that the rewriting leaves alone -/

/-- None of the pairs that the rewriting looks for. -/
def Kept (x y : Char) : Prop :=
  ¬(x = '\\' ∧ y = '"') ∧ ¬(x = '}' ∧ y = '"') ∧ ¬(x = '"' ∧ y = '{')

theorem replacePair_of_isChain (a b : Char) (after t : List Char)
    (h : t.IsChain fun x y => ¬(x = a ∧ y = b)) : replacePair a b after t = t := by
  fun_induction replacePair a b after t with
  | case1 x y t heq ih => exact absurd heq (List.isChain_cons_cons.mp h).1
  | case2 x y t hne ih => rw [ih (List.isChain_cons_cons.mp h).2]
  | case3 t ht => rfl

theorem weight_replacePair_le (a b : Char) (after t : List Char)
    (h : weight after ≤ weight [a, b]) : weight (replacePair a b after t) ≤ weight t := by
  fun_induction replacePair a b after t with
  | case1 x y t heq ih =>
    obtain ⟨rfl, rfl⟩ := heq
    have hpair := weight_append [x, y] t
    rw [weight_append]
    simp only [List.cons_append, List.nil_append] at hpair
    omega
  | case2 x y t hne ih =>
    rw [weight_cons, weight_cons x (y :: t)]
    omega
  | case3 t ht => exact le_rfl

/-- A pair that is found makes the text lighter. -/
theorem weight_replacePair_lt (a b : Char) (after t : List Char)
    (h : weight after < weight [a, b]) (ht : ¬t.IsChain fun x y => ¬(x = a ∧ y = b)) :
    weight (replacePair a b after t) < weight t := by
  fun_induction replacePair a b after t with
  | case1 x y t heq ih =>
    obtain ⟨rfl, rfl⟩ := heq
    have hpair := weight_append [x, y] t
    have hrest := weight_replacePair_le x y after t h.le
    rw [weight_append]
    simp only [List.cons_append, List.nil_append] at hpair
    omega
  | case2 x y t hne ih =>
    have hrest := ih fun hchain => ht (List.isChain_cons_cons.mpr ⟨hne, hchain⟩)
    rw [weight_cons, weight_cons x (y :: t)]
    omega
  | case3 t hshort =>
    refine absurd ?_ ht
    cases t with
    | nil => exact .nil
    | cons x t =>
      cases t with
      | nil => exact .singleton x
      | cons y t => exact absurd rfl (hshort x y t)

theorem mem_replacePair (a b : Char) (after t : List Char) (c : Char)
    (h : c ∈ replacePair a b after t) : c ∈ after ∨ c ∈ t := by
  fun_induction replacePair a b after t with
  | case1 x y t heq ih =>
    rcases List.mem_append.mp h with h | h
    · exact .inl h
    · exact (ih h).imp_right fun h => List.mem_cons_of_mem _ (List.mem_cons_of_mem _ h)
  | case2 x y t hne ih =>
    rcases List.mem_cons.mp h with rfl | h
    · exact .inr List.mem_cons_self
    · exact (ih h).imp_right fun h => List.mem_cons_of_mem _ h
  | case3 t ht => exact .inr h

theorem rewritten_of_kept (t : List Char) (h : t.IsChain Kept) : rewritten t = t := by
  unfold rewritten unescapedQuotes
  rw [replacePair_of_isChain _ _ _ t (h.imp fun _ _ hk => hk.1),
    replacePair_of_isChain _ _ _ t (h.imp fun _ _ hk => hk.2.1),
    replacePair_of_isChain _ _ _ t (h.imp fun _ _ hk => hk.2.2)]

/-- **Any other text is lighter afterwards.** -/
theorem weight_rewritten_lt (t : List Char) (h : ¬t.IsChain Kept) :
    weight (rewritten t) < weight t := by
  have hescape : weight ['"'] < weight ['\\', '"'] := by decide
  have hclose : weight ['}'] < weight ['}', '"'] := by decide
  have hopen : weight ['{'] < weight ['"', '{'] := by decide
  unfold rewritten unescapedQuotes
  have h₂ := weight_replacePair_le '}' '"' ['}'] (replacePair '\\' '"' ['"'] t) hclose.le
  have h₃ := weight_replacePair_le '"' '{' ['{']
    (replacePair '}' '"' ['}'] (replacePair '\\' '"' ['"'] t)) hopen.le
  by_cases hc₁ : t.IsChain fun x y => ¬(x = '\\' ∧ y = '"')
  · rw [replacePair_of_isChain _ _ _ t hc₁] at h₂ h₃ ⊢
    by_cases hc₂ : t.IsChain fun x y => ¬(x = '}' ∧ y = '"')
    · rw [replacePair_of_isChain _ _ _ t hc₂]
      refine weight_replacePair_lt '"' '{' ['{'] t hopen fun hc₃ => h ?_
      rw [List.isChain_iff_forall_rel_of_append_cons_cons] at hc₁ hc₂ hc₃ ⊢
      exact fun x y l₁ l₂ heq => ⟨hc₁ heq, hc₂ heq, hc₃ heq⟩
    · have hlt := weight_replacePair_lt '}' '"' ['}'] t hclose hc₂
      omega
  · have hlt := weight_replacePair_lt '\\' '"' ['"'] t hescape hc₁
    omega

theorem plain_rewritten (t : List Char) (h : Lib.Plain t) : Lib.Plain (rewritten t) := by
  have hone : ∀ a b c u, 0x20 ≤ c.toNat → Lib.Plain u → Lib.Plain (replacePair a b [c] u) := by
    intro a b c u hc hu d hd
    rcases mem_replacePair a b [c] u d hd with hd | hd
    · rw [List.mem_singleton.mp hd]
      exact hc
    · exact hu d hd
  exact hone _ _ _ _ (by decide) (hone _ _ _ _ (by decide) (hone _ _ _ _ (by decide) h))

/-! ## The pairs in the text of a value -/

theorem kept_of_left (x y : Char) (h : x ≠ '\\' ∧ x ≠ '}' ∧ x ≠ '"') : Kept x y :=
  ⟨fun hp => h.1 hp.1, fun hp => h.2.1 hp.1, fun hp => h.2.2 hp.1⟩

theorem kept_of_right (x y : Char) (h : y ≠ '"' ∧ y ≠ '{') : Kept x y :=
  ⟨fun hp => h.1 hp.2, fun hp => h.1 hp.2, fun hp => h.2 hp.2⟩

/-- All the pairs have a quote. -/
theorem isChain_of_no_quote (t : List Char) (h : '"' ∉ t) : t.IsChain Kept := by
  induction t with
  | nil => exact .nil
  | cons x t ih =>
    rw [List.mem_cons, not_or] at h
    refine List.isChain_cons.mpr ⟨fun y hy => ?_, ih h.2⟩
    have hyq : y ≠ '"' := fun heq => h.2 (heq ▸ List.mem_of_mem_head? hy)
    exact ⟨fun hp => hyq hp.2, fun hp => hyq hp.2, fun hp => h.1 hp.1.symm⟩

/-- No quote in the string, no brace or backslash at its ends that stands next to its own. -/
structure Harmless (s : String) : Prop where
  quote : '"' ∉ s.toList
  first : s.toList.head? ≠ some '{'
  backslash : s.toList.getLast? ≠ some '\\'
  last : s.toList.getLast? ≠ some '}'

theorem escapeChar_head (c : Char) :
    ∃ d t, escapeChar c = d :: t ∧ (d = '{' ↔ c = '{') := by
  rcases escapeChar_cases c with ⟨e, he, hc⟩ | ⟨hctl, -, hc⟩ | ⟨-, -, -, hc⟩
  · have hforms : ∀ p ∈ shortForms, p.1 ≠ '{' := by decide
    exact ⟨_, _, hc, iff_of_false (by decide) (hforms _ he)⟩
  · refine ⟨_, _, hc, iff_of_false (by decide) ?_⟩
    rintro rfl
    exact absurd hctl (by decide)
  · exact ⟨c, [], hc, Iff.rfl⟩

theorem escapeChar_last (c : Char) :
    ∃ t d, escapeChar c = t ++ [d] ∧ (d = '\\' ↔ c = '\\') ∧ (d = '}' ↔ c = '}') := by
  rcases escapeChar_cases c with ⟨e, he, hc⟩ | ⟨hctl, hmem, hc⟩ | ⟨-, -, -, hc⟩
  · have hforms : ∀ p ∈ shortForms, (p.2 = '\\' ↔ p.1 = '\\') ∧ (p.2 = '}' ↔ p.1 = '}') := by decide
    exact ⟨['\\'], e, hc, hforms _ he⟩
  · have hhex : ∀ n < 16, hexDigit n ≠ '\\' ∧ hexDigit n ≠ '}' := by decide
    obtain ⟨hne, hne'⟩ := hhex (c.toNat % 16) (by omega)
    refine ⟨['\\', 'u', '0', '0', hexDigit (c.toNat / 16)], _, hc, iff_of_false hne ?_,
      iff_of_false hne' ?_⟩
    · rintro rfl
      exact hmem (by decide)
    · rintro rfl
      exact absurd hctl (by decide)
  · exact ⟨[], c, hc, Iff.rfl, Iff.rfl⟩

theorem quote_mem_escapeChar (c : Char) (h : '"' ∈ escapeChar c) : c = '"' := by
  rcases escapeChar_cases c with ⟨e, he, hc⟩ | ⟨hctl, -, hc⟩ | ⟨-, -, -, hc⟩ <;> rw [hc] at h
  · have hforms : ∀ p ∈ shortForms, '"' ∈ ['\\', p.2] → p.1 = '"' := by decide
    exact hforms _ he h
  · have hhex : ∀ n < 16, hexDigit n ≠ '"' := by decide
    have h₁ := hhex (c.toNat / 16) (by omega)
    have h₂ := hhex (c.toNat % 16) (by omega)
    simp [h₁.symm, h₂.symm] at h
  · exact (List.mem_singleton.mp h).symm

theorem quote_not_mem_escaped (s : List Char) (h : '"' ∉ s) : '"' ∉ escaped s := by
  intro hmem
  obtain ⟨c, hc, hquote⟩ := List.mem_flatMap.mp hmem
  exact h (quote_mem_escapeChar c hquote ▸ hc)

theorem head?_escaped (s : List Char) : (escaped s).head? = some '{' ↔ s.head? = some '{' := by
  cases s with
  | nil => exact Iff.rfl
  | cons c s =>
    obtain ⟨d, t, hdt, hiff⟩ := escapeChar_head c
    have hescaped : escaped (c :: s) = d :: (t ++ escaped s) := by
      show escapeChar c ++ escaped s = _
      rw [hdt]
      rfl
    rw [hescaped, List.head?_cons, List.head?_cons, Option.some.injEq, Option.some.injEq, hiff]

theorem getLast?_escaped (s : List Char) :
    ((escaped s).getLast? = some '\\' ↔ s.getLast? = some '\\') ∧
      ((escaped s).getLast? = some '}' ↔ s.getLast? = some '}') := by
  rcases List.eq_nil_or_concat s with rfl | ⟨s, c, rfl⟩
  · exact ⟨Iff.rfl, Iff.rfl⟩
  · obtain ⟨t, d, htd, hback, hlast⟩ := escapeChar_last c
    have hescaped : escaped (s ++ [c]) = escaped s ++ t ++ [d] := by
      unfold escaped
      rw [List.flatMap_append, List.flatMap_singleton, htd, List.append_assoc]
    rw [List.concat_eq_append, hescaped, List.getLast?_concat, List.getLast?_concat]
    simp only [Option.some.injEq]
    exact ⟨hback, hlast⟩

/-- A quoted string has none of the pairs exactly if it is harmless. -/
theorem isChain_quoted_iff (s : String) : (quoted s).IsChain Kept ↔ Harmless s := by
  have hquoted : quoted s = '"' :: (escaped s.toList ++ ['"']) := rfl
  by_cases hquote : '"' ∈ s.toList
  · refine ⟨fun h => ?_, fun h => absurd hquote h.quote⟩
    -- a quote in the string is written with a backslash before it
    obtain ⟨p, q, hpq⟩ := List.append_of_mem hquote
    have hescaped : escaped s.toList = escaped p ++ '\\' :: '"' :: escaped q := by
      rw [hpq]
      unfold escaped
      rw [List.flatMap_append, List.flatMap_cons]
      rfl
    rw [hquoted, hescaped] at h
    have hpair : Kept '\\' '"' := by
      have hchain : List.IsChain Kept (('"' :: escaped p) ++ '\\' :: '"' :: (escaped q ++ ['"'])) := by
        simpa using h
      exact (List.isChain_append_cons_cons.mp hchain).2.1
    exact absurd ⟨rfl, rfl⟩ hpair.1
  · have hnone := quote_not_mem_escaped s.toList hquote
    obtain ⟨hback, hlast⟩ := getLast?_escaped s.toList
    have hfirst := head?_escaped s.toList
    have hkept : ∀ y, Kept '"' y ↔ y ≠ '{' := fun y =>
      ⟨fun h hy => h.2.2 ⟨rfl, hy⟩, fun h => ⟨nofun, nofun, fun hp => h hp.2⟩⟩
    have hkept' : ∀ x, Kept x '"' ↔ x ≠ '\\' ∧ x ≠ '}' := fun x =>
      ⟨fun h => ⟨fun hx => h.1 ⟨hx, rfl⟩, fun hx => h.2.1 ⟨hx, rfl⟩⟩,
        fun h => ⟨fun hp => h.1 hp.1, fun hp => h.2 hp.1, nofun⟩⟩
    rw [hquoted, List.isChain_cons, List.isChain_append]
    constructor
    · rintro ⟨hhead, -, -, hend⟩
      refine ⟨hquote, fun h => ?_, fun h => ?_, fun h => ?_⟩
      · have hbrace := hfirst.mpr h
        have hin : '{' ∈ (escaped s.toList ++ ['"']).head? := by
          rw [List.head?_append, hbrace]
          rfl
        exact (hkept '{').mp (hhead '{' hin) rfl
      · exact ((hkept' _).mp (hend _ (hback.mpr h) '"' rfl)).1 rfl
      · exact ((hkept' _).mp (hend _ (hlast.mpr h) '"' rfl)).2 rfl
    · intro h
      refine ⟨fun y hy => ?_, isChain_of_no_quote _ hnone, .singleton _, fun x hx y hy => ?_⟩
      · rw [hkept]
        rintro rfl
        rw [List.head?_append] at hy
        cases hhead : (escaped s.toList).head? with
        | none =>
          rw [hhead] at hy
          exact absurd hy (by decide)
        | some d =>
          rw [hhead] at hy
          obtain rfl : d = '{' := Option.some.inj hy
          exact h.first (hfirst.mp hhead)
      · obtain rfl : '"' = y := Option.some.inj hy
        rw [hkept']
        refine ⟨?_, ?_⟩
        · rintro rfl
          exact h.backslash (hback.mp hx)
        · rintro rfl
          exact h.last (hlast.mp hx)

theorem isChain_closeItems_iff (close : Char) (hc : close = ']' ∨ close = '}')
    (l : List (List Char)) :
    (closeItems close l).IsChain Kept ↔ ∀ t ∈ l, t.IsChain Kept := by
  have hclose : close ≠ '"' ∧ close ≠ '{' := by rcases hc with rfl | rfl <;> decide
  induction l with
  | nil => exact ⟨fun _ t ht => absurd ht (List.not_mem_nil), fun _ => .singleton close⟩
  | cons t l ih =>
    have hhead : ∀ y ∈ (closeItems close l).head?, y ≠ '"' ∧ y ≠ '{' := by
      intro y hy
      cases l with
      | nil =>
        obtain rfl : close = y := Option.some.inj hy
        exact hclose
      | cons u l =>
        obtain rfl : ',' = y := Option.some.inj hy
        decide
    unfold closeItems
    rw [List.cons_append, List.isChain_cons, List.isChain_append, List.forall_mem_cons]
    constructor
    · rintro ⟨-, ht, hl, -⟩
      exact ⟨ht, ih.mp hl⟩
    · rintro ⟨ht, hl⟩
      exact ⟨fun y _ => kept_of_left ',' y (by decide), ht, ih.mpr hl,
        fun x _ y hy => kept_of_right x y (hhead y hy)⟩

theorem isChain_enclose_iff (open' close : Char) (ho : open' = '[' ∨ open' = '{')
    (hc : close = ']' ∨ close = '}') (l : List (List Char)) :
    (enclose open' close l).IsChain Kept ↔ ∀ t ∈ l, t.IsChain Kept := by
  have hopen : open' ≠ '\\' ∧ open' ≠ '}' ∧ open' ≠ '"' := by rcases ho with rfl | rfl <;> decide
  have hitems := isChain_closeItems_iff close hc
  cases l with
  | nil =>
    refine ⟨fun _ t ht => absurd ht (List.not_mem_nil), fun _ => ?_⟩
    exact List.isChain_pair.mpr (kept_of_left open' close hopen)
  | cons t l =>
    -- after the opening bracket the items stand as they do after a comma
    have hcons : (',' :: (t ++ closeItems close l)).IsChain Kept ↔ ∀ u ∈ t :: l, u.IsChain Kept :=
      hitems (t :: l)
    show (open' :: (t ++ closeItems close l)).IsChain Kept ↔ _
    rw [← hcons, List.isChain_cons, List.isChain_cons]
    exact ⟨fun h => ⟨fun y _ => kept_of_left ',' y (by decide), h.2⟩,
      fun h => ⟨fun y _ => kept_of_left open' y hopen, h.2⟩⟩

namespace Lib.Json

variable {ν : Type} (f : NumberFormat ν)

theorem isChain_writeMember_iff (k : String) (t : List Char) :
    (writeMember (k, t)).IsChain Kept ↔ Harmless k ∧ t.IsChain Kept := by
  unfold writeMember
  rw [List.isChain_append, List.isChain_cons, isChain_quoted_iff]
  constructor
  · rintro ⟨hk, ⟨-, ht⟩, -⟩
    exact ⟨hk, ht⟩
  · rintro ⟨hk, ht⟩
    refine ⟨hk, ⟨fun y _ => kept_of_left ':' y (by decide), ht⟩, fun x _ y hy => ?_⟩
    obtain rfl : ':' = y := Option.some.inj hy
    exact kept_of_right x ':' (by decide)

/-- **The text of a value has none of the pairs exactly if all of its strings are harmless.** -/
theorem isChain_write_iff (j : Json ν) :
    (write f j).IsChain Kept ↔ ∀ s ∈ j.strings, Harmless s := by
  have hnone : ∀ t : List Char, '"' ∉ t → (t.IsChain Kept ↔ ∀ s ∈ ([] : List String), Harmless s) :=
    fun t ht => ⟨fun _ s hs => absurd hs (List.not_mem_nil), fun _ => isChain_of_no_quote t ht⟩
  induction j using induct with
  | null => exact hnone "null".toList (by decide)
  | bool b =>
    cases b with
    | false => exact hnone "false".toList (by decide)
    | true => exact hnone "true".toList (by decide)
  | num n => exact hnone (f.write n) fun h => absurd (f.chars n _ h) (by decide)
  | str s =>
    have hs : ∀ x ∈ ([s] : List String), Harmless x ↔ Harmless s := fun x hx => by
      rw [List.mem_singleton.mp hx]
    refine (isChain_quoted_iff s).trans ⟨fun h x hx => (hs x hx).mpr h, fun h => ?_⟩
    exact h s (List.mem_singleton.mpr rfl)
  | arr l ih =>
    rw [write_arr, isChain_enclose_iff _ _ (.inl rfl) (.inl rfl), strings_arr, List.forall_mem_map]
    constructor
    · intro h s hs
      obtain ⟨j, hj, hs⟩ := List.mem_flatMap.mp hs
      exact (ih j hj).mp (h j hj) s hs
    · intro h j hj
      exact (ih j hj).mpr fun s hs => h s (List.mem_flatMap.mpr ⟨j, hj, hs⟩)
  | obj l ih =>
    rw [write_obj, isChain_enclose_iff _ _ (.inr rfl) (.inr rfl), strings_obj, List.forall_mem_map]
    constructor
    · intro h s hs
      obtain ⟨e, he, hs⟩ := List.mem_flatMap.mp hs
      obtain ⟨hk, hv⟩ := (isChain_writeMember_iff e.1 _).mp (h e he)
      rcases List.mem_cons.mp hs with rfl | hs
      · exact hk
      · exact (ih e he).mp hv s hs
    · intro h e he
      refine (isChain_writeMember_iff e.1 _).mpr ⟨?_, (ih e he).mpr fun s hs => ?_⟩
      · exact h e.1 (List.mem_flatMap.mpr ⟨e, he, List.mem_cons_self⟩)
      · exact h s (List.mem_flatMap.mpr ⟨e, he, List.mem_cons_of_mem _ hs⟩)

end Lib.Json

/-! ## Decoding -/

/-- Whatever names an event is the name of its type. -/
theorem eq_of_StrToExtEvent (key : String) (h : StrToExtEvent key ≠ .ZZ) :
    key = ExtEvToString (StrToExtEvent key) := by
  unfold StrToExtEvent at h ⊢
  split at h <;> first | rfl | exact absurd rfl h

/-- Every type is named but the query of a module. -/
theorem StrToExtEvent_name (ev : ExtEvType) (hz : ev ≠ .ZZ) :
    StrToExtEvent (ExtEvToString ev) = ev ↔ ev ≠ .QY := by
  cases ev <;> first | exact absurd rfl hz | decide

theorem decode_ok_iff (num : NumberFormat ℚ) (message : String) (event : ExtEvent) :
    decode num message = .ok event ↔
      ∃ key value, (jsonObject num (rewritten message.toList)).entries = [(key, value)] ∧
        StrToExtEvent key ≠ .ZZ ∧ value.isObject = true ∧
        event = { ev := StrToExtEvent key, data := value.toMap, line := 0 } := by
  unfold decode
  dsimp only
  constructor
  · intro h
    split at h
    · next key value hentries =>
      split at h
      · cases h
      · next hev =>
        split at h
        · cases h
        · next hobj =>
          cases h
          exact ⟨key, value, hentries, hev, by simpa using hobj, rfl⟩
    · cases h
  · rintro ⟨key, value, hentries, hev, hobj, rfl⟩
    rw [hentries]
    dsimp only
    rw [if_neg hev, if_neg (by simp [hobj])]

theorem Lib.Json.norm_of_isObject (j : QJsonValue) (h : j.isObject = true) :
    (Json.object j.toMap).norm = j.norm := by
  cases j with
  | obj l => exact Json.norm_object_toMap l
  | _ => cases h

namespace Front.ClientCommand

theorem command_ne_ZZ (c : ClientCommand) : c.command ≠ .ZZ := by
  intro h
  cases c with
  | property moduleName propName msg =>
    cases msg with
    | clickPropertyIcon slot =>
      match slot with
      | 0 | 1 | 2 | 3 => cases h
    | clickElementIcon slot elementName =>
      match slot with
      | 0 | 1 => cases h
    | _ => cases h
  | _ => cases h

theorem isObject_payload (c : ClientCommand) : c.payload.isObject = true := by
  cases c <;> rfl

/-- The text on the wire. -/
def text (num : NumberFormat ℚ) (c : ClientCommand) : String :=
  String.ofList (Json.write num c.message)

/-- The server decodes the command: its type, and data that stand for the payload. -/
def Decoded (num : NumberFormat ℚ) (c : ClientCommand) : Prop :=
  ∃ event, decode num (c.text num) = .ok event ∧ event.ev = c.command ∧
    (Json.object event.data).norm = c.payload.norm

/-- A command whose text is left alone is decoded. -/
theorem decoded_of_kept (num : NumberFormat ℚ) (c : ClientCommand) (hqy : c.command ≠ .QY)
    (hn : ∀ n ∈ c.message.numbers, num.Exact n) (hd : c.message.depth ≤ nestingLimit)
    (hkept : (Json.write num c.message).IsChain Kept) : c.Decoded num := by
  have hname := (StrToExtEvent_name c.command c.command_ne_ZZ).mpr hqy
  refine ⟨{ ev := c.command, data := c.payload.toMap, line := 0 }, ?_, rfl,
    Json.norm_of_isObject _ c.isObject_payload⟩
  rw [decode_ok_iff]
  refine ⟨ExtEvToString c.command, c.payload, ?_, ?_, c.isObject_payload, ?_⟩
  · unfold jsonObject text
    rw [String.toList_ofList, rewritten_of_kept _ hkept, Json.parse_write num nestingLimit _ hn hd]
    rfl
  · rw [hname]
    exact c.command_ne_ZZ
  · rw [hname]

/-- What is decoded as the command was read from a text that stands for its message. -/
theorem parse_of_decoded (num : NumberFormat ℚ) (c : ClientCommand) (h : c.Decoded num) :
    c.command ≠ .QY ∧ ∃ j, Json.parse num nestingLimit (rewritten (Json.write num c.message)) =
      some j ∧ j.norm = c.message.norm := by
  obtain ⟨event, hdec, hev, hdata⟩ := h
  obtain ⟨key, value, hentries, hkey, hobj, rfl⟩ := (decode_ok_iff num _ event).mp hdec
  have hname := eq_of_StrToExtEvent key hkey
  dsimp only at hev hdata
  rw [hev] at hname
  refine ⟨(StrToExtEvent_name c.command c.command_ne_ZZ).mp (hname ▸ hev), ?_⟩
  unfold jsonObject text at hentries
  rw [String.toList_ofList] at hentries
  cases hparse : Json.parse num nestingLimit (rewritten (Json.write num c.message)) with
  | none =>
    rw [hparse] at hentries
    cases hentries
  | some j =>
    rw [hparse] at hentries
    refine ⟨j, rfl, ?_⟩
    cases j with
    | obj l =>
      have hnorm := (Json.norm_object_toMap l).symm
      rw [hnorm]
      dsimp only at hentries
      unfold Json.object message
      rw [hentries, hname, Json.norm_obj, Json.norm_obj]
      rw [Json.norm_of_isObject value hobj] at hdata
      rw [List.map_singleton, List.map_singleton, hdata]
    | _ => cases hentries

/-- **Fidelity of the messages of the clients.**  A command is decoded as it was sent exactly if it
is no query, each of its strings is harmless to the rewriting of its text, and it is nested no
deeper than the reader goes. -/
theorem decoded_iff (num : NumberFormat ℚ) (c : ClientCommand) (hc : c.message.Distinct)
    (hn : ∀ n ∈ c.message.numbers, num.Exact n) :
    c.Decoded num ↔ c.command ≠ .QY ∧ (∀ s ∈ c.message.strings, Harmless s) ∧
      c.message.depth ≤ nestingLimit := by
  constructor
  · intro h
    obtain ⟨hqy, j, hparse, hj⟩ := parse_of_decoded num c h
    obtain ⟨hdepth, hweight⟩ := Json.le_of_parse_norm num nestingLimit _ j c.message
      (plain_rewritten _ (Json.plain_write num c.message)) hparse hj hc
    refine ⟨hqy, (Json.isChain_write_iff num c.message).mp ?_, hdepth⟩
    -- a text that was changed would be too light
    by_contra hkept
    exact absurd (weight_rewritten_lt _ hkept) (not_lt.mpr hweight)
  · rintro ⟨hqy, hharmless, hdepth⟩
    exact decoded_of_kept num c hqy hn hdepth ((Json.isChain_write_iff num c.message).mpr hharmless)

/-- A value set on an element. -/
theorem decoded_setValue :
    (property "guider" "revCorrections" (.setValue "revRA" (.bool true))).Decoded integers := by
  have hdistinct : (property "guider" "revCorrections"
      (.setValue "revRA" (.bool true))).message.Distinct := by
    have hone : ∀ k (j : QJsonValue), j.Distinct → Json.Distinct (.obj [(k, j)]) := by
      intro k j hj
      refine (Json.distinct_obj_iff _).mpr ⟨List.nodup_singleton k, fun e he => ?_⟩
      rw [List.mem_singleton.mp he]
      exact hj
    have hset : Json.Distinct (.bool true : QJsonValue) := trivial
    exact hone _ _ (hone _ _ (hone _ _ (hone _ _ (hone _ _ (hone _ _ (hone _ _ hset))))))
  refine (decoded_iff integers _ hdistinct nofun).mpr ⟨by decide, ?_, by decide +kernel⟩
  intro s hs
  have hharmless : ∀ s ∈ (property "guider" "revCorrections"
      (.setValue "revRA" (.bool true))).message.strings, '"' ∉ s.toList ∧
      s.toList.head? ≠ some '{' ∧ s.toList.getLast? ≠ some '\\' ∧
      s.toList.getLast? ≠ some '}' := by
    decide +kernel
  obtain ⟨hquote, hfirst, hbackslash, hlast⟩ := hharmless s hs
  exact ⟨hquote, hfirst, hbackslash, hlast⟩

/-- A quote in the name of a profile, a backslash at the end of it, and the query of a module. -/
theorem not_decoded :
    ¬(loadProfile "guider" "8\" newton").Decoded integers ∧
      ¬(loadProfile "guider" "C:\\").Decoded integers ∧
      ¬(query "guider" "state" (.obj [])).Decoded integers := by
  have hrefused : ∀ c : ClientCommand, (decode integers (c.text integers)).toOption.isNone = true →
      ¬c.Decoded integers := by
    rintro c hnone ⟨event, hok, -⟩
    rw [hok] at hnone
    cases hnone
  refine ⟨hrefused _ ?_, hrefused _ ?_, hrefused _ ?_⟩
  · decide +kernel
  · decide +kernel
  · decide +kernel

end Front.ClientCommand

end Ost
