import Mathlib.Data.List.Basic

/-!
# Bytes of a text

A text is kept as the bytes of its chars.  A text whose bytes are cut is the text up to a char, with
perhaps some bytes of that char.

Main theorems:
    prefix_encode:  what a prefix of the bytes of a text is
    prefix_of_encode_prefix:  what such a prefix has of the text
    Decoder.utf8:   bytes that are read up to the first ones of no char
-/

namespace Ost.Lib.Utf8

/-- `toUtf8()` -/
abbrev encode (t : List Char) : List UInt8 := t.flatMap String.utf8EncodeChar

/-- Some bytes of a char, but not all. -/
structure Part (part : List UInt8) : Prop where
  ne_nil : part ≠ []
  of_char : ∃ c, part <+: String.utf8EncodeChar c ∧ part ≠ String.utf8EncodeChar c

/-- What reads the bytes of a text.  Bytes of a char that is cut are read as no char, or as some
replacement chars. -/
structure Decoder where
  decode : List UInt8 → List Char
  whole : ∀ t, decode (encode t) = t
  cut : ∀ t part, Part part →
    ∃ junk, decode (encode t ++ part) = t ++ junk ∧ ∀ c ∈ junk, c = '\uFFFD'

/-- **A prefix of the bytes** of a text. -/
theorem prefix_encode (s : List Char) (l : List UInt8) (h : l <+: encode s) :
    ∃ t part, t <+: s ∧ l = encode t ++ part ∧ (part = [] ∨ Part part) := by
  induction s generalizing l with
  | nil =>
    obtain rfl := List.prefix_nil.mp h
    exact ⟨[], [], List.prefix_rfl, rfl, .inl rfl⟩
  | cons c s ih =>
    have hcons : encode (c :: s) = String.utf8EncodeChar c ++ encode s := List.flatMap_cons
    rw [hcons] at h
    rcases List.prefix_or_prefix_of_prefix h (List.prefix_append _ _) with hin | hout
    · by_cases hall : l = String.utf8EncodeChar c
      · refine ⟨[c], [], List.cons_prefix_cons.mpr ⟨rfl, List.nil_prefix⟩, ?_, .inl rfl⟩
        rw [hall, List.append_nil]
        exact (List.append_nil _).symm
      · refine ⟨[], l, List.nil_prefix, rfl, ?_⟩
        by_cases hnil : l = []
        · exact .inl hnil
        · exact .inr ⟨hnil, c, hin, hall⟩
    · obtain ⟨l', rfl⟩ := hout
      rw [List.prefix_append_right_inj] at h
      obtain ⟨t, part, ht, rfl, hpart⟩ := ih l' h
      refine ⟨c :: t, part, List.cons_prefix_cons.mpr ⟨rfl, ht⟩, ?_, hpart⟩
      rw [← List.append_assoc]
      rfl

/-! ## A decoder -/

/-- The char that some bytes begin with. -/
def first (l : List UInt8) : Option Char := l.toByteArray.utf8DecodeChar? 0

theorem first_encode (c : Char) (l : List UInt8) :
    first (String.utf8EncodeChar c ++ l) = some c := by
  unfold first
  rw [List.toByteArray_append]
  exact ByteArray.utf8DecodeChar?_utf8EncodeChar_append

theorem first_part (part : List UInt8) (h : Part part) : first part = none := by
  obtain ⟨c, ⟨q, hq⟩, hne⟩ := h.of_char
  cases hfirst : first part with
  | none => rfl
  | some d =>
    obtain ⟨r, hr⟩ := ByteArray.exists_of_utf8DecodeChar?_eq_some hfirst
    have hall : (String.utf8EncodeChar c ++ []).toByteArray.utf8DecodeChar? 0 = some d := by
      rw [List.append_nil, ← hq, List.toByteArray_append]
      exact ByteArray.utf8DecodeChar?_append_eq_some hfirst _
    obtain rfl : c = d := Option.some.inj ((first_encode c []).symm.trans hall)
    -- all bytes of the char are there
    have hlen := congrArg ByteArray.size hr
    rw [List.size_toByteArray, ByteArray.size_append, List.size_toByteArray] at hlen
    have htotal := congrArg List.length hq
    rw [List.length_append] at htotal
    have hnil : q = [] := List.eq_nil_of_length_eq_zero (by omega)
    rw [hnil, List.append_nil] at hq
    exact absurd hq hne

/-- A text whose bytes are all there is there. -/
theorem prefix_of_encode_prefix (s u t : List Char) (part : List UInt8) (hu : u <+: s)
    (ht : t <+: s) (hpart : part = [] ∨ Part part) (h : encode u <+: encode t ++ part) : u <+: t := by
  rcases List.prefix_or_prefix_of_prefix hu ht with hin | hout
  · exact hin
  · obtain ⟨r, rfl⟩ := hout
    have happend : encode (t ++ r) = encode t ++ encode r := List.flatMap_append
    rw [happend, List.prefix_append_right_inj] at h
    cases r with
    | nil => exact ⟨[], by rw [List.append_nil, List.append_nil]⟩
    | cons c r =>
      obtain ⟨q, rfl⟩ := h
      have hcons : encode (c :: r) ++ q = String.utf8EncodeChar c ++ (encode r ++ q) := by
        rw [← List.append_assoc]
        rfl
      rw [hcons] at hpart
      rcases hpart with hnil | hpart
      · have hlen := congrArg List.length (List.append_eq_nil_iff.mp hnil).1
        have hpos := c.utf8Size_pos
        rw [String.length_utf8EncodeChar, List.length_nil] at hlen
        omega
      · exact absurd ((first_encode c _).symm.trans (first_part _ hpart)) (by simp)

/-- The chars up to the first bytes that are of none. -/
def decodeFrom : ℕ → List UInt8 → List Char
  | 0, _ => []
  | n + 1, l =>
    match first l with
    | some c => c :: decodeFrom n (l.drop (String.utf8EncodeChar c).length)
    | none => l.map fun _ => '\uFFFD'

theorem decodeFrom_encode (t : List Char) (l : List UInt8) (n : ℕ) (hn : t.length < n)
    (hl : first l = none) :
    decodeFrom n (encode t ++ l) = t ++ l.map fun _ => '\uFFFD' := by
  induction t generalizing n with
  | nil =>
    obtain ⟨n, rfl⟩ := Nat.exists_eq_succ_of_ne_zero (Nat.ne_zero_of_lt hn)
    show (match first l with | some c => _ | none => _) = _
    rw [hl]
    rfl
  | cons c t ih =>
    obtain ⟨n, rfl⟩ := Nat.exists_eq_succ_of_ne_zero (Nat.ne_zero_of_lt hn)
    have hcons : encode (c :: t) ++ l = String.utf8EncodeChar c ++ (encode t ++ l) := by
      rw [← List.append_assoc]
      rfl
    unfold decodeFrom
    rw [hcons, first_encode]
    dsimp only
    rw [List.drop_left, ih n (Nat.lt_of_succ_lt_succ hn)]
    rfl

theorem length_le_encode (t : List Char) : t.length ≤ (encode t).length := by
  induction t with
  | nil => exact Nat.le_refl 0
  | cons c t ih =>
    have hcons : encode (c :: t) = String.utf8EncodeChar c ++ encode t := List.flatMap_cons
    have hpos : 0 < (String.utf8EncodeChar c).length :=
      String.length_utf8EncodeChar c ▸ c.utf8Size_pos
    rw [hcons, List.length_append, List.length_cons]
    omega

def Decoder.utf8 : Decoder where
  decode := fun l => decodeFrom (l.length + 1) l
  whole := fun t => by
    have h := decodeFrom_encode t [] ((encode t).length + 1)
      (Nat.lt_succ_of_le (length_le_encode t)) rfl
    rwa [List.append_nil, List.map_nil, List.append_nil] at h
  cut := fun t part hpart => by
    refine ⟨part.map fun _ => '\uFFFD', ?_, fun c hc => ?_⟩
    · refine decodeFrom_encode t part _ ?_ (first_part part hpart)
      rw [List.length_append]
      have hle := length_le_encode t
      omega
    · obtain ⟨b, -, rfl⟩ := List.mem_map.mp hc
      rfl

end Ost.Lib.Utf8
