import Ost.Lib.JsonTree

/-!
# The text of JSON values

`write` puts a value out in the compact form, `parse` reads a text back, each over a
`NumberFormat`: how the numbers are written and read is left open.

Algorithm:
- A string is put out char by char (`escapeChar`), and read in two passes: the escapes
  (`parseUnits`), then the surrogate pairs (`joinUnits`).
- Arrays and objects are items between two brackets, separated by commas (`enclose`,
  `parseEnclosed`).  The reader takes no more than a given depth of brackets.

Main theorems:
    parseString_quoted:  a string is read back
    parse_write:         the text of a value reads as that value, up to the depth allowed
-/

namespace Ost.Lib

/-! ## Strings -/

def hexDigit (n : ℕ) : Char :=
  ['0', '1', '2', '3', '4', '5', '6', '7', '8', '9', 'a', 'b', 'c', 'd', 'e', 'f'].getD n '0'

def hexVal (c : Char) : Option ℕ :=
  if '0' ≤ c ∧ c ≤ '9' then some (c.toNat - '0'.toNat)
  else if 'a' ≤ c ∧ c ≤ 'f' then some (c.toNat - 'a'.toNat + 10)
  else if 'A' ≤ c ∧ c ≤ 'F' then some (c.toNat - 'A'.toNat + 10)
  else none

/-- The number of four hexadecimal digits. -/
def hexCode (h₁ h₂ h₃ h₄ : Char) : Option ℕ :=
  match hexVal h₁, hexVal h₂, hexVal h₃, hexVal h₄ with
  | some a, some b, some c, some d => some (((a * 16 + b) * 16 + c) * 16 + d)
  | _, _, _, _ => none

def escapeChar (c : Char) : List Char :=
  if c = '"' then ['\\', '"']
  else if c = '\\' then ['\\', '\\']
  else if c = '\x08' then ['\\', 'b']
  else if c = '\x0c' then ['\\', 'f']
  else if c = '\n' then ['\\', 'n']
  else if c = '\r' then ['\\', 'r']
  else if c = '\t' then ['\\', 't']
  else if c.toNat < 0x20 then
    ['\\', 'u', '0', '0', hexDigit (c.toNat / 16), hexDigit (c.toNat % 16)]
  else [c]

def escaped (s : List Char) : List Char := s.flatMap escapeChar

def quoted (s : String) : List Char := '"' :: escaped s.toList ++ ['"']

def unescape (e : Char) : Char :=
  if e = 'b' then '\x08'
  else if e = 'f' then '\x0c'
  else if e = 'n' then '\n'
  else if e = 'r' then '\r'
  else if e = 't' then '\t'
  else e

/-- What a part of a string stands for: a char, or a UTF-16 code. -/
inductive StrUnit where
  | char (c : Char)
  | code (n : ℕ)

/-- The string up to its closing quote, and the text after it. -/
def parseUnits : List Char → Option (List StrUnit × List Char)
  | [] => none
  | c :: r =>
    if c = '"' then some ([], r)
    else if c ≠ '\\' then (parseUnits r).map fun x => (.char c :: x.1, x.2)
    else
      match r with
      | [] => none
      | e :: r =>
        if e ≠ 'u' then
          -- an unknown escape stands for its char, if this is a single byte
          if e.toNat < 128 then (parseUnits r).map fun x => (.char (unescape e) :: x.1, x.2)
          else none
        else
          match r with
          | h₁ :: h₂ :: h₃ :: h₄ :: r =>
            match hexCode h₁ h₂ h₃ h₄ with
            | none => none
            | some n => (parseUnits r).map fun x => (.code n :: x.1, x.2)
          | _ => none

def isHighSurrogate (n : ℕ) : Bool := 0xd800 ≤ n && n < 0xdc00

def isLowSurrogate (n : ℕ) : Bool := 0xdc00 ≤ n && n < 0xe000

/-- The char of a code; half a pair has none. -/
def codeChar (n : ℕ) : Char :=
  if isHighSurrogate n || isLowSurrogate n then '\ufffd' else Char.ofNat n

def joinUnits : List StrUnit → List Char
  | [] => []
  | .char c :: l => c :: joinUnits l
  | .code n :: .code m :: l =>
    if isHighSurrogate n && isLowSurrogate m then
      Char.ofNat (0x10000 + (n - 0xd800) * 0x400 + (m - 0xdc00)) :: joinUnits l
    else codeChar n :: joinUnits (.code m :: l)
  | .code n :: l => codeChar n :: joinUnits l

def parseString (t : List Char) : Option (String × List Char) :=
  (parseUnits t).map fun x => (String.ofList (joinUnits x.1), x.2)

/-! ### What is written is read back -/

theorem hexVal_hexDigit : ∀ n < 16, hexVal (hexDigit n) = some n := by decide

/-- The unit that is read for a char as it is written. -/
def unitOf (c : Char) : StrUnit :=
  if c.toNat < 0x20 ∧ c ∉ ['\x08', '\x0c', '\n', '\r', '\t'] then .code c.toNat else .char c

theorem parseUnits_quote (r : List Char) : parseUnits ('"' :: r) = some ([], r) := by
  rw [parseUnits.eq_def]
  simp

theorem parseUnits_short (e c : Char) (r : List Char) (hu : e ≠ 'u') (hlt : e.toNat < 128)
    (hc : unescape e = c) :
    parseUnits ('\\' :: e :: r) = (parseUnits r).map fun x => (.char c :: x.1, x.2) := by
  rw [parseUnits.eq_def]
  simp [hu, hlt, hc]

theorem parseUnits_code (h₁ h₂ h₃ h₄ : Char) (r : List Char) (n : ℕ)
    (h : hexCode h₁ h₂ h₃ h₄ = some n) :
    parseUnits ('\\' :: 'u' :: h₁ :: h₂ :: h₃ :: h₄ :: r) =
      (parseUnits r).map fun x => (.code n :: x.1, x.2) := by
  rw [parseUnits.eq_def]
  simp [h]

theorem parseUnits_raw (c : Char) (r : List Char) (hq : c ≠ '"') (hb : c ≠ '\\') :
    parseUnits (c :: r) = (parseUnits r).map fun x => (.char c :: x.1, x.2) := by
  rw [parseUnits.eq_def]
  simp [hq, hb]

/-- The chars that are written as a backslash and another char. -/
def shortForms : List (Char × Char) :=
  [('"', '"'), ('\\', '\\'), ('\x08', 'b'), ('\x0c', 'f'), ('\n', 'n'), ('\r', 'r'), ('\t', 't')]

/-- The three ways in which a char is written. -/
theorem escapeChar_cases (c : Char) :
    (∃ e, (c, e) ∈ shortForms ∧ escapeChar c = ['\\', e]) ∨
      (c.toNat < 0x20 ∧ c ∉ shortForms.map Prod.fst ∧ escapeChar c =
        ['\\', 'u', '0', '0', hexDigit (c.toNat / 16), hexDigit (c.toNat % 16)]) ∨
      (c ≠ '"' ∧ c ≠ '\\' ∧ 0x20 ≤ c.toNat ∧ escapeChar c = [c]) := by
  by_cases hmem : c ∈ shortForms.map Prod.fst
  · obtain ⟨⟨c, e⟩, he, rfl⟩ := List.mem_map.mp hmem
    have hforms : ∀ p ∈ shortForms, escapeChar p.1 = ['\\', p.2] := by decide
    exact .inl ⟨e, he, hforms _ he⟩
  · have hne : ∀ d ∈ shortForms.map Prod.fst, c ≠ d := fun d hd heq => hmem (heq ▸ hd)
    have hother : escapeChar c = if c.toNat < 0x20 then
        ['\\', 'u', '0', '0', hexDigit (c.toNat / 16), hexDigit (c.toNat % 16)] else [c] := by
      unfold escapeChar
      rw [if_neg (hne _ (by decide)), if_neg (hne _ (by decide)), if_neg (hne _ (by decide)),
        if_neg (hne _ (by decide)), if_neg (hne _ (by decide)), if_neg (hne _ (by decide)),
        if_neg (hne _ (by decide))]
    by_cases hctl : c.toNat < 0x20
    · exact .inr (.inl ⟨hctl, hmem, hother.trans (if_pos hctl)⟩)
    · exact .inr (.inr ⟨hne _ (by decide), hne _ (by decide), Nat.not_lt.mp hctl,
        hother.trans (if_neg hctl)⟩)

theorem parseUnits_escapeChar (c : Char) (r : List Char) :
    parseUnits (escapeChar c ++ r) = (parseUnits r).map fun x => (unitOf c :: x.1, x.2) := by
  rcases escapeChar_cases c with ⟨e, he, hc⟩ | ⟨hctl, hmem, hc⟩ | ⟨hq, hb, hctl, hc⟩
  · have hforms : ∀ p ∈ shortForms, p.2 ≠ 'u' ∧ p.2.toNat < 128 ∧ unescape p.2 = p.1 ∧
        ¬(p.1.toNat < 0x20 ∧ p.1 ∉ ['\x08', '\x0c', '\n', '\r', '\t']) := by decide
    obtain ⟨hu, hlt, hback, hchar⟩ := hforms _ he
    have hunit : unitOf c = .char c := if_neg hchar
    rw [hc, hunit]
    exact parseUnits_short e c r hu hlt hback
  · have hcode : hexCode '0' '0' (hexDigit (c.toNat / 16)) (hexDigit (c.toNat % 16)) =
        some c.toNat := by
      have hzero : hexVal '0' = some 0 := by decide
      unfold hexCode
      rw [hzero, hexVal_hexDigit _ (by omega), hexVal_hexDigit _ (by omega)]
      simp only [Option.some.injEq]
      omega
    have hunit : unitOf c = .code c.toNat := by
      refine if_pos ⟨hctl, fun h => hmem ?_⟩
      exact List.mem_cons_of_mem _ (List.mem_cons_of_mem _ h)
    rw [hc, hunit]
    exact parseUnits_code _ _ _ _ r _ hcode
  · have hunit : unitOf c = .char c := if_neg fun h => absurd h.1 (Nat.not_lt.mpr hctl)
    rw [hc, hunit]
    exact parseUnits_raw c r hq hb

theorem parseUnits_escaped (s r : List Char) :
    parseUnits (escaped s ++ '"' :: r) = some (s.map unitOf, r) := by
  induction s with
  | nil => exact parseUnits_quote r
  | cons c s ih =>
    show parseUnits (escapeChar c ++ escaped s ++ '"' :: r) = _
    rw [List.append_assoc, parseUnits_escapeChar, ih]
    rfl

theorem joinUnits_map_unitOf (s : List Char) : joinUnits (s.map unitOf) = s := by
  induction s with
  | nil => rfl
  | cons c s ih =>
    rw [List.map_cons]
    by_cases h : c.toNat < 0x20 ∧ c ∉ ['\x08', '\x0c', '\n', '\r', '\t']
    · have hunit : unitOf c = .code c.toNat := if_pos h
      have hhigh : isHighSurrogate c.toNat = false := by
        unfold isHighSurrogate
        simp
        omega
      have hlow : isLowSurrogate c.toNat = false := by
        unfold isLowSurrogate
        simp
        omega
      have hchar : codeChar c.toNat = c := by
        unfold codeChar
        rw [hhigh, hlow]
        exact Char.ofNat_toNat c
      have hjoin : ∀ l, joinUnits (.code c.toNat :: l) = codeChar c.toNat :: joinUnits l := by
        intro l
        cases l with
        | nil => rfl
        | cons u l =>
          cases u with
          | char d => rfl
          | code m =>
            rw [joinUnits, if_neg (by simp [hhigh])]
      rw [hunit, hjoin, hchar, ih]
    · have hunit : unitOf c = .char c := if_neg h
      rw [hunit]
      show c :: joinUnits (s.map unitOf) = _
      rw [ih]

theorem parseString_quoted (s : String) (r : List Char) :
    parseString (escaped s.toList ++ '"' :: r) = some (s, r) := by
  unfold parseString
  rw [parseUnits_escaped, Option.map_some, joinUnits_map_unitOf, String.ofList_toList]

/-! ## Values -/

def isNumberChar (c : Char) : Bool :=
  c.isDigit || c = '+' || c = '-' || c = '.' || c = 'e' || c = 'E'

/-- How numbers are written and read. -/
structure NumberFormat (ν : Type) where
  write : ν → List Char
  read : List Char → Option ν
  ne_nil : ∀ n, write n ≠ []
  chars : ∀ n, ∀ c ∈ write n, isNumberChar c = true

/-- The number is read back as it is. -/
def NumberFormat.Exact {ν : Type} (f : NumberFormat ν) (n : ν) : Prop := f.read (f.write n) = some n

/-- Items that follow a first one, and the closing bracket. -/
def closeItems (close : Char) : List (List Char) → List Char
  | [] => [close]
  | t :: l => ',' :: t ++ closeItems close l

def enclose (open' close : Char) : List (List Char) → List Char
  | [] => [open', close]
  | t :: l => open' :: t ++ closeItems close l

def isSpace (c : Char) : Bool := c = ' ' || c = '\t' || c = '\n' || c = '\r'

def skipSpaces (t : List Char) : List Char := t.dropWhile isSpace

section
variable {α : Type} (item : List Char → Option (α × List Char)) (close : Char)

/-- Items up to the closing bracket; there are no more of them than chars left. -/
def parseItems : ℕ → List Char → Option (List α × List Char)
  | 0, _ => none
  | n + 1, t =>
    match item t with
    | none => none
    | some (a, r) =>
      match skipSpaces r with
      | [] => none
      | c :: r =>
        if c = ',' then (parseItems n r).map fun x => (a :: x.1, x.2)
        else if c = close then some ([a], r)
        else none

/-- What follows an opening bracket. -/
def parseEnclosed (t : List Char) : Option (List α × List Char) :=
  match skipSpaces t with
  | [] => none
  | c :: r => if c = close then some ([], r) else parseItems item close t.length (c :: r)

end

namespace Json

variable {ν : Type} (f : NumberFormat ν)

def writeMember (e : String × List Char) : List Char := quoted e.1 ++ ':' :: e.2

def write : Json ν → List Char :=
  fold "null".toList (fun b => if b then "true".toList else "false".toList) f.write quoted
    (enclose '[' ']') (fun l => enclose '{' '}' (l.map writeMember))

/-- A value that is neither a string nor in brackets. -/
def parseScalar (t : List Char) : Option (Json ν × List Char) :=
  if "null".toList.isPrefixOf t then some (.null, t.drop 4)
  else if "true".toList.isPrefixOf t then some (.bool true, t.drop 4)
  else if "false".toList.isPrefixOf t then some (.bool false, t.drop 5)
  else (f.read (t.takeWhile isNumberChar)).map fun n => (.num n, t.dropWhile isNumberChar)

/-- A key, a colon and a value. -/
def parseMember (value : List Char → Option (Json ν × List Char)) (t : List Char) :
    Option ((String × Json ν) × List Char) :=
  match skipSpaces t with
  | [] => none
  | c :: r =>
    if c = '"' then
      (parseString r).bind fun k =>
        match skipSpaces k.2 with
        | [] => none
        | c :: r => if c = ':' then (value r).map fun v => ((k.1, v.1), v.2) else none
    else none

/-- A value with no more nested brackets than the depth. -/
def parseValue : ℕ → List Char → Option (Json ν × List Char)
  | d, t =>
    match skipSpaces t with
    | [] => none
    | c :: r =>
      if c = '"' then (parseString r).map fun x => (.str x.1, x.2)
      else if c = '[' then
        match d with
        | 0 => none
        | d + 1 => (parseEnclosed (parseValue d) ']' r).map fun x => (.arr x.1, x.2)
      else if c = '{' then
        match d with
        | 0 => none
        | d + 1 =>
          (parseEnclosed (parseMember (parseValue d)) '}' r).map fun x => (.obj x.1, x.2)
      else parseScalar f (c :: r)

/-- A text that is one value. -/
def parse (limit : ℕ) (t : List Char) : Option (Json ν) :=
  match parseValue f limit t with
  | none => none
  | some (j, r) => if skipSpaces r = [] then some j else none

end Json

/-! ### What is written is read back -/

/-- The text that follows a value does not go on with a number. -/
def Ends (r : List Char) : Prop := ∀ c ∈ r.head?, isNumberChar c = false

theorem ends_cons (c : Char) (r : List Char) (h : isNumberChar c = false) : Ends (c :: r) := by
  intro d hd
  obtain rfl : c = d := by simpa using hd
  exact h

theorem skipSpaces_cons (c : Char) (r : List Char) (h : isSpace c = false) :
    skipSpaces (c :: r) = c :: r := by
  unfold skipSpaces
  rw [List.dropWhile_cons_of_neg (by simp [h])]

theorem length_closeItems (close : Char) (l : List (List Char)) :
    l.length < (closeItems close l).length := by
  induction l with
  | nil => exact Nat.zero_lt_one
  | cons t l ih =>
    unfold closeItems
    rw [List.cons_append, List.length_cons, List.length_cons, List.length_append]
    omega

/-- A bracket that closes: it is no comma, no space and no part of a number. -/
structure Closes (close : Char) : Prop where
  comma : close ≠ ','
  space : isSpace close = false
  number : isNumberChar close = false

section
variable {α : Type} (item : List Char → Option (α × List Char)) (close : Char) (text : α → List Char)

theorem ends_closeItems (hc : Closes close) (l : List (List Char)) (r : List Char) :
    Ends (closeItems close l ++ r) := by
  cases l with
  | nil => exact ends_cons close r hc.number
  | cons t l => exact ends_cons ',' _ (by decide)

theorem parseItems_comma (n : ℕ) (t : List Char) (a : α) (r : List Char)
    (h : item t = some (a, ',' :: r)) : parseItems item close (n + 1) t =
      (parseItems item close n r).map fun x => (a :: x.1, x.2) := by
  rw [parseItems, h]
  simp only [skipSpaces_cons ',' r (by decide), if_pos]

theorem parseItems_close (hc : Closes close) (n : ℕ) (t : List Char) (a : α) (r : List Char)
    (h : item t = some (a, close :: r)) :
    parseItems item close (n + 1) t = some ([a], r) := by
  rw [parseItems, h]
  simp only [skipSpaces_cons close r hc.space, if_neg hc.comma, if_pos]

theorem parseItems_closeItems (hc : Closes close) (l : List α) (a : α)
    (hitem : ∀ b ∈ a :: l, ∀ r, Ends r → item (text b ++ r) = some (b, r)) (n : ℕ)
    (hn : l.length < n) (r : List Char) :
    parseItems item close n (text a ++ closeItems close (l.map text) ++ r) = some (a :: l, r) := by
  obtain ⟨n, rfl⟩ : ∃ m, n = m + 1 := ⟨n - 1, by omega⟩
  induction l generalizing a n with
  | nil =>
    have ha := hitem a List.mem_cons_self _ (ends_closeItems close hc [] r)
    rw [List.append_assoc]
    exact parseItems_close item close hc n _ a r ha
  | cons b l ih =>
    obtain ⟨n, rfl⟩ : ∃ m, n = m + 1 := ⟨n - 1, by simp at hn; omega⟩
    have ha := hitem a List.mem_cons_self _
      (ends_closeItems close hc (text b :: l.map text) r)
    have hrest := ih b (fun d hd => hitem d (List.mem_cons_of_mem a hd)) n (by simpa using hn)
    have hclose : closeItems close (text b :: l.map text) ++ r =
        ',' :: (text b ++ closeItems close (l.map text) ++ r) := rfl
    rw [List.map_cons, List.append_assoc]
    rw [hclose] at ha ⊢
    rw [parseItems_comma item close _ _ a _ ha, hrest]
    rfl

/-- Items are read back when each is, and none starts like a space or the closing bracket. -/
theorem parseEnclosed_enclose (hc : Closes close) (open' : Char) (l : List α)
    (hitem : ∀ b ∈ l, ∀ r, Ends r → item (text b ++ r) = some (b, r))
    (hhead : ∀ b ∈ l, ∃ c t, text b = c :: t ∧ isSpace c = false ∧ c ≠ close) (r : List Char) :
    ∃ t, enclose open' close (l.map text) ++ r = open' :: t ∧
      parseEnclosed item close t = some (l, r) := by
  cases l with
  | nil =>
    refine ⟨close :: r, rfl, ?_⟩
    unfold parseEnclosed
    rw [skipSpaces_cons close r hc.space]
    exact if_pos rfl
  | cons a l =>
    obtain ⟨c, t, hct, hspace, hne⟩ := hhead a List.mem_cons_self
    refine ⟨text a ++ closeItems close (l.map text) ++ r, rfl, ?_⟩
    have hlen := length_closeItems close (l.map text)
    rw [List.length_map] at hlen
    have hitems := parseItems_closeItems item close text hc l a hitem
      (text a ++ closeItems close (l.map text) ++ r).length
      (by rw [List.length_append, List.length_append]; omega) r
    have hskip : skipSpaces (text a ++ closeItems close (l.map text) ++ r) =
        c :: (t ++ closeItems close (l.map text) ++ r) := by
      rw [hct]
      exact skipSpaces_cons c _ hspace
    unfold parseEnclosed
    rw [hskip]
    simp only [if_neg hne]
    rw [← hitems, hct]
    rfl

end

theorem closes_bracket : Closes ']' := ⟨by decide, by decide, by decide⟩

theorem closes_brace : Closes '}' := ⟨by decide, by decide, by decide⟩

namespace Json

variable {ν : Type} (f : NumberFormat ν)

theorem write_arr (l : List (Json ν)) : write f (.arr l) = enclose '[' ']' (l.map (write f)) :=
  fold_arr _ _ _ _ _ _ l

theorem write_obj (l : List (String × Json ν)) :
    write f (.obj l) = enclose '{' '}' (l.map fun e => writeMember (e.1, write f e.2)) := by
  unfold write
  rw [fold_obj, List.map_map]
  rfl

/-- A number starts with a char of its own. -/
theorem write_num_cons (n : ν) : ∃ c t, f.write n = c :: t ∧ isNumberChar c = true := by
  cases h : f.write n with
  | nil => exact absurd h (f.ne_nil n)
  | cons c t => exact ⟨c, t, rfl, f.chars n c (h ▸ List.mem_cons_self)⟩

/-- What no number starts with. -/
theorem ne_of_isNumberChar (c d : Char) (hc : isNumberChar c = true) (hd : isNumberChar d = false) :
    c ≠ d := by
  rintro rfl
  rw [hc] at hd
  cases hd

theorem write_cons (j : Json ν) : ∃ c t, write f j = c :: t ∧ isSpace c = false ∧ c ≠ ']' := by
  have hbrackets : ∀ (o c : Char) (l : List (List Char)), ∃ t, enclose o c l = o :: t := by
    intro o c l
    cases l with
    | nil => exact ⟨[c], rfl⟩
    | cons t l => exact ⟨_, rfl⟩
  cases j with
  | null => exact ⟨'n', _, rfl, by decide, by decide⟩
  | bool b =>
    cases b with
    | false => exact ⟨'f', _, rfl, by decide, by decide⟩
    | true => exact ⟨'t', _, rfl, by decide, by decide⟩
  | num n =>
    obtain ⟨c, t, hct, hc⟩ := write_num_cons f n
    have hne := fun d => ne_of_isNumberChar c d hc
    refine ⟨c, t, hct, ?_, hne ']' (by decide)⟩
    unfold isSpace
    simp [hne ' ' (by decide), hne '\t' (by decide), hne '\n' (by decide), hne '\r' (by decide)]
  | str s => exact ⟨'"', _, rfl, by decide, by decide⟩
  | arr l =>
    obtain ⟨t, ht⟩ := hbrackets '[' ']' (l.map (write f))
    exact ⟨'[', t, (write_arr f l).trans ht, by decide, by decide⟩
  | obj l =>
    obtain ⟨t, ht⟩ := hbrackets '{' '}' (l.map fun e => writeMember (e.1, write f e.2))
    exact ⟨'{', t, (write_obj f l).trans ht, by decide, by decide⟩

theorem parseScalar_num (n : ν) (hn : f.Exact n) (r : List Char) (hr : Ends r) :
    parseScalar f (f.write n ++ r) = some (.num n, r) := by
  obtain ⟨c, t, hct, hc⟩ := write_num_cons f n
  have hprefix : ∀ (d : Char) (u : List Char), isNumberChar d = false →
      (d :: u).isPrefixOf (f.write n ++ r) = false := by
    intro d u hd
    have hne := ne_of_isNumberChar c d hc hd
    rw [hct]
    simp [List.isPrefixOf, hne.symm]
  have hspan : (f.write n ++ r).takeWhile isNumberChar = f.write n ∧
      (f.write n ++ r).dropWhile isNumberChar = r := by
    rw [List.takeWhile_append_of_pos (f.chars n), List.dropWhile_append_of_pos (f.chars n)]
    cases r with
    | nil => simp
    | cons d r =>
      have hd : isNumberChar d = false := hr d rfl
      simp [hd]
  unfold parseScalar
  rw [show "null".toList = 'n' :: "ull".toList from rfl, hprefix _ _ (by decide),
    show "true".toList = 't' :: "rue".toList from rfl, hprefix _ _ (by decide),
    show "false".toList = 'f' :: "alse".toList from rfl, hprefix _ _ (by decide),
    hspan.1, hspan.2, hn]
  rfl

/-- The first char of a text that is neither a string nor in brackets. -/
theorem parseValue_scalar (d : ℕ) (c : Char) (t : List Char) (hs : isSpace c = false)
    (hc : c ∉ ['"', '[', '{']) : parseValue f d (c :: t) = parseScalar f (c :: t) := by
  simp only [List.mem_cons, List.not_mem_nil, or_false, not_or] at hc
  unfold parseValue
  rw [skipSpaces_cons c t hs]
  simp only [if_neg hc.1, if_neg hc.2.1, if_neg hc.2.2]

theorem parseValue_arr (d : ℕ) (t : List Char) : parseValue f (d + 1) ('[' :: t) =
    (parseEnclosed (parseValue f d) ']' t).map fun x => (.arr x.1, x.2) := by
  rw [parseValue, skipSpaces_cons '[' t (by decide)]
  rfl

theorem parseValue_obj (d : ℕ) (t : List Char) : parseValue f (d + 1) ('{' :: t) =
    (parseEnclosed (parseMember (parseValue f d)) '}' t).map fun x => (.obj x.1, x.2) := by
  rw [parseValue, skipSpaces_cons '{' t (by decide)]
  rfl

theorem parseValue_str (d : ℕ) (t : List Char) : parseValue f d ('"' :: t) =
    (parseString t).map fun x => (.str x.1, x.2) := by
  unfold parseValue
  rw [skipSpaces_cons '"' t (by decide)]
  rfl

theorem parseMember_write (value : List Char → Option (Json ν × List Char)) (e : String × Json ν)
    (r : List Char) (hv : value (write f e.2 ++ r) = some (e.2, r)) :
    parseMember value (writeMember (e.1, write f e.2) ++ r) = some (e, r) := by
  have htext : writeMember (e.1, write f e.2) ++ r =
      '"' :: (escaped e.1.toList ++ '"' :: ':' :: (write f e.2 ++ r)) := by
    unfold writeMember quoted
    simp
  unfold parseMember
  rw [htext, skipSpaces_cons '"' _ (by decide)]
  simp only [if_pos, parseString_quoted, Option.bind_some]
  rw [skipSpaces_cons ':' _ (by decide)]
  simp only [if_pos, hv]
  rfl

/-- **A value is read back from its text**, whatever follows it. -/
theorem parseValue_write (j : Json ν) (hex : ∀ n ∈ j.numbers, f.Exact n) (d : ℕ)
    (hd : j.depth ≤ d) (r : List Char) (hr : Ends r) :
    parseValue f d (write f j ++ r) = some (j, r) := by
  induction j using induct generalizing d r with
  | null => exact parseValue_scalar f d 'n' _ (by decide) (by decide)
  | bool b =>
    cases b with
    | false => exact parseValue_scalar f d 'f' _ (by decide) (by decide)
    | true => exact parseValue_scalar f d 't' _ (by decide) (by decide)
  | num n =>
    obtain ⟨c, t, hct, hc⟩ := write_num_cons f n
    obtain ⟨c', t', hct', hspace, -⟩ := write_cons f (.num n)
    obtain ⟨rfl, -⟩ := List.cons.inj (hct.symm.trans hct')
    have hne := fun d => ne_of_isNumberChar c d hc
    have hscalar := parseScalar_num f n (hex n (List.mem_singleton.mpr rfl)) r hr
    rw [show write f (.num n) = f.write n from rfl]
    rw [hct] at hscalar ⊢
    rw [List.cons_append] at hscalar ⊢
    rw [parseValue_scalar f d c _ hspace (by
      simp [hne '"' (by decide), hne '[' (by decide), hne '{' (by decide)]), hscalar]
  | str s =>
    have htext : write f (.str s) ++ r = '"' :: (escaped s.toList ++ '"' :: r) := by
      show quoted s ++ r = _
      unfold quoted
      simp
    rw [htext, parseValue_str, parseString_quoted]
    rfl
  | arr l ih =>
    obtain ⟨d, rfl, hall⟩ := (depth_arr_le_iff l d).mp hd
    rw [numbers_arr] at hex
    obtain ⟨t, ht, hparse⟩ := parseEnclosed_enclose (parseValue f d) ']' (write f) closes_bracket
      '[' l
      (fun j hj r hr => ih j hj (fun n hn => hex n (List.mem_flatMap.mpr ⟨j, hj, hn⟩)) d
        (hall j hj) r hr)
      (fun j _ => write_cons f j) r
    rw [write_arr, ht, parseValue_arr, hparse]
    rfl
  | obj l ih =>
    obtain ⟨d, rfl, hall⟩ := (depth_obj_le_iff l d).mp hd
    rw [numbers_obj] at hex
    obtain ⟨t, ht, hparse⟩ := parseEnclosed_enclose (parseMember (parseValue f d)) '}'
      (fun e : String × Json ν => writeMember (e.1, write f e.2)) closes_brace '{' l
      (fun e he r hr => parseMember_write f _ e r
        (ih e he (fun n hn => hex n (List.mem_flatMap.mpr ⟨e, he, hn⟩)) d (hall e he) r hr))
      (fun e _ => ⟨'"', _, rfl, by decide, by decide⟩) r
    rw [write_obj, ht, parseValue_obj, hparse]
    rfl

theorem parse_write (limit : ℕ) (j : Json ν) (hex : ∀ n ∈ j.numbers, f.Exact n)
    (hd : j.depth ≤ limit) : parse f limit (write f j) = some j := by
  have h := parseValue_write f j hex limit hd [] (fun c hc => by simp at hc)
  rw [List.append_nil] at h
  unfold parse
  rw [h]
  rfl

end Json

end Ost.Lib
