import Ost.Fidelity
import Ost.Lib.JsonStrings
import Ost.Lib.SqlText
import Ost.Lib.Words
import Mathlib.Logic.Function.Basic

/-!
# The texts of the stored profiles

A profile is stored as the text of a JSON object, in a row of its module type and its name.  The
statements are put together from these texts as they are, and the bytes of the object's text are
stored as if each were a char.

Algorithm:
- `setDbProfile`, `getDbProfile`, with a database that opens;
- `exec` is what SQLite does with a statement that is made of literals; what it makes of any other
  text is left open.

Main theorems:
    profileText_iff:   a profile is read back as it was saved exactly if the quotes of its type and
      name come in pairs, its strings are plain and it is not nested too deep, and the statements
      of the writes in between are made of literals
    profileText_fails: the profile of an object with the name "é"
-/

namespace Ost

open Lib

/-! ## Algorithm -/

/-- The rows of the table: the text of a profile, by module type and profile name. -/
abbrev Profiles := String × String → Option String

/-- `QString::toUtf8` -/
def utf8 (t : List Char) : List UInt8 := t.flatMap String.utf8EncodeChar

/-- `QLatin1String`: a char for each byte. -/
def latin1 (bytes : List UInt8) : List Char := bytes.map fun b => Char.ofNat b.toNat

def insertHead : List Char :=
  "INSERT OR REPLACE INTO PROFILES ('MODULETYPE','PROFILENAME','ALLVALUES') VALUES ('".toList

def insertParts : List (List Char) := ["','".toList, "','".toList, "');".toList]

def selectHead : List Char := "SELECT ALLVALUES FROM PROFILES WHERE MODULETYPE='".toList

def selectParts : List (List Char) := ["' AND PROFILENAME='".toList, "'".toList]

/-- The literals of a statement, if it has no zero char, at which it would end. -/
def literals (head : List Char) (parts : List (List Char)) (sql : String) :
    Option (List (List Char)) :=
  if '\x00' ∈ sql.toList then none else Sql.read head parts sql.toList

/-- The row that a statement of literals inserts, and its text. -/
def insertOf (sql : String) : Option ((String × String) × String) :=
  match literals insertHead insertParts sql with
  | some [a, b, c] => some ((String.ofList a, String.ofList b), String.ofList c)
  | _ => none

/-- The row that a statement of literals selects. -/
def selectOf (sql : String) : Option (String × String) :=
  match literals selectHead selectParts sql with
  | some [a, b] => some (String.ofList a, String.ofList b)
  | _ => none

/-- SQLite, with what it makes of a text that is not one of the statements: nothing if it fails,
or else the rows of the result and the table afterwards. -/
structure Sqlite where
  other : String → Profiles → Option (List String × Profiles)

/-- A call of `setDbProfile`. -/
structure ProfileWrite where
  moduleType : String
  profileName : String
  content : QJsonObject

namespace ProfileWrite

variable (num : NumberFormat ℚ)

/-- The text of the object. -/
def json (w : ProfileWrite) : List Char := Json.write num (Json.object w.content)

def strJson (w : ProfileWrite) : String := String.ofList (latin1 (utf8 (w.json num)))

/-- The statement of `setDbProfile`. -/
def insertSql (w : ProfileWrite) : String :=
  "INSERT OR REPLACE INTO PROFILES ('MODULETYPE','PROFILENAME','ALLVALUES') VALUES ('" ++
    w.moduleType ++ "','" ++ w.profileName ++ "','" ++ w.strJson num ++ "');"

/-- The statement of `getDbProfile`. -/
def selectSql (w : ProfileWrite) : String :=
  "SELECT ALLVALUES FROM PROFILES WHERE MODULETYPE='" ++ w.moduleType ++ "' AND PROFILENAME='" ++
    w.profileName ++ "'"

end ProfileWrite

namespace Sqlite

def exec (q : Sqlite) (sql : String) (db : Profiles) : Option (List String × Profiles) :=
  match insertOf sql, selectOf sql with
  | some (row, text), _ => some ([], Function.update db row (some text))
  | none, some row => some ((db row).toList, db)
  | none, none => q.other sql db

variable (num : NumberFormat ℚ)

def setDbProfile (q : Sqlite) (db : Profiles) (w : ProfileWrite) : Bool × Profiles :=
  match q.exec (w.insertSql num) db with
  | none => (false, db)
  | some (_, db) => (true, db)

/-- The object that is read, if there is one. -/
def getDbProfile (q : Sqlite) (db : Profiles) (w : ProfileWrite) : Option QJsonObject :=
  match q.exec w.selectSql db with
  | some (text :: _, _) => some (jsonObject num text.toList)
  | _ => none

/-- Writes one after the other. -/
def setAll (q : Sqlite) (ws : List ProfileWrite) (db : Profiles) : Profiles :=
  ws.foldl (fun db w => (q.setDbProfile num db w).2) db

/-- The profile is saved, and read back after other writes. -/
def RoundTrip (q : Sqlite) (w : ProfileWrite) (ws : List ProfileWrite) : Prop :=
  ∀ db, ∃ db', q.setDbProfile num db w = (true, db') ∧
    ∃ content, q.getDbProfile num (q.setAll num ws db') w = some content ∧
      (Json.object content).norm = (Json.object w.content).norm

end Sqlite

/-! ## What the round trip takes -/

/-- The quotes come in pairs. -/
def WellQuoted (s : String) : Prop := '\x00' ∉ s.toList ∧ ∃ v, s.toList = Sql.doubled v

namespace ProfileWrite

variable (num : NumberFormat ℚ)

/-- A write to another key: with other names, and not into the same row.  Names are put into the
statements as they are, so that other names may address the row of these (a quote that is doubled is
one quote), and such a write does replace the profile.  With names that are quoted well there are
none (`otherKey_of_wellQuoted`). -/
def OtherKey (w w' : ProfileWrite) : Prop :=
  (w'.moduleType, w'.profileName) ≠ (w.moduleType, w.profileName) ∧
  ∀ x y, insertOf (w.insertSql num) = some x → insertOf (w'.insertSql num) = some y → y.1 ≠ x.1

/-- The statement of the write is made of literals. -/
def Literal (w : ProfileWrite) : Prop := (insertOf (w.insertSql num)).isSome = true

/-- The strings of the object are plain, and it is not nested too deep. -/
structure Plain (w : ProfileWrite) : Prop where
  strings : ∀ s ∈ (Json.object w.content).strings, ∀ c ∈ s.toList, c.toNat < 128 ∧ c ≠ '\''
  depth : (Json.object w.content).depth ≤ nestingLimit

structure Safe (w : ProfileWrite) : Prop where
  moduleType : WellQuoted w.moduleType
  profileName : WellQuoted w.profileName
  plain : w.Plain

end ProfileWrite

/-! ## Bytes as chars -/

theorem latin1_utf8_append (s t : List Char) :
    latin1 (utf8 (s ++ t)) = latin1 (utf8 s) ++ latin1 (utf8 t) := by
  unfold latin1 utf8
  rw [List.flatMap_append, List.map_append]

theorem latin1_utf8_cons (c : Char) (t : List Char) :
    latin1 (utf8 (c :: t)) = latin1 (utf8 [c]) ++ latin1 (utf8 t) :=
  latin1_utf8_append [c] t

theorem latin1_utf8_ascii (c : Char) (h : c.toNat < 128) : latin1 (utf8 [c]) = [c] := by
  have hbyte : String.utf8EncodeChar c = [UInt8.ofNat c.toNat] := if_pos (by
    show c.val.toNat ≤ 127
    exact Nat.le_of_lt_succ h)
  have hval : (UInt8.ofNat c.toNat).toNat = c.toNat := by
    rw [UInt8.toNat_ofNat']
    omega
  unfold latin1 utf8
  rw [List.flatMap_singleton, hbyte, List.map_singleton, hval, Char.ofNat_toNat]

/-- A char of more than one byte: none of its bytes is that of another char. -/
theorem latin1_utf8_wide (c : Char) (h : ¬c.toNat < 128) :
    2 ≤ (latin1 (utf8 [c])).length ∧ ∀ d ∈ latin1 (utf8 [c]), 128 ≤ d.toNat := by
  have hchar : ∀ n < 256, (Char.ofNat n).toNat = n := by decide +kernel
  have hbyte : ∀ n, 128 ≤ n → n < 256 → 128 ≤ (Char.ofNat (UInt8.ofNat n).toNat).toNat := by
    intro n hn hlt
    have hval : (UInt8.ofNat n).toNat = n := by
      rw [UInt8.toNat_ofNat']
      omega
    rw [hval, hchar n hlt]
    exact hn
  have hval : c.toNat = c.val.toNat := rfl
  have hmax : c.val.toNat < 0x110000 := by
    have := c.valid
    unfold UInt32.isValidChar Nat.isValidChar at this
    omega
  unfold latin1 utf8
  rw [List.flatMap_singleton]
  unfold String.utf8EncodeChar
  simp only
  rw [if_neg (by omega)]
  split
  · simp only [List.map_cons, List.map_nil, List.forall_mem_cons]
    exact ⟨le_rfl, hbyte _ (by omega) (by omega), hbyte _ (by omega) (by omega), nofun⟩
  split
  · simp only [List.map_cons, List.map_nil, List.forall_mem_cons]
    exact ⟨by simp, hbyte _ (by omega) (by omega), hbyte _ (by omega) (by omega),
      hbyte _ (by omega) (by omega), nofun⟩
  · simp only [List.map_cons, List.map_nil, List.forall_mem_cons]
    exact ⟨by simp, hbyte _ (by omega) (by omega), hbyte _ (by omega) (by omega),
      hbyte _ (by omega) (by omega), hbyte _ (by omega) (by omega), nofun⟩

theorem latin1_utf8_of_ascii (t : List Char) (h : ∀ c ∈ t, c.toNat < 128) :
    latin1 (utf8 t) = t := by
  induction t with
  | nil => rfl
  | cons c t ih =>
    rw [List.forall_mem_cons] at h
    rw [latin1_utf8_cons, latin1_utf8_ascii c h.1, ih h.2]
    rfl

theorem toNat_lt_of_isFixed (c : Char) (h : isFixed c = true) : c.toNat < 128 := by
  unfold isFixed at h
  rw [Bool.and_eq_true] at h
  exact of_decide_eq_true h.1

theorem ne_quote_of_isFixed (c : Char) (h : isFixed c = true) : c ≠ '\'' := by
  unfold isFixed at h
  rw [Bool.and_eq_true] at h
  exact of_decide_eq_true h.2

theorem textMap_latin1 : TextMap fun t => latin1 (utf8 t) where
  nil := rfl
  split a c b hc := by
    show latin1 (utf8 (a ++ c :: b)) = latin1 (utf8 a) ++ c :: latin1 (utf8 b)
    rw [latin1_utf8_append, latin1_utf8_cons c b, latin1_utf8_ascii c (toNat_lt_of_isFixed c hc)]
    rfl
  escaped s := by
    have hkept : ∀ t : List Char, (∀ d ∈ t, isFixed d = false) → escaped t = t := by
      intro t ht
      induction t with
      | nil => rfl
      | cons d t ih =>
        rw [List.forall_mem_cons] at ht
        show escapeChar d ++ escaped t = d :: t
        rw [escapeChar_of_not_fixed d ht.1, ih ht.2]
        rfl
    induction s with
    | nil => rfl
    | cons c s ih =>
      show latin1 (utf8 (escapeChar c ++ escaped s)) = escaped (latin1 (utf8 (c :: s)))
      have happend : ∀ u v : List Char, escaped (u ++ v) = escaped u ++ escaped v := fun u v =>
        List.flatMap_append
      rw [latin1_utf8_append, latin1_utf8_cons, happend, ih]
      refine congrArg (· ++ _) ?_
      by_cases hc : c.toNat < 128
      · rw [latin1_utf8_ascii c hc]
        have hsingle : escaped [c] = escapeChar c := List.flatMap_singleton _ _
        rw [hsingle]
        cases hfixed : isFixed c with
        | true =>
          exact latin1_utf8_of_ascii _ fun d hd =>
            toNat_lt_of_isFixed d (isFixed_escapeChar c hfixed d hd)
        | false =>
          rw [escapeChar_of_not_fixed c hfixed]
          exact latin1_utf8_ascii c hc
      · have hwide : ∀ d : Char, 128 ≤ d.toNat → isFixed d = false := fun d hd => by
          unfold isFixed
          rw [Bool.and_eq_false_iff]
          exact .inl (decide_eq_false (by omega))
        rw [escapeChar_of_not_fixed c (hwide c (by omega)),
          hkept _ fun d hd => hwide d ((latin1_utf8_wide c hc).2 d hd)]

/-! ## Quotes made one -/

theorem undoubled_append (a b : List Char) (h : '\'' ∉ a) :
    Sql.undoubled (a ++ b) = a ++ Sql.undoubled b := by
  induction a with
  | nil => rfl
  | cons c a ih =>
    rw [List.mem_cons, not_or] at h
    rw [List.cons_append, Sql.undoubled_cons c _ (Ne.symm h.1), ih h.2]
    rfl

theorem undoubled_quote_cons (t : List Char) (h : t.head? ≠ some '\'') :
    Sql.undoubled ('\'' :: t) = '\'' :: Sql.undoubled t := by
  cases t with
  | nil => rfl
  | cons d t =>
    have hd : d ≠ '\'' := fun heq => h (congrArg some heq)
    conv_lhs => unfold Sql.undoubled
    simp [hd]

theorem textMap_undoubled : TextMap Sql.undoubled where
  nil := rfl
  split a c b hc := by
    have hne := ne_quote_of_isFixed c hc
    fun_induction Sql.undoubled a with
    | case1 => exact Sql.undoubled_cons c b hne
    | case2 d r hd ih => rw [List.cons_append, Sql.undoubled_cons d _ hd, ih]; rfl
    | case3 d hd =>
      obtain rfl : d = '\'' := not_not.mp hd
      show Sql.undoubled ('\'' :: c :: b) = _
      rw [undoubled_quote_cons (c :: b) fun h => hne (Option.some.inj h), Sql.undoubled_cons c b hne]
      rfl
    | case4 d hd r ih =>
      obtain rfl : d = '\'' := not_not.mp hd
      rw [List.cons_append, List.cons_append, Sql.undoubled_quote, ih]
      rfl
    | case5 d hd e r he ih =>
      obtain rfl : d = '\'' := not_not.mp hd
      rw [List.cons_append,
        undoubled_quote_cons (e :: r ++ c :: b) fun h => he (Option.some.inj h), ih]
      rfl
  escaped s := by
    have hone : ∀ c t, c ≠ '\'' →
        Sql.undoubled (escapeChar c ++ t) = escapeChar c ++ Sql.undoubled t := by
      intro c t hc
      refine undoubled_append _ t fun hmem => ?_
      cases hfixed : isFixed c with
      | true => exact ne_quote_of_isFixed _ (isFixed_escapeChar c hfixed _ hmem) rfl
      | false =>
        rw [escapeChar_of_not_fixed c hfixed, List.mem_singleton] at hmem
        exact hc hmem.symm
    have hcons : ∀ c t, escaped (c :: t) = escapeChar c ++ escaped t := fun _ _ => rfl
    have hquote : escapeChar '\'' = ['\''] := by decide
    fun_induction Sql.undoubled s with
    | case1 => rfl
    | case2 c r hc ih => rw [hcons, hone c _ hc, ih, hcons]
    | case3 c hc =>
      obtain rfl : c = '\'' := not_not.mp hc
      decide
    | case4 c hc r ih =>
      obtain rfl : c = '\'' := not_not.mp hc
      rw [hcons, hcons, hcons, hquote]
      show Sql.undoubled ('\'' :: '\'' :: escaped r) = '\'' :: escaped (Sql.undoubled r)
      rw [Sql.undoubled_quote, ih]
    | case5 c hc d r hd ih =>
      obtain rfl : c = '\'' := not_not.mp hc
      have hhead : (escaped (d :: r)).head? ≠ some '\'' := by
        rw [hcons]
        cases hfixed : isFixed d with
        | true =>
          intro h
          obtain ⟨e, t, het⟩ : ∃ e t, escapeChar d = e :: t := by
            obtain ⟨e, t, het, -⟩ := escapeChar_head d
            exact ⟨e, t, het⟩
          rw [het] at h
          refine ne_quote_of_isFixed e (isFixed_escapeChar d hfixed e ?_) (Option.some.inj h)
          rw [het]
          exact List.mem_cons_self
        | false =>
          rw [escapeChar_of_not_fixed d hfixed]
          exact fun h => hd (Option.some.inj h)
      rw [hcons '\'' (d :: r), hquote]
      show Sql.undoubled ('\'' :: escaped (d :: r)) = escapeChar '\'' ++ escaped (Sql.undoubled (d :: r))
      rw [undoubled_quote_cons _ hhead, ih, hquote]
      rfl

/-- What is stored of a text that is put between quotes as bytes. -/
def stored (t : List Char) : List Char := Sql.undoubled (latin1 (utf8 t))

theorem textMap_stored : TextMap stored := textMap_undoubled.comp textMap_latin1

/-! ## The statements -/

theorem parts_insert : Sql.Parts insertParts :=
  ⟨.inr ⟨',', ['\''], rfl, by decide⟩, .inr ⟨',', ['\''], rfl, by decide⟩,
    .inr ⟨')', [';'], rfl, by decide⟩, trivial⟩

theorem parts_select : Sql.Parts selectParts :=
  ⟨.inr ⟨' ', "AND PROFILENAME='".toList, by decide, by decide⟩, .inl ⟨rfl, rfl⟩, trivial⟩

theorem literals_iff (head : List Char) (parts : List (List Char)) (hparts : Sql.Parts parts)
    (sql : String) (vs : List (List Char)) :
    literals head parts sql = some vs ↔ '\x00' ∉ sql.toList ∧ vs.length = parts.length ∧
      sql.toList = Sql.fill head parts (vs.map Sql.doubled) := by
  unfold literals
  split
  · next hzero => exact iff_of_false nofun fun h => h.1 hzero
  · next hzero => rw [Sql.read_iff head parts hparts, and_iff_right hzero]

theorem insertOf_iff (sql : String) (row : String × String) (text : String) :
    insertOf sql = some (row, text) ↔ '\x00' ∉ sql.toList ∧ sql.toList =
      Sql.fill insertHead insertParts
        [Sql.doubled row.1.toList, Sql.doubled row.2.toList, Sql.doubled text.toList] := by
  have hiff := literals_iff insertHead insertParts parts_insert sql
  unfold insertOf
  constructor
  · intro h
    split at h
    · next a b c hread =>
      cases h
      obtain ⟨hzero, -, htext⟩ := (hiff _).mp hread
      simp only [String.toList_ofList]
      exact ⟨hzero, htext⟩
    · cases h
  · rintro ⟨hzero, htext⟩
    rw [(hiff [row.1.toList, row.2.toList, text.toList]).mpr ⟨hzero, rfl, htext⟩]
    simp only [String.ofList_toList]

theorem selectOf_iff (sql : String) (row : String × String) :
    selectOf sql = some row ↔ '\x00' ∉ sql.toList ∧ sql.toList =
      Sql.fill selectHead selectParts [Sql.doubled row.1.toList, Sql.doubled row.2.toList] := by
  have hiff := literals_iff selectHead selectParts parts_select sql
  unfold selectOf
  constructor
  · intro h
    split at h
    · next a b hread =>
      cases h
      obtain ⟨hzero, -, htext⟩ := (hiff _).mp hread
      simp only [String.toList_ofList]
      exact ⟨hzero, htext⟩
    · cases h
  · rintro ⟨hzero, htext⟩
    rw [(hiff [row.1.toList, row.2.toList]).mpr ⟨hzero, rfl, htext⟩]
    simp only [String.ofList_toList]

/-- A statement of the one kind is none of the other. -/
theorem fill_insert_ne_fill_select (vs us : List (List Char)) :
    Sql.fill insertHead insertParts vs ≠ Sql.fill selectHead selectParts us := by
  intro h
  have hi : insertHead.head? = some 'I' := by decide
  have hs : selectHead.head? = some 'S' := by decide
  have hhead := congrArg List.head? h
  unfold Sql.fill at hhead
  rw [List.head?_append, List.head?_append, hi, hs] at hhead
  exact absurd (Option.some.inj hhead) (by decide)

theorem insertOf_eq_none_of_selectOf (sql : String) (row : String × String)
    (h : selectOf sql = some row) : insertOf sql = none := by
  cases hinsert : insertOf sql with
  | none => rfl
  | some x =>
    have hselect := ((selectOf_iff sql row).mp h).2
    rw [((insertOf_iff sql x.1 x.2).mp hinsert).2] at hselect
    exact absurd hselect (fill_insert_ne_fill_select _ _)

namespace ProfileWrite

variable (num : NumberFormat ℚ)

theorem insertSql_toList (w : ProfileWrite) : (w.insertSql num).toList =
    Sql.fill insertHead insertParts
      [w.moduleType.toList, w.profileName.toList, latin1 (utf8 (w.json num))] := by
  unfold insertSql strJson Sql.fill Sql.fillParts insertParts
  simp only [String.toList_append, String.toList_ofList, List.append_assoc, List.zipWith_cons_cons,
    List.zipWith_nil_left, List.flatten_cons, List.flatten_nil, List.append_nil]
  rfl

theorem selectSql_toList (w : ProfileWrite) : w.selectSql.toList =
    Sql.fill selectHead selectParts [w.moduleType.toList, w.profileName.toList] := by
  unfold selectSql Sql.fill Sql.fillParts selectParts
  simp only [String.toList_append, List.append_assoc, List.zipWith_cons_cons,
    List.zipWith_nil_left, List.flatten_cons, List.flatten_nil, List.append_nil]
  rfl

theorem selectOf_insertSql (w : ProfileWrite) : selectOf (w.insertSql num) = none := by
  cases h : selectOf (w.insertSql num) with
  | none => rfl
  | some row =>
    have hselect := ((selectOf_iff _ row).mp h).2
    rw [insertSql_toList] at hselect
    exact absurd hselect (fill_insert_ne_fill_select _ _)

theorem insertOf_selectSql (w : ProfileWrite) : insertOf w.selectSql = none := by
  cases h : insertOf w.selectSql with
  | none => rfl
  | some x =>
    have hinsert := ((insertOf_iff _ x.1 x.2).mp h).2
    rw [selectSql_toList] at hinsert
    exact absurd hinsert.symm (fill_insert_ne_fill_select _ _)

/-- No zero char gets into a statement but with the names. -/
theorem zero_not_mem_json (w : ProfileWrite) : '\x00' ∉ latin1 (utf8 (w.json num)) := by
  have hplain := Json.plain_write num (Json.object w.content)
  have hno : ∀ t : List Char, Lib.Plain t → '\x00' ∉ latin1 (utf8 t) := by
    intro t ht
    induction t with
    | nil => nofun
    | cons c t ih =>
      have hc := ht c List.mem_cons_self
      rw [latin1_utf8_cons, List.mem_append, not_or]
      refine ⟨?_, ih fun d hd => ht d (List.mem_cons_of_mem _ hd)⟩
      by_cases hascii : c.toNat < 128
      · rw [latin1_utf8_ascii c hascii, List.mem_singleton]
        rintro rfl
        exact absurd hc (by decide)
      · intro hmem
        exact absurd ((latin1_utf8_wide c hascii).2 _ hmem) (by decide)
  exact hno _ hplain

/-- **Names that are read the same way by both statements** are quoted well. -/
theorem wellQuoted_of_statements (w : ProfileWrite) (x : (String × String) × String)
    (row : String × String) (hinsert : insertOf (w.insertSql num) = some x)
    (hselect : selectOf w.selectSql = some row) :
    WellQuoted w.moduleType ∧ WellQuoted w.profileName := by
  obtain ⟨-, hi⟩ := (insertOf_iff _ x.1 x.2).mp hinsert
  obtain ⟨hzero, hs⟩ := (selectOf_iff _ row).mp hselect
  rw [insertSql_toList] at hi
  rw [selectSql_toList] at hzero hs
  unfold Sql.fill at hi hs hzero
  replace hi := List.append_cancel_left hi
  replace hs := List.append_cancel_left hs
  have hand : "' AND PROFILENAME='".toList =
      '\'' :: ' ' :: ("AND PROFILENAME=".toList ++ ['\'']) := by decide
  have hcomma : "','".toList = '\'' :: ',' :: ['\''] := by decide
  unfold insertParts at hi
  unfold selectParts at hs hzero
  simp only [Sql.fillParts_cons] at hi hs hzero
  have hzeros : '\x00' ∉ w.moduleType.toList ∧ '\x00' ∉ w.profileName.toList := by
    simp only [List.mem_append, not_or] at hzero
    exact ⟨hzero.2.1, hzero.2.2.2.1⟩
  have hread₁ := congrArg Sql.literal hi
  have hread₂ := congrArg Sql.literal hs
  rw [Sql.literal_doubled _ _ (by rw [hcomma]; exact Sql.closed_cons ',' _ (by decide))] at hread₁
  rw [Sql.literal_doubled _ _ (by rw [hand]; exact Sql.closed_cons ' ' _ (by decide))] at hread₂
  have hlast : "'".toList ++ Sql.fillParts [] [] = ['\''] := by decide
  rw [hcomma] at hread₁
  rw [hand, hlast] at hread₂
  simp only [List.cons_append, List.append_assoc, List.nil_append] at hread₁ hread₂
  obtain ⟨t, ht⟩ := Sql.doubled_of_literals w.moduleType.toList w.profileName.toList _
    "AND PROFILENAME=".toList _ _ ',' ' ' (by decide) (by decide) (by decide) (by decide)
    (congrArg Prod.snd hread₁) (congrArg Prod.snd hread₂)
  refine ⟨⟨hzeros.1, t, ht⟩, hzeros.2, row.2.toList, ?_⟩
  rw [ht] at hs
  obtain ⟨-, hrest⟩ := Sql.doubled_append_inj _ _ _ _
    (by rw [hand]; exact Sql.closed_cons ' ' _ (by decide))
    (by rw [hand]; exact Sql.closed_cons ' ' _ (by decide)) hs
  exact List.append_cancel_right (List.append_cancel_left hrest)

/-- The statements of names that are quoted well. -/
theorem statements_of_wellQuoted (w : ProfileWrite) (ht : WellQuoted w.moduleType)
    (hn : WellQuoted w.profileName) :
    ∃ row : String × String,
      (w.moduleType.toList = Sql.doubled row.1.toList ∧
        w.profileName.toList = Sql.doubled row.2.toList) ∧
      selectOf w.selectSql = some row ∧
      ∀ x, insertOf (w.insertSql num) = some x ↔
        x.1 = row ∧ latin1 (utf8 (w.json num)) = Sql.doubled x.2.toList := by
  obtain ⟨htzero, t, ht⟩ := ht
  obtain ⟨hnzero, n, hn⟩ := hn
  refine ⟨(String.ofList t, String.ofList n), ?_, ?_, fun x => ?_⟩
  · simp only [String.toList_ofList]
    exact ⟨ht, hn⟩
  · rw [selectOf_iff, selectSql_toList, ht, hn]
    simp only [String.toList_ofList, and_true]
    have hhead : '\x00' ∉ selectHead := by decide
    have hand : '\x00' ∉ "' AND PROFILENAME='".toList := by decide
    have hlast : '\x00' ∉ "'".toList ++ Sql.fillParts [] [] := by decide
    unfold Sql.fill selectParts
    simp only [Sql.fillParts_cons, List.mem_append, not_or] at hlast ⊢
    exact ⟨hhead, ht ▸ htzero, hand, hn ▸ hnzero, hlast⟩
  · have hcomma : ∀ r, Sql.Closed ("','".toList ++ r) := fun r =>
      Sql.closed_cons ',' _ (by decide)
    have hzero : '\x00' ∉ (w.insertSql num).toList := by
      have hhead : '\x00' ∉ insertHead := by decide
      have hsep : '\x00' ∉ "','".toList := by decide
      have hlast : '\x00' ∉ "');".toList ++ Sql.fillParts [] [] := by decide
      rw [insertSql_toList]
      unfold Sql.fill insertParts
      simp only [Sql.fillParts_cons, List.mem_append, not_or] at hlast ⊢
      exact ⟨hhead, htzero, hsep, hnzero, hsep, w.zero_not_mem_json num, hlast⟩
    rw [show x = (x.1, x.2) from rfl, insertOf_iff, and_iff_right hzero, insertSql_toList, ht, hn]
    unfold Sql.fill insertParts
    simp only [Sql.fillParts_cons]
    constructor
    · intro h
      obtain ⟨htype, h⟩ := Sql.doubled_append_inj _ _ _ _ (hcomma _) (hcomma _)
        (List.append_cancel_left h)
      obtain ⟨hname, h⟩ := Sql.doubled_append_inj _ _ _ _ (hcomma _) (hcomma _)
        (List.append_cancel_left h)
      refine ⟨Prod.ext ?_ ?_, List.append_cancel_right (List.append_cancel_left h)⟩
      · rw [htype, String.ofList_toList]
      · rw [hname, String.ofList_toList]
    · rintro ⟨hrow, htext⟩
      rw [hrow, htext]
      simp only [String.toList_ofList]

/-! ## The object that is read -/

/-- What is stored of the text of plain strings is the text. -/
theorem read_of_plain (w : ProfileWrite)
    (hn : ∀ n ∈ (Json.object w.content).numbers, num.Exact n) (hp : w.Plain) :
    latin1 (utf8 (w.json num)) = Sql.doubled (w.json num) ∧
      (Json.object (jsonObject num (w.json num))).norm = (Json.object w.content).norm := by
  have hascii : ∀ c ∈ w.json num, c.toNat < 128 :=
    (Json.forall_mem_write_iff (fun c => c.toNat < 128) toNat_lt_of_isFixed num _).mpr
      fun s hs c hc => (hp.strings s hs c hc).1
  have hquote : ∀ c ∈ w.json num, c ≠ '\'' :=
    (Json.forall_mem_write_iff (fun c => c ≠ '\'') ne_quote_of_isFixed num _).mpr
      fun s hs c hc => (hp.strings s hs c hc).2
  refine ⟨?_, ?_⟩
  · rw [latin1_utf8_of_ascii _ hascii, Sql.doubled_of_not_mem _ fun h => hquote _ h rfl]
  · unfold jsonObject json
    rw [Json.parse_write num nestingLimit _ hn hp.depth]
    exact Json.norm_of_isObject _ rfl

/-- The statement of a safe write is made of literals. -/
theorem literal_of_safe (w : ProfileWrite)
    (hn : ∀ n ∈ (Json.object w.content).numbers, num.Exact n) (hsafe : w.Safe) :
    w.Literal num := by
  obtain ⟨row, -, -, hinsert⟩ := w.statements_of_wellQuoted num hsafe.moduleType hsafe.profileName
  obtain ⟨hstored, -⟩ := w.read_of_plain num hn hsafe.plain
  refine Option.isSome_iff_exists.mpr ⟨(row, String.ofList (w.json num)), (hinsert _).mpr ⟨rfl, ?_⟩⟩
  rw [String.toList_ofList]
  exact hstored

/-- Other names that are quoted well are those of another row. -/
theorem otherKey_of_wellQuoted (w w' : ProfileWrite) (ht : WellQuoted w.moduleType)
    (hn : WellQuoted w.profileName) (ht' : WellQuoted w'.moduleType)
    (hn' : WellQuoted w'.profileName)
    (hne : (w'.moduleType, w'.profileName) ≠ (w.moduleType, w.profileName)) :
    w.OtherKey num w' := by
  refine ⟨hne, fun x y hx hy heq => hne ?_⟩
  obtain ⟨row, ⟨htype, hname⟩, -, hinsert⟩ := w.statements_of_wellQuoted num ht hn
  obtain ⟨row', ⟨htype', hname'⟩, -, hinsert'⟩ := w'.statements_of_wellQuoted num ht' hn'
  obtain rfl : row' = row := by rw [← ((hinsert x).mp hx).1, ← ((hinsert' y).mp hy).1, heq]
  exact Prod.ext (String.toList_injective (htype'.trans htype.symm))
    (String.toList_injective (hname'.trans hname.symm))

/-- An object that is read back from a changed text is not nested too deep, and stands for the
object with its strings changed. -/
theorem norm_of_read (w : ProfileWrite) (hw : (Json.object w.content).Distinct)
    (hn : ∀ n ∈ (Json.object w.content).numbers, num.Exact n) {g : List Char → List Char}
    (hg : TextMap g)
    (hread : (Json.object (jsonObject num (g (w.json num)))).norm = (Json.object w.content).norm) :
    (Json.object w.content).depth ≤ nestingLimit ∧
      (Json.mapStrings g (Json.object w.content)).norm = (Json.object w.content).norm := by
  -- an empty object has no strings
  have hempty : (Json.object w.content).norm = (Json.object (.empty : QJsonObject)).norm →
      (Json.object w.content).depth ≤ nestingLimit ∧
        (Json.mapStrings g (Json.object w.content)).norm = (Json.object w.content).norm := by
    intro h
    have hno : (Json.object w.content).strings = [] := by
      have hperm := Json.strings_norm_perm _ hw
      rw [h] at hperm
      exact List.perm_nil.mp hperm.symm
    have hdepth := (Json.le_norm num _ hw).1
    rw [h] at hdepth
    refine ⟨hdepth.trans (by decide), ?_⟩
    rw [Json.mapStrings_eq_self g _ (by rw [hno]; nofun)]
  have htext : g (w.json num) = Json.write num (Json.mapStrings g (Json.object w.content)) :=
    (Json.write_mapStrings num hg _).symm
  rw [htext] at hread
  unfold jsonObject at hread
  cases hparse : Json.parse num nestingLimit
      (Json.write num (Json.mapStrings g (Json.object w.content))) with
  | none =>
    rw [hparse] at hread
    exact hempty hread.symm
  | some j =>
    rw [hparse] at hread
    simp only at hread
    cases hobj : j.isObject with
    | false =>
      have hmap : j.toMap = .empty := by
        cases j with
        | obj l => cases hobj
        | _ => rfl
      rw [hmap] at hread
      exact hempty hread.symm
    | true =>
      rw [Json.norm_of_isObject j hobj] at hread
      obtain ⟨hdepth, -⟩ := Json.le_of_parse_norm num nestingLimit _ j _
        (Json.plain_write num _) hparse hread hw
      have hback := Json.parse_write num nestingLimit
        (Json.mapStrings g (Json.object w.content))
        (by rw [Json.numbers_mapStrings]; exact hn)
        ((Json.depth_mapStrings_le g _).trans hdepth)
      rw [hparse] at hback
      obtain rfl := Option.some.inj hback
      exact ⟨hdepth, hread⟩

end ProfileWrite

/-- A measure of some strings adds up to the same if they are permuted by a change. -/
theorem sum_eq_of_perm (m : List Char → ℕ) (g : List Char → List Char) (l : List String)
    (hperm : l.Perm (l.map fun s => String.ofList (g s.toList))) :
    (l.map fun s => m s.toList).sum = (l.map fun s => m (g s.toList)).sum := by
  have h := (hperm.map fun s => m s.toList).sum_eq
  rw [List.map_map] at h
  simpa only [Function.comp_def, String.toList_ofList] using h

theorem eq_of_sum_eq (l : List String) (m k : String → ℕ) (hle : ∀ s ∈ l, m s ≤ k s)
    (hsum : (l.map m).sum = (l.map k).sum) : ∀ s ∈ l, m s = k s := by
  induction l with
  | nil => nofun
  | cons s l ih =>
    rw [List.forall_mem_cons] at hle
    have hrest := List.sum_le_sum hle.2
    rw [List.map_cons, List.map_cons, List.sum_cons, List.sum_cons] at hsum
    rw [List.forall_mem_cons]
    exact ⟨by omega, ih hle.2 (by omega)⟩

/-- The chars that are no ASCII. -/
def wide (t : List Char) : ℕ := t.countP fun c => 128 ≤ c.toNat

theorem wide_undoubled (t : List Char) : wide (Sql.undoubled t) = wide t := by
  unfold wide
  fun_induction Sql.undoubled t with
  | case1 => rfl
  | case2 c r hc ih => rw [List.countP_cons, List.countP_cons, ih]
  | case3 c hc => rfl
  | case4 c hc r ih =>
    obtain rfl : c = '\'' := not_not.mp hc
    rw [List.countP_cons, List.countP_cons, List.countP_cons, ih]
    rfl
  | case5 c hc d r hd ih => rw [List.countP_cons, List.countP_cons (l := d :: r), ih]

theorem two_mul_wide_le (t : List Char) : 2 * wide t ≤ wide (stored t) := by
  unfold stored
  rw [wide_undoubled]
  unfold wide
  induction t with
  | nil => exact le_rfl
  | cons c t ih =>
    rw [latin1_utf8_cons, List.countP_append, List.countP_cons]
    by_cases hc : c.toNat < 128
    · rw [if_neg (by simpa using hc)]
      omega
    · obtain ⟨htwo, hall⟩ := latin1_utf8_wide c hc
      have hcount : (latin1 (utf8 [c])).countP (fun c => 128 ≤ c.toNat) =
          (latin1 (utf8 [c])).length :=
        List.countP_eq_length.mpr fun d hd => decide_eq_true (hall d hd)
      rw [if_pos (by simpa using hc), hcount]
      omega

theorem length_undoubled_le (t : List Char) : (Sql.undoubled t).length ≤ t.length := by
  fun_induction Sql.undoubled t with
  | case1 => exact le_rfl
  | case2 c r hc ih => exact Nat.succ_le_succ ih
  | case3 c hc => exact le_rfl
  | case4 c hc r ih => exact (Nat.succ_le_succ ih).trans (Nat.le_succ _)
  | case5 c hc d r hd ih => exact Nat.succ_le_succ ih

theorem undoubled_eq_self (t : List Char) (h : (Sql.undoubled t).length = t.length) :
    Sql.undoubled t = t := by
  fun_induction Sql.undoubled t with
  | case1 => rfl
  | case2 c r hc ih => rw [ih (Nat.succ.inj h)]
  | case3 c hc => rfl
  | case4 c hc r ih =>
    have hle := length_undoubled_le r
    rw [List.length_cons, List.length_cons, List.length_cons] at h
    omega
  | case5 c hc d r hd ih => rw [ih (Nat.succ.inj h)]

namespace ProfileWrite

variable (num : NumberFormat ℚ)

/-- **An object that is read back** from what was stored had plain strings: a char of several bytes
is stored as more chars that are no ASCII, and of two quotes one is stored. -/
theorem plain_of_read (w : ProfileWrite) (hw : (Json.object w.content).Distinct)
    (hn : ∀ n ∈ (Json.object w.content).numbers, num.Exact n) (text : List Char)
    (htext : latin1 (utf8 (w.json num)) = Sql.doubled text)
    (hread : (Json.object (jsonObject num text)).norm = (Json.object w.content).norm) :
    w.Plain := by
  have hstored : text = stored (w.json num) := by
    unfold stored
    rw [htext, Sql.undoubled_doubled]
  rw [hstored] at hread
  obtain ⟨hdepth, hnorm⟩ := w.norm_of_read num hw hn textMap_stored hread
  have hperm := Json.strings_perm_of_norm_eq stored _ hw hnorm
  -- no char takes more than a byte
  have hwide := eq_of_sum_eq _ _ _ (fun s _ => by
    have := two_mul_wide_le s.toList
    omega) (sum_eq_of_perm wide stored _ hperm)
  have hascii : ∀ s ∈ (Json.object w.content).strings, ∀ c ∈ s.toList, c.toNat < 128 := by
    intro s hs c hc
    have htwo := two_mul_wide_le s.toList
    have hzero : wide s.toList = 0 := by
      have := hwide s hs
      omega
    by_contra hlt
    exact List.countP_eq_zero.mp hzero c hc (decide_eq_true (by omega))
  have hbytes : latin1 (utf8 (w.json num)) = w.json num :=
    latin1_utf8_of_ascii _ ((Json.forall_mem_write_iff (fun c => c.toNat < 128)
      toNat_lt_of_isFixed num _).mpr hascii)
  have hundoubled : ∀ s ∈ (Json.object w.content).strings,
      stored s.toList = Sql.undoubled s.toList := fun s hs =>
    congrArg Sql.undoubled (latin1_utf8_of_ascii _ (hascii s hs))
  -- and no quote is left out
  have hlength := eq_of_sum_eq _ _ _ (fun s hs => by
    rw [hundoubled s hs]
    exact length_undoubled_le s.toList) (sum_eq_of_perm List.length stored _ hperm).symm
  have hkept : ∀ s ∈ (Json.object w.content).strings, stored s.toList = s.toList := by
    intro s hs
    have hsame := hlength s hs
    rw [hundoubled s hs] at hsame ⊢
    exact undoubled_eq_self _ hsame
  have hsame : text = w.json num := by
    have hmap := Json.write_mapStrings num textMap_stored (Json.object w.content)
    rw [Json.mapStrings_eq_self stored _ hkept] at hmap
    exact hstored.trans hmap.symm
  have hquote := Sql.not_mem_of_doubled text (by rw [← htext, hbytes, hsame])
  refine ⟨fun s hs c hc => ⟨hascii s hs c hc, ?_⟩, hdepth⟩
  refine (Json.forall_mem_write_iff (fun c => c ≠ '\'') ne_quote_of_isFixed num _).mp ?_ s hs c hc
  rintro c hc rfl
  exact hquote (hsame ▸ hc)

end ProfileWrite

namespace Sqlite

variable (num : NumberFormat ℚ)

/-! ## Writes and reads -/

theorem exec_insert (q : Sqlite) (sql : String) (db : Profiles) (x : (String × String) × String)
    (h : insertOf sql = some x) :
    q.exec sql db = some ([], Function.update db x.1 (some x.2)) := by
  unfold exec
  rw [h]

theorem exec_select (q : Sqlite) (sql : String) (db : Profiles) (row : String × String)
    (h : selectOf sql = some row) : q.exec sql db = some ((db row).toList, db) := by
  unfold exec
  rw [h, insertOf_eq_none_of_selectOf sql row h]

theorem exec_other (q : Sqlite) (sql : String) (db : Profiles) (h : insertOf sql = none)
    (h' : selectOf sql = none) : q.exec sql db = q.other sql db := by
  unfold exec
  rw [h, h']

theorem setDbProfile_literal (q : Sqlite) (db : Profiles) (w : ProfileWrite)
    (x : (String × String) × String) (h : insertOf (w.insertSql num) = some x) :
    q.setDbProfile num db w = (true, Function.update db x.1 (some x.2)) := by
  unfold setDbProfile
  rw [q.exec_insert _ db x h]

theorem setDbProfile_other (q : Sqlite) (db : Profiles) (w : ProfileWrite)
    (h : insertOf (w.insertSql num) = none) :
    q.setDbProfile num db w = match q.other (w.insertSql num) db with
      | none => (false, db)
      | some (_, db) => (true, db) := by
  unfold setDbProfile
  rw [q.exec_other _ db h (w.selectOf_insertSql num)]

theorem getDbProfile_literal (q : Sqlite) (db : Profiles) (w : ProfileWrite)
    (row : String × String) (h : selectOf w.selectSql = some row) :
    q.getDbProfile num db w = (db row).map fun text => jsonObject num text.toList := by
  unfold getDbProfile
  rw [q.exec_select _ db row h]
  cases hrow : db row <;> rfl

theorem getDbProfile_other (q : Sqlite) (db : Profiles) (w : ProfileWrite)
    (h : selectOf w.selectSql = none) :
    q.getDbProfile num db w = match q.other w.selectSql db with
      | some (text :: _, _) => some (jsonObject num text.toList)
      | _ => none := by
  unfold getDbProfile
  rw [q.exec_other _ db w.insertOf_selectSql h]

theorem setAll_cons (q : Sqlite) (w : ProfileWrite) (ws : List ProfileWrite) (db : Profiles) :
    q.setAll num (w :: ws) db = q.setAll num ws (q.setDbProfile num db w).2 := by
  unfold setAll
  rw [List.foldl_cons]

/-- Writes of literals into other rows leave a row alone. -/
theorem setAll_row (q : Sqlite) (ws : List ProfileWrite) (db : Profiles) (row : String × String)
    (hws : ∀ w ∈ ws, w.Literal num)
    (hrow : ∀ w ∈ ws, ∀ y, insertOf (w.insertSql num) = some y → y.1 ≠ row) :
    q.setAll num ws db row = db row := by
  induction ws generalizing db with
  | nil => rfl
  | cons w ws ih =>
    rw [List.forall_mem_cons] at hws hrow
    obtain ⟨x, hx⟩ := Option.isSome_iff_exists.mp hws.1
    rw [setAll_cons, ih _ hws.2 hrow.2, q.setDbProfile_literal num db w x hx]
    exact Function.update_of_ne (hrow.1 x hx).symm _ _

/-- **With names that are quoted well, and statements of literals**, a profile is read back exactly
if its object is plain. -/
theorem roundTrip_iff (q : Sqlite) (w : ProfileWrite) (ws : List ProfileWrite)
    (hw : (Json.object w.content).Distinct)
    (hn : ∀ n ∈ (Json.object w.content).numbers, num.Exact n)
    (hother : ∀ w' ∈ ws, w.OtherKey num w') (ht : WellQuoted w.moduleType)
    (hname : WellQuoted w.profileName) (hlit : w.Literal num) (hws : ∀ w' ∈ ws, w'.Literal num) :
    q.RoundTrip num w ws ↔ w.Plain := by
  obtain ⟨row, -, hselect, hinsert⟩ := w.statements_of_wellQuoted num ht hname
  obtain ⟨x, hx⟩ := Option.isSome_iff_exists.mp hlit
  obtain ⟨rfl, htext⟩ := (hinsert x).mp hx
  have hget : ∀ db, q.getDbProfile num (q.setAll num ws (Function.update db x.1 (some x.2))) w =
      some (jsonObject num x.2.toList) := by
    intro db
    rw [q.getDbProfile_literal num _ w x.1 hselect, q.setAll_row num ws _ x.1 hws fun w' hw' y hy =>
      (hother w' hw').2 x y hx hy, Function.update_self]
    rfl
  constructor
  · intro h
    obtain ⟨db', hset, content, hcontent, hnorm⟩ := h fun _ => none
    rw [q.setDbProfile_literal num _ w x hx] at hset
    obtain rfl := congrArg Prod.snd hset
    rw [hget] at hcontent
    obtain rfl := Option.some.inj hcontent
    exact w.plain_of_read num hw hn _ htext hnorm
  · intro hp db
    obtain ⟨hstored, hnorm⟩ := w.read_of_plain num hn hp
    have hsame : x.2.toList = w.json num :=
      Sql.doubled_injective (htext.symm.trans hstored)
    exact ⟨_, q.setDbProfile_literal num db w x hx, _, hget db, hsame ▸ hnorm⟩

/-! ## Statements that are not made of literals -/

/-- One that refuses them, and one that empties the table. -/
def refusing : Sqlite := ⟨fun _ _ => none⟩

def emptying : Sqlite := ⟨fun _ _ => some ([], fun _ => none)⟩

/-- A row that is emptied is not filled by writes into others. -/
theorem emptying_row (ws : List ProfileWrite) (db : Profiles) (row : String × String)
    (hrow : ∀ w ∈ ws, ∀ y, insertOf (w.insertSql num) = some y → y.1 ≠ row) :
    (∃ w ∈ ws, ¬w.Literal num) ∨ db row = none → emptying.setAll num ws db row = none := by
  induction ws generalizing db with
  | nil =>
    rintro (⟨w, hw, -⟩ | hnone)
    · cases hw
    · exact hnone
  | cons w ws ih =>
    rw [List.forall_mem_cons] at hrow
    intro h
    rw [setAll_cons]
    refine ih _ hrow.2 ?_
    cases hx : insertOf (w.insertSql num) with
    | none =>
      refine .inr ?_
      rw [emptying.setDbProfile_other num db w hx]
      rfl
    | some x =>
      rw [emptying.setDbProfile_literal num db w x hx]
      rcases h with ⟨w', hw', hno⟩ | hnone
      · rcases List.mem_cons.mp hw' with rfl | hw'
        · exact absurd (Option.isSome_iff_exists.mpr ⟨x, hx⟩) hno
        · exact .inl ⟨w', hw', hno⟩
      · exact .inr ((Function.update_of_ne (hrow.1 x hx).symm _ _).trans hnone)

end Sqlite

/-- **The round trip of a profile.**  Whatever SQLite makes of statements that are not made of
literals, a profile is saved and read back as it was after writes to other keys, exactly if its
names are quoted well, its strings are plain and it is not nested too deep, and the statements of
these writes are made of literals.  If all statements are, any SQLite tells this much. -/
theorem profileText_iff (num : NumberFormat ℚ) (w : ProfileWrite) (ws : List ProfileWrite)
    (hw : (Json.object w.content).Distinct)
    (hn : ∀ n ∈ (Json.object w.content).numbers, num.Exact n)
    (hother : ∀ w' ∈ ws, w.OtherKey num w') :
    ((∀ q : Sqlite, q.RoundTrip num w ws) ↔ w.Safe ∧ ∀ w' ∈ ws, w'.Literal num) ∧
    ∀ q : Sqlite, WellQuoted w.moduleType → WellQuoted w.profileName → w.Literal num →
      (∀ w' ∈ ws, w'.Literal num) → (q.RoundTrip num w ws ↔ w.Plain) := by
  refine ⟨⟨fun h => ?_, ?_⟩, fun q ht hname => q.roundTrip_iff num w ws hw hn hother ht hname⟩
  · -- statements that are refused have to be made of literals
    obtain ⟨db', hset, content, hget, -⟩ := h Sqlite.refusing fun _ => none
    have hlit : w.Literal num := by
      cases hx : insertOf (w.insertSql num) with
      | some x => exact Option.isSome_iff_exists.mpr ⟨x, hx⟩
      | none =>
        rw [Sqlite.refusing.setDbProfile_other num _ w hx] at hset
        cases hset
    obtain ⟨x, hx⟩ := Option.isSome_iff_exists.mp hlit
    obtain ⟨row, hselect⟩ : ∃ row, selectOf w.selectSql = some row := by
      cases hrow : selectOf w.selectSql with
      | some row => exact ⟨row, rfl⟩
      | none =>
        rw [Sqlite.refusing.getDbProfile_other num _ w hrow] at hget
        cases hget
    obtain ⟨ht, hname⟩ := w.wellQuoted_of_statements num x row hx hselect
    -- and so those of the other writes, which may empty the table
    have hws : ∀ w' ∈ ws, w'.Literal num := by
      intro w' hw'
      by_contra hno
      obtain ⟨row', -, hselect', hinsert⟩ := w.statements_of_wellQuoted num ht hname
      obtain ⟨db', -, content, hget, -⟩ := h Sqlite.emptying fun _ => none
      have hnone := Sqlite.emptying_row num ws db' x.1
        (fun w' hw' y hy => (hother w' hw').2 x y hx hy) (.inl ⟨w', hw', hno⟩)
      rw [Sqlite.emptying.getDbProfile_literal num _ w row' hselect',
        ← ((hinsert x).mp hx).1, hnone] at hget
      cases hget
    exact ⟨⟨ht, hname, (Sqlite.refusing.roundTrip_iff num w ws hw hn hother ht hname hlit hws).mp
      (h _)⟩, hws⟩
  · rintro ⟨hsafe, hws⟩ q
    have hlit := w.literal_of_safe num hn hsafe
    exact (q.roundTrip_iff num w ws hw hn hother hsafe.moduleType hsafe.profileName hlit hws).mpr
      hsafe.plain

/-- A profile with a member. -/
def profileOf (moduleType profileName value : String) : ProfileWrite :=
  ⟨moduleType, profileName, OrdMap.ofEntries [("name", .str value)]⟩

theorem distinct_profileOf (moduleType profileName value : String) :
    (Json.object (profileOf moduleType profileName value).content).Distinct :=
  (Json.distinct_obj_iff _).mpr ⟨List.nodup_singleton _, fun e he => by
    rw [List.mem_singleton.mp he]
    trivial⟩

/-- Chars that no layer changes. -/
def Untouched (l : List Char) : Prop := ∀ c ∈ l, c ≠ '\x00' ∧ c.toNat < 128 ∧ c ≠ '\''

instance (l : List Char) : Decidable (Untouched l) := List.decidableBAll _ l

theorem Untouched.wellQuoted {s : String} (h : Untouched s.toList) : WellQuoted s :=
  ⟨fun hmem => (h _ hmem).1 rfl, s.toList,
    (Sql.doubled_of_not_mem _ fun hmem => (h _ hmem).2.2 rfl).symm⟩

theorem safe_profileOf (moduleType profileName value : String) (htype : Untouched moduleType.toList)
    (hname : Untouched profileName.toList) (hvalue : Untouched value.toList) :
    (profileOf moduleType profileName value).Safe := by
  have hkey : Untouched "name".toList := of_literal (by decide)
  refine ⟨htype.wellQuoted, hname.wellQuoted, fun s hs => ?_, show 1 ≤ nestingLimit by decide⟩
  have hstrings : (Json.object (profileOf moduleType profileName value).content).strings =
      ["name", value] := rfl
  rw [hstrings] at hs
  rcases List.mem_cons.mp hs with rfl | hs
  · exact fun c hc => (hkey c hc).2
  · rw [List.mem_singleton.mp hs]
    exact fun c hc => (hvalue c hc).2

/-- A plain profile, with another one saved in between. -/
theorem profileText_sample :
    Sqlite.refusing.RoundTrip integers (profileOf "Focus" "LRGB" "Newton")
      [profileOf "Focus" "SHO" "N200"] := by
  have hsafe : (profileOf "Focus" "LRGB" "Newton").Safe :=
    safe_profileOf _ _ _ (of_literal (by decide)) (of_literal (by decide)) (of_literal (by decide))
  have hsafe' : (profileOf "Focus" "SHO" "N200").Safe :=
    safe_profileOf _ _ _ (of_literal (by decide)) (of_literal (by decide)) (of_literal (by decide))
  refine (profileText_iff integers (profileOf "Focus" "LRGB" "Newton")
    [profileOf "Focus" "SHO" "N200"] (distinct_profileOf _ _ _) nofun ?_).1.mpr ⟨hsafe, ?_⟩ _
  · rw [List.forall_mem_singleton]
    exact ProfileWrite.otherKey_of_wellQuoted integers _ _ hsafe.moduleType hsafe.profileName
      hsafe'.moduleType hsafe'.profileName (by decide)
  · rw [List.forall_mem_singleton]
    exact ProfileWrite.literal_of_safe integers _ nofun hsafe'

/-- An accent is stored as two chars, and comes back so. -/
theorem profileText_fails :
    (Sqlite.refusing.setDbProfile integers (fun _ => none) (profileOf "Focus" "p" "é")).1 = true ∧
    (Sqlite.refusing.getDbProfile integers
      (Sqlite.refusing.setDbProfile integers (fun _ => none) (profileOf "Focus" "p" "é")).2
      (profileOf "Focus" "p" "é")).map (·.entries.map fun e => (e.1, jsonText e.2)) =
        some [("name", "Ã©")] ∧
    ¬Sqlite.refusing.RoundTrip integers (profileOf "Focus" "p" "é") [] := by
  refine ⟨by decide +kernel, by decide +kernel, fun h => ?_⟩
  have hlit : (profileOf "Focus" "p" "é").Literal integers := by
    unfold ProfileWrite.Literal
    decide +kernel
  have hplain := (Sqlite.refusing.roundTrip_iff integers (profileOf "Focus" "p" "é") []
    (distinct_profileOf _ _ _) nofun nofun ⟨by decide, "Focus".toList, by decide⟩
    ⟨by decide, "p".toList, by decide⟩ hlit nofun).mp h
  have haccent : "é" ∈ (Json.object (profileOf "Focus" "p" "é").content).strings := by
    decide +kernel
  exact absurd (hplain.strings "é" haccent 'é' (by decide)).1 (by decide)

end Ost
