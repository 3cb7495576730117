import Ost.SaveConf
import Ost.Lib.TextLines
import Ost.Lib.Transaction

/-!
# The import of a catalogue

A catalogue is a text with a line for each object.  Its rows replace those that are stored under
its name, in one transaction: the old rows are deleted, each line is split at its semicolons and
put into a statement of literals, and the transaction is committed at the end.  A line whose
statement fails is passed over, and so is one with too many fields.

Algorithm:
- `insertSql` is the statement of a line, with nothing if it reads a field that is not there;
- `prepare` is what SQLite makes of a text, `exec` runs it;
- `importLines` is the loop over the lines, `populateCatalog` the whole.

Main theorems:
    importLines_eq:       the statements that the loop runs
    populateCatalog_iff:  when an import reads no field that is not there, stores rows of its lines
                          only, and leaves what was stored if it fails
-/

namespace Ost.Catalogs

open Lib Saving

/-! ## Algorithm -/

/-- A row of `CATALOGS`; `ρ` is what a column of numbers keeps. -/
structure Row (ρ : Type) where
  catalog : String
  code : String
  ra : ρ
  ns : String
  dec : ρ
  diam : ρ
  mag : ρ
  name : String
  alias' : String
  deriving DecidableEq

/-- The primary key. -/
def Row.key {ρ : Type} (r : Row ρ) : String × String × ρ := (r.catalog, r.code, r.ra)

abbrev Rows (ρ : Type) := List (Row ρ)

def deleteHead : List Char := "DELETE FROM CATALOGS WHERE CATALOG='".toList

def deleteParts : List (List Char) := ["'".toList]

def insertHead : List Char := "INSERT INTO CATALOGS VALUES ('".toList

def insertParts : List (List Char) :=
  ["','".toList, "','".toList, "','".toList, "','".toList, "','".toList, "','".toList,
    "','".toList, "','".toList, "');".toList]

def deleteSql (pName : String) : String := "DELETE FROM CATALOGS WHERE CATALOG='" ++ pName ++ "'"

/-- One of the last four fields, which need not be there. -/
def optional (splitted : List (List Char)) (i : ℕ) : String :=
  match splitted[i]? with
  | some field => ",'" ++ String.ofList field ++ "'"
  | none => ",''"

/-- The first four fields are read without a look at how many there are. -/
def insertSql (pName : String) (splitted : List (List Char)) : Option String := do
  let code ← splitted[0]?
  let ra ← splitted[1]?
  let ns ← splitted[2]?
  let dec ← splitted[3]?
  return "INSERT INTO CATALOGS VALUES (" ++ "'" ++ pName ++ "'" ++
    ",'" ++ String.ofList code ++ "'" ++ ",'" ++ String.ofList ra ++ "'" ++
    ",'" ++ String.ofList ns ++ "'" ++ ",'" ++ String.ofList dec ++ "'" ++
    optional splitted 4 ++ optional splitted 5 ++ optional splitted 6 ++ optional splitted 7 ++ ");"

/-- SQLite: what a column of numbers keeps of a literal, and what it makes of a text that is not
one of the statements. -/
structure Sqlite (ρ : Type) where
  real : String → ρ
  other : List Char → Option (Rows ρ → Option (Rows ρ))

def rowOfTexts {ρ : Type} (real : String → ρ) : List (List Char) → Option (Row ρ)
  | [catalog, code, ra, ns, dec, diam, mag, name, alias'] =>
    some { catalog := String.ofList catalog, code := String.ofList code,
           ra := real (String.ofList ra), ns := String.ofList ns, dec := real (String.ofList dec),
           diam := real (String.ofList diam), mag := real (String.ofList mag),
           name := String.ofList name, alias' := String.ofList alias' }
  | _ => none

def deleteOf (text : List Char) : Option String :=
  match Sql.read deleteHead deleteParts text with
  | some [catalog] => some (String.ofList catalog)
  | _ => none

def insertOf {ρ : Type} (real : String → ρ) (text : List Char) : Option (Row ρ) :=
  (Sql.read insertHead insertParts text).bind (rowOfTexts real)

/-- A statement that ends within a literal. -/
def unfinished (text : List Char) : Bool :=
  insertHead.isPrefixOf text && Sql.torn insertParts (text.drop insertHead.length)

def deleteRows {ρ : Type} (name : String) (rows : Rows ρ) : Rows ρ :=
  rows.filter fun r => r.catalog ≠ name

variable {ρ : Type} [DecidableEq ρ]

/-- A row whose key is there already is refused. -/
def insertRow (row : Row ρ) (rows : Rows ρ) : Option (Rows ρ) :=
  if rows.any fun r => r.key = row.key then none else some (rows ++ [row])

namespace Sqlite

/-- The change that a text asks for, up to its first zero char; none if it is no statement. -/
def prepare (q : Sqlite ρ) (sql : String) : Option (Rows ρ → Option (Rows ρ)) :=
  let text := sql.toList.takeWhile fun c => c != '\x00'
  match deleteOf text, insertOf q.real text with
  | some name, _ => some fun rows => some (deleteRows name rows)
  | none, some row => some (insertRow row)
  | none, none => if unfinished text then none else q.other text

def exec (q : Sqlite ρ) (o : Outcome) (sql : String) (db : Store (Rows ρ)) :
    Bool × Store (Rows ρ) :=
  match q.prepare sql with
  | none => (false, db)
  | some change => db.exec (o, change)

end Sqlite

/-- The lines of a file; a carriage return before the end of a line is not part of it. -/
def readLines (text : String) : List (List Char) :=
  (lines text.toList).map fun line => if line.getLast? = some '\r' then line.dropLast else line

/-- The fields of a line, with a blank for each quote. -/
def fields (line : List Char) : List (List Char) :=
  (line.map fun c => if c = '\'' then ' ' else c).splitOn ';'

/-- The loop; nothing if a field is read that is not there. -/
def importLines (q : Sqlite ρ) (pName : String) (inserts : ℕ → Outcome) :
    ℕ → List (List Char) → Store (Rows ρ) → Option (Store (Rows ρ))
  | _, [], db => some db
  | n, line :: rest, db =>
    if 10 ≤ (fields line).length then importLines q pName inserts (n + 1) rest db
    else
      match insertSql pName (fields line) with
      | none => none
      | some sql => importLines q pName inserts (n + 1) rest (q.exec (inserts n) sql db).2

/-- What the database and the file system answer: `file` is the text, if it can be read, and
`inserts` tells of the statement of each line how it ends. -/
structure ImportRun where
  opens : Bool
  begins : Bool
  deletes : Outcome
  file : Option String
  inserts : ℕ → Outcome
  commits : Bool

/-- How an import ends. -/
inductive Import (ρ : Type) where
  | returned (result : Bool) (db : Store (Rows ρ))
  | outOfRange
  deriving DecidableEq

/-- A database that is open is closed when it is opened once more. -/
def populateCatalog (q : Sqlite ρ) (r : ImportRun) (db : Store (Rows ρ)) (pName : String) :
    Import ρ :=
  let db := db.close
  if !r.opens then .returned false db
  else if !r.begins then .returned false db.close
  else
    let deleted := q.exec r.deletes (deleteSql pName) db.begin
    if !deleted.1 then .returned false deleted.2.close
    else
      match r.file with
      | none => .returned false deleted.2
      | some text =>
        match importLines q pName r.inserts 0 (readLines text) deleted.2 with
        | none => .outOfRange
        | some db =>
          match (if r.commits then db.commit else none) with
          | none => .returned false db.close
          | some db => .returned true db.close

/-! ## What an import is to do -/

/-- The row of a line. -/
def rowOf (q : Sqlite ρ) (pName : String) (line : List Char) : Row ρ :=
  let field (i : ℕ) : String := String.ofList (((fields line)[i]?).getD [])
  { catalog := pName, code := field 0, ra := q.real (field 1), ns := field 2,
    dec := q.real (field 3), diam := q.real (field 4), mag := q.real (field 5),
    name := field 6, alias' := field 7 }

/-- An import reads no field that is not there; one that succeeds replaces the rows of the name by
those of some of the lines, one that fails leaves what was stored, and no transaction open. -/
structure Imports (q : Sqlite ρ) (pName : String) (lines : List (List Char)) (before : Rows ρ)
    (r : Import ρ) : Prop where
  inRange : r ≠ .outOfRange
  rows : ∀ db, r = .returned true db → ∃ kept : List (List Char), kept.Sublist lines ∧
    db.committed = deleteRows pName before ++ kept.map (rowOf q pName)
  kept : ∀ db, r = .returned false db → db.committed = before ∧ db.working = none

/-- A line whose statement is one of literals: fewer than ten fields, and no zero char in those
that are used. -/
def Asked (line : List Char) : Prop :=
  (fields line).length < 10 ∧ ∀ field ∈ (fields line).take 8, '\x00' ∉ field

instance (line : List Char) : Decidable (Asked line) := inferInstanceAs (Decidable (_ ∧ _))

/-- Once the old rows are deleted: the file can be read, each line has four fields, and if SQLite
rolls the transaction back with the statement of a line, then no statement of a later line, that
would not fail, has a key which is not stored yet. -/
def ImportRun.Fine (r : ImportRun) (q : Sqlite ρ) (pName : String) (before : Rows ρ) : Prop :=
  r.opens = true → r.begins = true → r.deletes = .done → ∃ text, r.file = some text ∧
    (∀ line ∈ readLines text, 4 ≤ (fields line).length) ∧
    (readLines text).zipIdx.Pairwise fun a b =>
      Asked a.1 → r.inserts a.2 = .rolledBack → Asked b.1 → r.inserts b.2 = .done →
        ∃ row ∈ before, row.key = (rowOf q pName b.1).key

def ImportRun.lines (r : ImportRun) : List (List Char) := r.file.elim [] readLines

/-! ## The statements -/

theorem parts_delete : Sql.Parts deleteParts := ⟨.inl ⟨rfl, rfl⟩, trivial⟩

theorem parts_insert : Sql.Parts insertParts := by
  have hcomma : ∃ c q, "','".toList = '\'' :: c :: q ∧ c ≠ '\'' := ⟨',', ['\''], rfl, by decide⟩
  exact ⟨.inr hcomma, .inr hcomma, .inr hcomma, .inr hcomma, .inr hcomma, .inr hcomma,
    .inr hcomma, .inr hcomma, .inr ⟨')', [';'], rfl, by decide⟩, trivial⟩

/-- The texts of the literals of a line. -/
def texts (pName : String) (splitted : List (List Char)) : List (List Char) :=
  pName.toList :: (List.range 8).map fun i => (splitted[i]?).getD []

theorem length_texts (pName : String) (splitted : List (List Char)) :
    (texts pName splitted).length = insertParts.length := rfl

theorem toList_optional (splitted : List (List Char)) (i : ℕ) :
    (optional splitted i).toList = ",'".toList ++ (splitted[i]?).getD [] ++ "'".toList := by
  unfold optional
  cases splitted[i]? with
  | none => rfl
  | some field =>
    simp only [String.toList_append, String.toList_ofList, Option.getD_some]

/-- A line with too few fields. -/
theorem insertSql_eq_none (pName : String) (splitted : List (List Char))
    (h : splitted.length < 4) : insertSql pName splitted = none := by
  match splitted, h with
  | [], _ => rfl
  | [a], _ => rfl
  | [a, b], _ => rfl
  | [a, b, c], _ => rfl
  | a :: b :: c :: d :: rest, h => simp only [List.length_cons] at h; omega

theorem insertSql_text (pName : String) (splitted : List (List Char)) (h : 4 ≤ splitted.length) :
    ∃ sql, insertSql pName splitted = some sql ∧
      sql.toList = Sql.fill insertHead insertParts (texts pName splitted) := by
  match splitted, h with
  | a :: b :: c :: d :: rest, _ =>
    refine ⟨_, rfl, ?_⟩
    have hhead : insertHead = "INSERT INTO CATALOGS VALUES (".toList ++ "'".toList := rfl
    have hcomma : "','".toList = "'".toList ++ ",'".toList := rfl
    have hend : "');".toList = "'".toList ++ ");".toList := rfl
    simp only [String.toList_append, String.toList_ofList, toList_optional, List.append_assoc,
      Sql.fill, Sql.fillParts, insertParts, texts, hhead, hcomma, hend, List.range_succ_eq_map,
      List.range_zero, List.map_nil, List.map_cons, List.zipWith_cons_cons, List.zipWith_nil_left,
      List.flatten_cons, List.flatten_nil, List.append_nil]
    rfl

/-- No field has a quote. -/
theorem quote_notMem_fields (line : List Char) (field : List Char) (h : field ∈ fields line) :
    '\'' ∉ field := by
  intro hin
  unfold fields at h
  have hmem := mem_intercalate_of_mem [';'] _ field h '\'' hin
  rw [List.intercalate_splitOn, List.mem_map] at hmem
  obtain ⟨c, -, hc⟩ := hmem
  split at hc
  · revert hc
    decide
  · next hne => exact hne hc

theorem mem_texts (pName : String) (splitted : List (List Char)) (v : List Char)
    (h : v ∈ texts pName splitted) : v = pName.toList ∨ v ∈ splitted.take 8 ∨ v = [] := by
  rcases List.mem_cons.mp h with rfl | h
  · exact .inl rfl
  · obtain ⟨i, hi, rfl⟩ := List.mem_map.mp h
    rw [List.mem_range] at hi
    cases hget : splitted[i]? with
    | none => exact .inr (.inr rfl)
    | some field =>
      refine .inr (.inl (List.mem_of_getElem? (i := i) ?_))
      rw [List.getElem?_take_of_lt hi, hget]
      rfl

theorem mem_texts_of_field (pName : String) (splitted : List (List Char)) (v : List Char)
    (h : v ∈ splitted.take 8) : v ∈ texts pName splitted := by
  obtain ⟨i, hi, rfl⟩ := List.getElem_of_mem h
  rw [List.length_take] at hi
  refine List.mem_cons_of_mem _ (List.mem_map.mpr ⟨i, List.mem_range.mpr (by omega), ?_⟩)
  rw [List.getElem_take, List.getElem?_eq_getElem (by omega)]
  rfl

theorem texts_quote (pName : String) (hName : PlainText pName) (line : List Char) :
    ∀ v ∈ texts pName (fields line), '\'' ∉ v := by
  intro v hv
  rcases mem_texts pName _ v hv with rfl | hfield | rfl
  · exact hName.1
  · exact quote_notMem_fields line v (List.mem_of_mem_take hfield)
  · exact List.not_mem_nil

/-- A text without a zero char is prepared as it is. -/
theorem takeWhile_zero (t : List Char) (h : '\x00' ∉ t) :
    (t.takeWhile fun c => c != '\x00') = t := by
  refine List.takeWhile_eq_self_iff.mpr fun c hc => ?_
  rw [bne_iff_ne]
  rintro rfl
  exact h hc

/-- A text that begins with the insert is no delete. -/
theorem deleteOf_insert (t : List Char) : deleteOf (insertHead ++ t) = none := by
  unfold deleteOf Sql.read
  rw [if_neg]
  rw [List.isPrefixOf_iff_prefix]
  rintro ⟨s, hs⟩
  have hD : deleteHead.head? = some 'D' := rfl
  have hI : insertHead.head? = some 'I' := rfl
  have hfirst := congrArg List.head? hs
  rw [List.head?_append, List.head?_append, hD, hI] at hfirst
  exact absurd (Option.some.inj hfirst) (by decide)

omit [DecidableEq ρ] in
theorem rowOfTexts_texts (q : Sqlite ρ) (pName : String) (line : List Char) :
    rowOfTexts q.real (texts pName (fields line)) = some (rowOf q pName line) := by
  unfold texts rowOf
  simp only [List.range_succ_eq_map, List.range_zero, List.map_nil, List.map_cons,
    rowOfTexts, String.ofList_toList]

theorem prepare_delete (q : Sqlite ρ) (pName : String) (hName : PlainText pName) :
    q.prepare (deleteSql pName) = some fun rows => some (deleteRows pName rows) := by
  have htext : (deleteSql pName).toList = Sql.fill deleteHead deleteParts [pName.toList] := by
    unfold deleteSql Sql.fill Sql.fillParts deleteHead deleteParts
    simp only [String.toList_append, List.append_assoc, List.zipWith_cons_cons,
      List.zipWith_nil_left, List.flatten_cons, List.flatten_nil, List.append_nil]
  have hzero : '\x00' ∉ (deleteSql pName).toList := by
    rw [htext]
    exact Sql.not_mem_fill _ _ _ _ (by decide) (by decide) (List.forall_mem_singleton.mpr hName.2)
  have hread : Sql.read deleteHead deleteParts (deleteSql pName).toList = some [pName.toList] := by
    rw [Sql.read_iff _ _ parts_delete, htext, List.map_singleton, Sql.doubled_of_not_mem _ hName.1]
    exact ⟨rfl, rfl⟩
  unfold Sqlite.prepare
  rw [takeWhile_zero _ hzero]
  simp only [deleteOf, hread, String.ofList_toList]

/-- **The statement of a line** inserts its row, or is cut within a literal. -/
theorem prepare_insert (q : Sqlite ρ) (pName : String) (hName : PlainText pName)
    (line : List Char) (sql : String)
    (hsql : sql.toList = Sql.fill insertHead insertParts (texts pName (fields line))) :
    q.prepare sql =
      if ∀ field ∈ (fields line).take 8, '\x00' ∉ field then some (insertRow (rowOf q pName line))
      else none := by
  have hquote := texts_quote pName hName line
  have hhead : '\x00' ∉ insertHead := by decide
  unfold Sqlite.prepare
  split_ifs with hzero
  · have hplain : '\x00' ∉ sql.toList := by
      rw [hsql]
      refine Sql.not_mem_fill _ _ _ _ hhead (by decide) fun v hv => ?_
      rcases mem_texts pName _ v hv with rfl | hfield | rfl
      · exact hName.2
      · exact hzero v hfield
      · exact List.not_mem_nil
    have hread : Sql.read insertHead insertParts sql.toList = some (texts pName (fields line)) := by
      rw [Sql.read_iff _ _ parts_insert, hsql, map_doubled _ hquote]
      exact ⟨length_texts pName _, rfl⟩
    have hdelete : deleteOf sql.toList = none := by
      rw [hsql]
      exact deleteOf_insert _
    have hinsert : insertOf q.real sql.toList = some (rowOf q pName line) := by
      unfold insertOf
      rw [hread, Option.bind_some, rowOfTexts_texts]
    rw [takeWhile_zero _ hplain]
    simp only [hdelete, hinsert]
  · -- the text ends at the zero char, which is within a literal
    have hcut : (sql.toList.takeWhile fun c => c != '\x00') = insertHead ++
        (Sql.fillParts insertParts (texts pName (fields line))).takeWhile fun c => c != '\x00' := by
      rw [hsql]
      unfold Sql.fill
      rw [List.takeWhile_append_of_pos]
      intro c hc
      rw [bne_iff_ne]
      rintro rfl
      exact hhead hc
    have htorn := Sql.torn_cut '\x00' insertParts parts_insert (by decide)
      (texts pName (fields line)) (length_texts pName _) hquote (by
        push Not at hzero
        obtain ⟨field, hfield, hin⟩ := hzero
        exact ⟨field, mem_texts_of_field pName _ field hfield, hin⟩)
    rw [hcut]
    have hprefix (t : List Char) : insertHead.isPrefixOf (insertHead ++ t) = true :=
      List.isPrefixOf_iff_prefix.mpr (List.prefix_append _ _)
    simp only [deleteOf_insert, insertOf, Sql.read, unfinished, hprefix, List.drop_left, if_true,
      Sql.readParts_of_torn insertParts parts_insert _ htorn, Option.bind_none, htorn, Bool.and_self]

/-! ## The loop -/

/-- The statement of a line, with how it ends. -/
def statement (q : Sqlite ρ) (pName : String) (inserts : ℕ → Outcome) (a : List Char × ℕ) :
    Option (Statement (Rows ρ)) :=
  if Asked a.1 then some (inserts a.2, insertRow (rowOf q pName a.1)) else none

theorem statement_eq_some (q : Sqlite ρ) (pName : String) (inserts : ℕ → Outcome)
    (a : List Char × ℕ) (s : Statement (Rows ρ)) :
    statement q pName inserts a = some s ↔
      Asked a.1 ∧ s = (inserts a.2, insertRow (rowOf q pName a.1)) := by
  unfold statement
  split_ifs with h
  · simp [h, eq_comm]
  · simp [h]

/-- A line with too few fields is read past its end. -/
theorem importLines_eq_none (q : Sqlite ρ) (pName : String) (inserts : ℕ → Outcome) (n : ℕ)
    (lines : List (List Char)) (db : Store (Rows ρ))
    (h : ∃ line ∈ lines, (fields line).length < 4) :
    importLines q pName inserts n lines db = none := by
  induction lines generalizing n db with
  | nil =>
    obtain ⟨line, hline, -⟩ := h
    exact absurd hline List.not_mem_nil
  | cons line lines ih =>
    unfold importLines
    by_cases hshort : (fields line).length < 4
    · rw [if_neg (by omega), insertSql_eq_none pName _ hshort]
    · have hrest : ∃ l ∈ lines, (fields l).length < 4 := by
        obtain ⟨l, hl, hlt⟩ := h
        rcases List.mem_cons.mp hl with rfl | hl
        · exact absurd hlt hshort
        · exact ⟨l, hl, hlt⟩
      split
      · exact ih (n + 1) db hrest
      · split
        · rfl
        · exact ih (n + 1) _ hrest

/-- **The statements that the loop runs** are those of the lines, in order. -/
theorem importLines_eq (q : Sqlite ρ) (pName : String) (hName : PlainText pName)
    (inserts : ℕ → Outcome) (n : ℕ) (lines : List (List Char)) (db : Store (Rows ρ))
    (h : ∀ line ∈ lines, 4 ≤ (fields line).length) :
    importLines q pName inserts n lines db =
      some (db.execAll ((lines.zipIdx n).filterMap (statement q pName inserts))) := by
  induction lines generalizing n db with
  | nil => rfl
  | cons line lines ih =>
    rw [List.forall_mem_cons] at h
    unfold importLines
    rw [List.zipIdx_cons, List.filterMap_cons]
    split_ifs with hmany
    · have hnone : statement q pName inserts (line, n) = none :=
        if_neg fun hasked => absurd hasked.1 (Nat.not_lt.mpr hmany)
      rw [hnone]
      exact ih (n + 1) db h.2
    · obtain ⟨sql, hsql, htext⟩ := insertSql_text pName (fields line) h.1
      have hprepare := prepare_insert q pName hName line sql htext
      rw [hsql]
      simp only
      rw [ih (n + 1) _ h.2]
      unfold Sqlite.exec
      rw [hprepare]
      by_cases hzero : ∀ field ∈ (fields line).take 8, '\x00' ∉ field
      · have hsome : statement q pName inserts (line, n) =
            some (inserts n, insertRow (rowOf q pName line)) := if_pos ⟨Nat.lt_of_not_le hmany, hzero⟩
        rw [hsome, if_pos hzero]
        rfl
      · have hnone : statement q pName inserts (line, n) = none :=
          if_neg fun hasked => hzero hasked.2
        rw [hnone, if_neg hzero]

theorem insertRow_grows (row : Row ρ) (rows rows' : Rows ρ) (h : insertRow row rows = some rows') :
    rows.length < rows'.length := by
  unfold insertRow at h
  split_ifs at h
  obtain rfl := Option.some.inj h
  rw [List.length_append, List.length_singleton]
  omega

theorem insertRow_eq_none (row : Row ρ) (rows : Rows ρ) :
    insertRow row rows = none ↔ ∃ r ∈ rows, r.key = row.key := by
  unfold insertRow
  split_ifs with h
  · rw [List.any_eq_true] at h
    simpa using h
  · rw [List.any_eq_true] at h
    simpa using h

/-- The rows that are added are those of some of the lines. -/
theorem applied_statements (q : Sqlite ρ) (pName : String) (inserts : ℕ → Outcome) (n : ℕ)
    (lines : List (List Char)) (rows : Rows ρ) :
    ∃ kept : List (List Char), kept.Sublist lines ∧
      applied ((lines.zipIdx n).filterMap (statement q pName inserts)) rows =
        rows ++ kept.map (rowOf q pName) := by
  induction lines generalizing n rows with
  | nil => exact ⟨[], .slnil, (List.append_nil rows).symm⟩
  | cons line lines ih =>
    rw [List.zipIdx_cons, List.filterMap_cons]
    -- a line that is passed over
    have hskip : ∃ kept : List (List Char), kept.Sublist (line :: lines) ∧
        applied ((lines.zipIdx (n + 1)).filterMap (statement q pName inserts)) rows =
          rows ++ kept.map (rowOf q pName) := by
      obtain ⟨kept, hkept, heq⟩ := ih (n + 1) rows
      exact ⟨kept, hkept.cons line, heq⟩
    cases hs : statement q pName inserts (line, n) with
    | none => exact hskip
    | some s =>
      obtain ⟨-, rfl⟩ := (statement_eq_some q pName inserts _ s).mp hs
      simp only
      rw [applied_cons]
      by_cases hdone : inserts n = .done
      · rw [if_pos hdone]
        simp only
        cases hrow : insertRow (rowOf q pName line) rows with
        | none => exact hskip
        | some rows' =>
          unfold insertRow at hrow
          split_ifs at hrow
          obtain rfl := Option.some.inj hrow
          obtain ⟨kept, hkept, heq⟩ := ih (n + 1) (rows ++ [rowOf q pName line])
          refine ⟨line :: kept, hkept.cons_cons line, ?_⟩
          rw [Option.getD_some, heq, List.append_assoc]
          rfl
      · rw [if_neg hdone]
        exact hskip

/-! ## Main theorem -/

/-- The transaction that SQLite rolls back is not seen in the rows. -/
theorem spoiled_iff (q : Sqlite ρ) (pName : String) (inserts : ℕ → Outcome)
    (lines : List (List Char)) (before : Rows ρ) :
    ((lines.zipIdx).filterMap (statement q pName inserts)).Pairwise
        (fun a b => a.1 = .rolledBack → b.1 = .done → b.2 before = none) ↔
      (lines.zipIdx).Pairwise fun a b =>
        Asked a.1 → inserts a.2 = .rolledBack → Asked b.1 → inserts b.2 = .done →
          ∃ row ∈ before, row.key = (rowOf q pName b.1).key := by
  rw [List.pairwise_filterMap]
  refine List.Pairwise.iff fun a b => ?_
  constructor
  · intro h ha hback hb hdone
    have hnone := h _ ((statement_eq_some q pName inserts a _).mpr ⟨ha, rfl⟩) _
      ((statement_eq_some q pName inserts b _).mpr ⟨hb, rfl⟩) hback hdone
    exact (insertRow_eq_none _ _).mp hnone
  · intro h s hs t ht
    obtain ⟨ha, rfl⟩ := (statement_eq_some q pName inserts a s).mp hs
    obtain ⟨hb, rfl⟩ := (statement_eq_some q pName inserts b t).mp ht
    exact fun hback hdone => (insertRow_eq_none _ _).mpr (h ha hback hb hdone)

omit [DecidableEq ρ] in
theorem imports_failed (q : Sqlite ρ) (pName : String) (lines : List (List Char)) (before : Rows ρ)
    (db : Store (Rows ρ)) :
    Imports q pName lines before (.returned false db) ↔
      db.committed = before ∧ db.working = none := by
  constructor
  · exact fun h => h.kept db rfl
  · intro h
    refine ⟨nofun, nofun, ?_⟩
    rintro db' ⟨⟩
    exact h

/-- The import once the old rows are deleted. -/
theorem populateCatalog_deleted (q : Sqlite ρ) (r : ImportRun) (db : Store (Rows ρ))
    (pName : String) (hName : PlainText pName) (hopens : r.opens = true) (hbegins : r.begins = true)
    (hdeletes : r.deletes = .done) :
    populateCatalog q r db pName =
      match r.file with
      | none => .returned false ⟨db.committed, some (deleteRows pName db.committed)⟩
      | some text =>
        match importLines q pName r.inserts 0 (readLines text)
            ⟨db.committed, some (deleteRows pName db.committed)⟩ with
        | none => .outOfRange
        | some db =>
          match (if r.commits then db.commit else none) with
          | none => .returned false db.close
          | some db => .returned true db.close := by
  unfold populateCatalog Sqlite.exec
  rw [prepare_delete q pName hName, hopens, hbegins, hdeletes]
  rfl

/-- The import before the old rows are deleted. -/
theorem populateCatalog_early (q : Sqlite ρ) (r : ImportRun) (db : Store (Rows ρ))
    (pName : String) (hName : PlainText pName)
    (h : ¬ (r.opens = true ∧ r.begins = true ∧ r.deletes = .done)) :
    populateCatalog q r db pName = .returned false ⟨db.committed, none⟩ := by
  unfold populateCatalog Sqlite.exec
  rw [prepare_delete q pName hName]
  cases hopens : r.opens with
  | false => rfl
  | true =>
    cases hbegins : r.begins with
    | false => rfl
    | true =>
      cases hdeletes : r.deletes with
      | failed => rfl
      | rolledBack => rfl
      | done => exact absurd ⟨hopens, hbegins, hdeletes⟩ h

/-- **An import is total and atomic** exactly if it is `Fine`. -/
theorem populateCatalog_iff (q : Sqlite ρ) (r : ImportRun) (db : Store (Rows ρ)) (pName : String)
    (hName : PlainText pName) :
    Imports q pName r.lines db.committed (populateCatalog q r db pName) ↔
      r.Fine q pName db.committed := by
  unfold ImportRun.Fine ImportRun.lines
  by_cases hstart : r.opens = true ∧ r.begins = true ∧ r.deletes = .done
  · obtain ⟨hopens, hbegins, hdeletes⟩ := hstart
    rw [populateCatalog_deleted q r db pName hName hopens hbegins hdeletes]
    simp only [hopens, hbegins, hdeletes, forall_const]
    cases hfile : r.file with
    | none =>
      -- the transaction of the deletion is left open
      refine iff_of_false (fun h => ?_) (fun ⟨_, htext, _⟩ => nomatch htext)
      exact absurd ((imports_failed _ _ _ _ _).mp h).2 nofun
    | some text =>
      simp only [Option.elim_some, Option.some.injEq, exists_eq_left']
      by_cases hshort : ∀ line ∈ readLines text, 4 ≤ (fields line).length
      · rw [and_iff_right hshort, importLines_eq q pName hName _ _ _ _ hshort]
        simp only
        generalize hl : ((readLines text).zipIdx).filterMap (statement q pName r.inserts) = l
        have hpairs := spoiled_iff q pName r.inserts (readLines text) db.committed
        rw [hl] at hpairs
        rw [← hpairs]
        by_cases hback : ∃ a ∈ l, a.1 = .rolledBack
        · -- the commit has no transaction
          have hgrow : ∀ a ∈ l, ∀ x y : Rows ρ, a.2 x = some y → x.length < y.length := by
            intro a ha x y hxy
            rw [← hl] at ha
            obtain ⟨line, -, hline⟩ := List.mem_filterMap.mp ha
            obtain ⟨-, rfl⟩ := (statement_eq_some q pName r.inserts line a).mp hline
            exact insertRow_grows _ x y hxy
          obtain ⟨hnone, hkept⟩ := Store.execAll_rolledBack List.length db.committed
            (deleteRows pName db.committed) l hgrow hback
          have hcommit : ((⟨db.committed, some (deleteRows pName db.committed)⟩ :
              Store (Rows ρ)).execAll l).commit = none := by
            unfold Store.commit
            rw [hnone]
            rfl
          rw [hcommit, ite_self]
          simp only
          rw [imports_failed]
          exact (and_iff_left rfl).trans hkept
        · have hinside : ∀ a ∈ l, a.1 ≠ .rolledBack := fun a ha h => hback ⟨a, ha, h⟩
          have hpairwise : l.Pairwise fun a b =>
              a.1 = .rolledBack → b.1 = .done → b.2 db.committed = none :=
            List.pairwise_of_forall_mem_list fun a ha _ _ h => absurd h (hinside a ha)
          rw [Store.execAll_inside _ _ l hinside]
          refine iff_of_true ?_ hpairwise
          cases r.commits with
          | false => exact (imports_failed _ _ _ _ _).mpr ⟨rfl, rfl⟩
          | true =>
            obtain ⟨kept, hsub, happlied⟩ := applied_statements q pName r.inserts 0
              (readLines text) (deleteRows pName db.committed)
            refine ⟨nofun, ?_, nofun⟩
            rintro db' ⟨⟩
            rw [hl] at happlied
            exact ⟨kept, hsub, happlied⟩
      · refine iff_of_false (fun h => h.inRange ?_) (fun h => hshort h.1)
        push Not at hshort
        rw [importLines_eq_none q pName _ _ _ _ hshort]
  · rw [populateCatalog_early q r db pName hName hstart, imports_failed]
    exact iff_of_true ⟨rfl, rfl⟩ fun h1 h2 h3 => absurd ⟨h1, h2, h3⟩ hstart

/-! ## Some catalogues -/

/-- Columns of numbers that keep the text. -/
def plainSqlite : Sqlite String := ⟨id, fun _ => none⟩

def crab : Row String := ⟨"Messier", "M1", "5.5", "N", "22.0", "6", "8.4", "Crab Nebula", ""⟩

def stored : Store (Rows String) := ⟨[crab], none⟩

def importing (file : Option String) (inserts : ℕ → Outcome) : ImportRun :=
  { opens := true, begins := true, deletes := .done, file, inserts, commits := true }

/-- The second line has ten fields, the third one the key of the first. -/
def threeLines : String := "M1;5.5;N;22.0;6;8.4;Crab;NGC 1952\nM2;;;;;;;;;\r\nM1;5.5;N;22.0\n"

theorem populateCatalog_sample :
    populateCatalog plainSqlite (importing (some threeLines) fun _ => .done) stored "Messier" =
        .returned true ⟨[⟨"Messier", "M1", "5.5", "N", "22.0", "6", "8.4", "Crab", "NGC 1952"⟩],
          none⟩ ∧
      Imports plainSqlite "Messier" (readLines threeLines) [crab]
        (populateCatalog plainSqlite (importing (some threeLines) fun _ => .done) stored
          "Messier") := by
  refine ⟨by decide +kernel, ?_⟩
  refine (populateCatalog_iff plainSqlite (importing (some threeLines) fun _ => .done) stored
    "Messier" (by decide)).mpr fun _ _ _ => ⟨threeLines, rfl, by decide +kernel, ?_⟩
  exact List.pairwise_of_forall fun _ _ _ hback => nomatch hback

/-- A line with two fields, a file that cannot be read, and a line whose statement has the
transaction rolled back before the one of the next line is done. -/
theorem populateCatalog_fails :
    (¬ Imports plainSqlite "Messier" (readLines "M1;5.5") [crab]
      (populateCatalog plainSqlite (importing (some "M1;5.5") fun _ => .done) stored "Messier")) ∧
    (¬ Imports plainSqlite "Messier" [] [crab]
      (populateCatalog plainSqlite (importing none fun _ => .done) stored "Messier")) ∧
    ¬ Imports plainSqlite "Messier" (readLines "M1;5.5;N;22.0\nM2;21.5;S;0.8") [crab]
      (populateCatalog plainSqlite (importing (some "M1;5.5;N;22.0\nM2;21.5;S;0.8")
        fun n => if n = 0 then .rolledBack else .done) stored "Messier") := by
  refine ⟨fun h => h.inRange (by decide +kernel), fun h => ?_, fun h => ?_⟩
  · exact absurd (h.kept ⟨[crab], some []⟩ (by decide +kernel)).2 nofun
  · have hleft := h.kept ⟨[crab, ⟨"Messier", "M2", "21.5", "S", "0.8", "", "", "", ""⟩], none⟩
      (by decide +kernel)
    exact absurd hleft.1 (by decide)

end Ost.Catalogs
