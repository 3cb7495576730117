import Ost.Loading
import Ost.ProfileText
import Ost.Lib.Attempts
import Ost.Lib.Groups
import Mathlib.Data.Fintype.EquivFin
import Mathlib.Data.List.MinMax

/-!
# The configurations that are saved

A configuration is the lines of its modules and the drivers of its INDI server.  Each part is saved
by a statement that deletes what was stored under the name, and one statement for each line; any
of these may fail, and no transaction holds them together.  The lists of the names are cleared
first, and filled from the database at the end.

Algorithm:
- `saveDbConfiguration`, `saveIndiConfiguration`, `saveConf`;
- `exec` is what SQLite does with a statement of literals that does not fail; what it makes of any
  other text is left open.

Main theorems:
    saveDbConfiguration_eq, saveIndiConfiguration_eq:  what a save leaves
    saveConf_iff:     when a save is all or nothing, and when the lists are right after it
    saveConf_fails:   a save whose second statement fails
-/

namespace Ost.Saving

open Lib Ost.Lists Loading

/-! ## Algorithm -/

/-- The rows of `CONFIGURATIONS`: the type and the profile, by configuration and module label. -/
abbrev ConfRows := Groups String String (String × String)

/-- The rows of `INDICONFIGURATIONS`: the drivers of a configuration. -/
abbrev IndiRows := Groups String String Unit

structure Db where
  configurations : ConfRows
  indiconfigurations : IndiRows

structure ModuleLine where
  label : String
  type : String
  profile : String

def ModuleLine.row (l : ModuleLine) : String × String × String := (l.label, l.type, l.profile)

/-- Whether the database opens, and which of the statements can be executed, by their numbers. -/
structure Outcomes where
  opens : Bool
  succeeds : ℕ → Bool

def deleteHead : List Char := "DELETE FROM CONFIGURATIONS WHERE CONFIGNAME= '".toList

def deleteParts : List (List Char) := ["';".toList]

def insertHead : List Char :=
  ("INSERT OR REPLACE INTO CONFIGURATIONS (CONFIGNAME,MODULELABEL,MODULETYPE,PROFILENAME)" ++
    " VALUES ('").toList

def insertParts : List (List Char) := ["','".toList, "','".toList, "','".toList, "');".toList]

def deleteSql (pConfigName : String) : String :=
  "DELETE FROM CONFIGURATIONS WHERE CONFIGNAME= '" ++ pConfigName ++ "';"

def insertSql (pConfigName : String) (line : ModuleLine) : String :=
  "INSERT OR REPLACE INTO CONFIGURATIONS (CONFIGNAME,MODULELABEL,MODULETYPE,PROFILENAME)" ++
    " VALUES ('" ++ pConfigName ++ "','" ++ line.label ++ "','" ++ line.type ++ "','" ++
    line.profile ++ "');"

/-- The configuration that a statement of literals deletes. -/
def deleteOf (sql : String) : Option String :=
  match literals deleteHead deleteParts sql with
  | some [c] => some (String.ofList c)
  | _ => none

/-- The row that a statement of literals inserts. -/
def insertOf (sql : String) : Option (String × String × String × String) :=
  match literals insertHead insertParts sql with
  | some [c, label, type, profile] =>
    some (String.ofList c, String.ofList label, String.ofList type, String.ofList profile)
  | _ => none

/-- SQLite, with what it makes of a text that is not one of the statements. -/
structure Engine where
  other : String → ConfRows → Option ConfRows

namespace Engine

def exec (q : Engine) (ok : Bool) (sql : String) (rows : ConfRows) : Option ConfRows :=
  if !ok then none
  else
    match deleteOf sql, insertOf sql with
    | some c, _ => some (rows.without c)
    | none, some (c, row) => some (rows.put c row)
    | none, none => q.other sql rows

/-- The lines of a map are saved in the order of its keys. -/
def saveDbConfiguration (q : Engine) (o : Outcomes) (rows : ConfRows) (pConfigName : String)
    (pConf : OrdMap String ModuleLine) : Bool × ConfRows :=
  if !o.opens then (false, rows)
  else
    match q.exec (o.succeeds 0) (deleteSql pConfigName) rows with
    | none => (false, rows)
    | some rows =>
      attempt (fun n line rows => q.exec (o.succeeds (n + 1)) (insertSql pConfigName line) rows)
        0 pConf.values rows

end Engine

/-- The values are bound to the statements; a driver that is there already is refused. -/
def saveIndiConfiguration (o : Outcomes) (rows : IndiRows) (pConfigName : String)
    (drivers : List String) : Bool × IndiRows :=
  if !o.opens then (false, rows)
  else if !o.succeeds 0 then (false, rows)
  else
    attempt (fun n driver rows =>
      if o.succeeds (n + 1) && !OrdMap.contains rows (toLex (pConfigName, driver)) then
        some (rows.put pConfigName (driver, ()))
      else none) 0 drivers (rows.without pConfigName)

/-- The lines of the configurations, in the order of their keys; none if the query fails. -/
def getDbConfigurations (ok : Bool) (rows : ConfRows) : QVariantMap :=
  if !ok then .empty
  else OrdMap.empty.upsertAll
    (rows.entries.map fun e => ((ofLex e.1).1, (Json.object (OrdMap.ofEntries
      [("modulelabel", .str (ofLex e.1).2), ("moduletype", .str e.2.1),
        ("profilename", .str e.2.2)]) : QVariant)))
    fun old line => .arr ((old.elim [] Json.toArray) ++ [line])

def getIndiConfigurations (ok : Bool) (rows : IndiRows) : QVariantMap :=
  if !ok then .empty
  else OrdMap.empty.upsertAll
    (rows.entries.map fun e => ((ofLex e.1).1, (Json.str (ofLex e.1).2 : QVariant)))
    fun old driver => .arr ((old.elim [] Json.toArray) ++ [driver])

/-- The outcomes of the statements of `saveConf`. -/
structure SaveRun where
  confs : Outcomes
  indi : Outcomes
  readsConfs : Bool
  readsIndi : Bool

/-- The lines of the modules. -/
def moduleLines (c : Loading.Controller) (profile : String → String) : OrdMap String ModuleLine :=
  OrdMap.ofEntries (c.modules.map fun m =>
    (m.moduleName, { label := m.moduleLabel, type := m.className, profile := profile m.moduleName }))

/-- `profile` is the current profile of a module, `drivers` those that are active. -/
def saveConf (q : Engine) (r : SaveRun) (c : Loading.Controller) (db : Db) (pConf : String)
    (profile : String → String) (drivers : List String) : Db × CtlEmits Unit :=
  let cleared := (c.clearList "availableconfs").andThen fun c => c.clearList "indiconfigurations"
  let confs := q.saveDbConfiguration r.confs db.configurations pConf (moduleLines c profile)
  if !confs.1 then
    ({ db with configurations := confs.2 },
      cleared.andThen fun c => c.logError "Save configuration %1 failed" [pConf] ())
  else
    let indi := saveIndiConfiguration r.indi db.indiconfigurations pConf drivers
    let db : Db := ⟨confs.2, indi.2⟩
    let saved := cleared.andThen fun c =>
      ((.emit c (.log .Info "Save configuration %1 sucessfull" [pConf]) () : CtlEmits Unit)).andThen
        fun c =>
          if indi.1 then .quiet c ()
          else c.logError "Save INDI configuration %1 failed" [pConf] ()
    let current := saved.andThen fun c => .emit c (.controllerData "currentconf" (.str pConf)) ()
    let available := getDbConfigurations r.readsConfs db.configurations
    let listed := current.andThen fun c => (c.fillList "availableconfs" available.keys).andThen
      fun c => .emit c (.controllerData "availableconfs" (.object available)) ()
    let indiConfs := getIndiConfigurations r.readsIndi db.indiconfigurations
    (db, listed.andThen fun c => (c.fillList "indiconfigurations" indiConfs.keys).andThen
      fun c => .emit c (.controllerData "indiconfigurations" (.object indiConfs)) ())

/-! ## What a save is to do -/

/-- A save that fails leaves the table as it was; one that succeeds leaves exactly the given rows
under the name, and all others as they were. -/
structure AllOrNothing {α : Type} (rows : Groups String String α) (c : String)
    (l : List (String × α)) (r : Bool × Groups String String α) : Prop where
  replaced : r.1 = true → rows.Replaced r.2 c l
  kept : r.1 = false → r.2 = rows

/-- The lists hold exactly the names that are stored. -/
def ListsRight (c : Loading.Controller) (db : Db) : Prop :=
  (∀ n label, c.entry "availableconfs" n = some label ↔ label = n ∧ db.configurations.Named n) ∧
  ∀ n label, c.entry "indiconfigurations" n = some label ↔
    label = n ∧ db.indiconfigurations.Named n

/-- No quote, and no zero char. -/
def PlainText (s : String) : Prop := '\'' ∉ s.toList ∧ '\x00' ∉ s.toList

instance (s : String) : Decidable (PlainText s) := inferInstanceAs (Decidable (_ ∧ _))

structure ModuleLine.Plain (l : ModuleLine) : Prop where
  label : PlainText l.label
  type : PlainText l.type
  profile : PlainText l.profile

instance (l : ModuleLine) : Decidable l.Plain :=
  decidable_of_iff (PlainText l.label ∧ PlainText l.type ∧ PlainText l.profile)
    ⟨fun h => ⟨h.1, h.2.1, h.2.2⟩, fun h => ⟨h.label, h.type, h.profile⟩⟩

/-- What was stored is deleted. -/
def Outcomes.deletes (o : Outcomes) : Bool := o.opens && o.succeeds 0

/-- How many of some lines are inserted. -/
def Outcomes.inserts (o : Outcomes) (n : ℕ) : ℕ := leading (fun k => o.succeeds (k + 1)) n

/-- How many of some drivers are inserted: one that is among those before it is refused. -/
def Outcomes.insertsDrivers (o : Outcomes) (drivers : List String) : ℕ :=
  leading (fun k => o.succeeds (k + 1) && decide (∀ d ∈ drivers[k]?, d ∉ drivers.take k))
    drivers.length

/-- Nothing is deleted; or all rows are inserted, with keys that differ; or some are, and the group
had these before. -/
def Spared {α : Type} (deletes : Bool) (rows : Groups String String α) (c : String)
    (l : List (String × α)) (k : ℕ) : Prop :=
  deletes = false ∨ (k = l.length ∧ (l.map (·.1)).Nodup) ∨ (k < l.length ∧ rows.Holds c (l.take k))

/-- Nothing is stored after the save. -/
def Emptied {α : Type} (deletes : Bool) (rows : Groups String String α) (c : String) (k : ℕ) :
    Prop :=
  if deletes = true then k = 0 ∧ ∀ d, rows.Named d → d = c else ∀ d, ¬rows.Named d

/-- The statements of a save are statements of literals. -/
def Readable (c : String) (lines : List ModuleLine) : Prop :=
  deleteOf (deleteSql c) ≠ none ∧ ∀ line ∈ lines, insertOf (insertSql c line) ≠ none

/-- All the lines are saved. -/
def Outcomes.saves (o : Outcomes) (n : ℕ) : Prop := o.deletes = true ∧ o.inserts n = n

/-! ## The statements -/

theorem parts_delete : Sql.Parts deleteParts := ⟨.inr ⟨';', [], rfl, by decide⟩, trivial⟩

theorem parts_insertConf : Sql.Parts insertParts :=
  ⟨.inr ⟨',', ['\''], rfl, by decide⟩, .inr ⟨',', ['\''], rfl, by decide⟩,
    .inr ⟨',', ['\''], rfl, by decide⟩, .inr ⟨')', [';'], rfl, by decide⟩, trivial⟩

theorem toList_deleteSql (c : String) :
    (deleteSql c).toList = Sql.fill deleteHead deleteParts [c.toList] := by
  unfold deleteSql Sql.fill Sql.fillParts deleteParts
  simp only [String.toList_append, List.append_assoc, List.zipWith_cons_cons,
    List.zipWith_nil_left, List.flatten_cons, List.flatten_nil, List.append_nil]
  rfl

/-- The texts of a row. -/
def ModuleLine.texts (c : String) (line : ModuleLine) : List (List Char) :=
  [c.toList, line.label.toList, line.type.toList, line.profile.toList]

theorem toList_insertSql (c : String) (line : ModuleLine) :
    (insertSql c line).toList = Sql.fill insertHead insertParts (line.texts c) := by
  unfold insertSql Sql.fill Sql.fillParts insertParts insertHead ModuleLine.texts
  simp only [String.toList_append, List.append_assoc, List.zipWith_cons_cons,
    List.zipWith_nil_left, List.flatten_cons, List.flatten_nil, List.append_nil]

/-- A text that begins differently is no such statement. -/
theorem literals_eq_none (head : List Char) (parts : List (List Char)) (sql : String) (x y : Char)
    (hhead : head.head? = some x) (hsql : sql.toList.head? = some y) (hxy : x ≠ y)
    (hparts : Sql.Parts parts) : literals head parts sql = none := by
  cases hread : literals head parts sql with
  | none => rfl
  | some vs =>
    obtain ⟨-, -, htext⟩ := (literals_iff head parts hparts sql vs).mp hread
    unfold Sql.fill at htext
    rw [htext, List.head?_append, hhead] at hsql
    exact absurd (Option.some.inj hsql) hxy

theorem deleteOf_insertSql (c : String) (line : ModuleLine) :
    deleteOf (insertSql c line) = none := by
  have hfirst : (insertSql c line).toList.head? = some 'I' := by
    rw [toList_insertSql]
    rfl
  unfold deleteOf
  rw [literals_eq_none deleteHead deleteParts _ 'D' 'I' rfl hfirst (by decide) parts_delete]

theorem insertOf_deleteSql (c : String) : insertOf (deleteSql c) = none := by
  have hfirst : (deleteSql c).toList.head? = some 'D' := by
    rw [toList_deleteSql]
    rfl
  unfold insertOf
  rw [literals_eq_none insertHead insertParts _ 'I' 'D' rfl hfirst (by decide) parts_insertConf]

theorem deleteOf_iff (sql c : String) :
    deleteOf sql = some c ↔
      '\x00' ∉ sql.toList ∧ sql.toList = Sql.fill deleteHead deleteParts [Sql.doubled c.toList] := by
  have hiff := literals_iff deleteHead deleteParts parts_delete sql
  unfold deleteOf
  constructor
  · intro h
    split at h
    · next a hread =>
      cases h
      obtain ⟨hzero, -, htext⟩ := (hiff _).mp hread
      rw [String.toList_ofList]
      exact ⟨hzero, htext⟩
    · cases h
  · rintro ⟨hzero, htext⟩
    rw [(hiff [c.toList]).mpr ⟨hzero, rfl, htext⟩]
    simp only [String.ofList_toList]

theorem insertOf_iff (sql c : String) (row : String × String × String) :
    insertOf sql = some (c, row) ↔ '\x00' ∉ sql.toList ∧
      sql.toList = Sql.fill insertHead insertParts
        ((ModuleLine.texts c ⟨row.1, row.2.1, row.2.2⟩).map Sql.doubled) := by
  have hiff := literals_iff insertHead insertParts parts_insertConf sql
  unfold insertOf
  constructor
  · intro h
    split at h
    · next a b d e hread =>
      cases h
      obtain ⟨hzero, -, htext⟩ := (hiff _).mp hread
      unfold ModuleLine.texts
      simp only [String.toList_ofList]
      exact ⟨hzero, htext⟩
    · cases h
  · rintro ⟨hzero, htext⟩
    rw [(hiff (ModuleLine.texts c ⟨row.1, row.2.1, row.2.2⟩)).mpr ⟨hzero, rfl, htext⟩]
    simp only [ModuleLine.texts, String.ofList_toList]

theorem map_doubled (vs : List (List Char)) (h : ∀ v ∈ vs, '\'' ∉ v) : vs.map Sql.doubled = vs := by
  conv_rhs => rw [← List.map_id vs]
  exact List.map_congr_left fun v hv => Sql.doubled_of_not_mem v (h v hv)

/-- A plain name is deleted as it is, and no other is. -/
theorem deleteOf_self_iff (c : String) : deleteOf (deleteSql c) = some c ↔ PlainText c := by
  rw [deleteOf_iff, toList_deleteSql]
  constructor
  · rintro ⟨hzero, htext⟩
    unfold Sql.fill deleteParts at hzero htext
    rw [Sql.fillParts_cons] at hzero htext
    rw [Sql.fillParts_cons] at htext
    have hsame : c.toList = Sql.doubled c.toList :=
      List.append_cancel_right (List.append_cancel_left htext)
    refine ⟨Sql.not_mem_of_doubled _ hsame.symm, fun hin => hzero ?_⟩
    exact List.mem_append_right _ (List.mem_append_left _ hin)
  · intro hc
    refine ⟨Sql.not_mem_fill _ _ _ _ (by decide) (by decide) (List.forall_mem_singleton.mpr hc.2), ?_⟩
    rw [Sql.doubled_of_not_mem _ hc.1]

theorem texts_plain (c : String) (line : ModuleLine) (hc : PlainText c) (hline : line.Plain) :
    ∀ v ∈ line.texts c, '\'' ∉ v ∧ '\x00' ∉ v := by
  unfold ModuleLine.texts
  simp only [List.forall_mem_cons]
  exact ⟨hc, hline.label, hline.type, hline.profile, nofun⟩

theorem insertOf_insertSql (c : String) (line : ModuleLine) (hc : PlainText c)
    (hline : line.Plain) : insertOf (insertSql c line) = some (c, line.row) := by
  have hplain := texts_plain c line hc hline
  rw [insertOf_iff, toList_insertSql]
  refine ⟨Sql.not_mem_fill _ _ _ _ (by decide) (by decide) fun v hv => (hplain v hv).2, ?_⟩
  exact congrArg _ (map_doubled _ fun v hv => (hplain v hv).1).symm

/-- How long the texts of a row are. -/
def size (c : String) (row : String × String × String) : ℕ :=
  ((ModuleLine.texts c ⟨row.1, row.2.1, row.2.2⟩).map List.length).sum

/-- A row that is not plain is read as a shorter one. -/
theorem size_read_lt (c d : String) (line : ModuleLine) (row : String × String × String)
    (hread : insertOf (insertSql c line) = some (d, row)) (hnot : ¬line.Plain) :
    size d row < size c line.row := by
  obtain ⟨hzero, htext⟩ := (insertOf_iff _ _ _).mp hread
  rw [toList_insertSql] at hzero htext
  refine Sql.length_read_lt insertHead insertParts (line.texts c) _ rfl rfl htext ?_
  by_contra hnone
  simp only [not_exists, not_and] at hnone
  have hin : ∀ v ∈ line.texts c, '\x00' ∉ v := fun v hv hx =>
    hzero (Sql.mem_fill _ _ _ _ rfl ⟨v, hv, hx⟩)
  unfold ModuleLine.texts at hnone hin
  simp only [List.forall_mem_cons] at hnone hin
  exact hnot ⟨⟨hnone.2.1, hin.2.1⟩, ⟨hnone.2.2.1, hin.2.2.1⟩, hnone.2.2.2.1, hin.2.2.2.1⟩

/-! ## What a save leaves -/

theorem Outcomes.inserts_le (o : Outcomes) (n : ℕ) : o.inserts n ≤ n := leading_le _ _

theorem Outcomes.insertsDrivers_le (o : Outcomes) (drivers : List String) :
    o.insertsDrivers drivers ≤ drivers.length := leading_le _ _

namespace Engine

theorem exec_delete (q : Engine) (ok : Bool) (c : String) (rows : ConfRows) (hc : PlainText c) :
    q.exec ok (deleteSql c) rows = if ok then some (rows.without c) else none := by
  unfold exec
  rw [(deleteOf_self_iff c).mpr hc]
  cases ok <;> rfl

theorem exec_insert (q : Engine) (ok : Bool) (c : String) (line : ModuleLine) (rows : ConfRows)
    (hc : PlainText c) (hline : line.Plain) :
    q.exec ok (insertSql c line) rows = if ok then some (rows.put c line.row) else none := by
  unfold exec
  rw [deleteOf_insertSql, insertOf_insertSql c line hc hline]
  cases ok <;> rfl

/-- **What is left of a save** of plain texts. -/
theorem saveDbConfiguration_eq (q : Engine) (o : Outcomes) (rows : ConfRows) (c : String)
    (lines : OrdMap String ModuleLine) (hc : PlainText c) (hlines : ∀ line ∈ lines.values, line.Plain) :
    q.saveDbConfiguration o rows c lines =
      if o.deletes then
        (decide (o.inserts lines.values.length = lines.values.length),
          rows.refill c ((lines.values.map ModuleLine.row).take (o.inserts lines.values.length)))
      else (false, rows) := by
  unfold saveDbConfiguration Outcomes.deletes
  cases o.opens with
  | false => rfl
  | true =>
    rw [exec_delete q _ c rows hc]
    cases o.succeeds 0 with
    | false => rfl
    | true =>
      show attempt (fun n line rows => q.exec (o.succeeds (n + 1)) (insertSql c line) rows) 0
        lines.values (rows.without c) = _
      rw [attempt_eq _ (fun line rows => Groups.put c line.row rows) (fun k => o.succeeds (k + 1))]
      · unfold Groups.refill
        rw [← List.map_take, List.foldl_map]
        rfl
      · intro k hk
        rw [Nat.zero_add]
        exact exec_insert q _ c _ _ hc (hlines _ (List.getElem_mem hk))

end Engine

/-- The drivers, as rows. -/
def driverRows (drivers : List String) : List (String × Unit) := drivers.map fun d => (d, ())

theorem saveIndiConfiguration_eq (o : Outcomes) (rows : IndiRows) (c : String)
    (drivers : List String) :
    saveIndiConfiguration o rows c drivers =
      if o.deletes then
        (decide (o.insertsDrivers drivers = drivers.length),
          rows.refill c ((driverRows drivers).take (o.insertsDrivers drivers)))
      else (false, rows) := by
  unfold saveIndiConfiguration Outcomes.deletes
  cases o.opens with
  | false => rfl
  | true =>
    cases o.succeeds 0 with
    | false => rfl
    | true =>
      have hrefill : ∀ l : List String,
          l.foldl (fun m d => Groups.put c (d, ()) m) (rows.without c) =
            rows.refill c (driverRows l) := by
        intro l
        unfold Groups.refill driverRows
        rw [List.foldl_map]
      show attempt _ 0 drivers (rows.without c) = _
      rw [attempt_eq _ (fun d rows => Groups.put c (d, ()) rows)
        (fun k => o.succeeds (k + 1) && decide (∀ d ∈ drivers[k]?, d ∉ drivers.take k))]
      · unfold Outcomes.insertsDrivers
        rw [hrefill, driverRows, List.map_take]
        rfl
      · intro k hk
        have hthere : OrdMap.contains (rows.refill c (driverRows (drivers.take k)))
            (toLex (c, drivers[k])) = decide (drivers[k] ∈ drivers.take k) := by
          refine Bool.eq_iff_iff.mpr ?_
          rw [Groups.contains_refill_self, decide_eq_true_iff]
          unfold driverRows
          rw [List.map_map]
          show drivers[k] ∈ (drivers.take k).map id ↔ _
          rw [List.map_id]
        rw [hrefill, hthere, Nat.zero_add, List.getElem?_eq_getElem hk]
        simp

theorem allOrNothing_ite {α : Type} (rows : Groups String String α) (c : String)
    (l : List (String × α)) (r : Bool × Groups String String α) :
    AllOrNothing rows c l r ↔ if r.1 = true then rows.Replaced r.2 c l else r.2 = rows := by
  constructor
  · intro h
    split
    · next hok => exact h.replaced hok
    · next hok => exact h.kept (Bool.not_eq_true _ ▸ hok)
  · intro h
    refine ⟨fun hok => ?_, fun hfails => ?_⟩
    · rwa [if_pos hok] at h
    · rwa [hfails, if_neg Bool.false_ne_true] at h

/-- **When a save is all or nothing**, if it leaves this. -/
theorem allOrNothing_deleted_iff {α : Type} (deletes : Bool) (rows : Groups String String α) (c : String)
    (l : List (String × α)) (k n : ℕ) (hn : l.length = n) (hk : k ≤ n) :
    AllOrNothing rows c l
      (if deletes then (decide (k = n), rows.refill c (l.take k)) else (false, rows)) ↔
      Spared deletes rows c l k := by
  subst hn
  rw [allOrNothing_ite]
  unfold Spared
  cases deletes with
  | false => exact iff_of_true rfl (.inl rfl)
  | true =>
    rw [if_pos rfl]
    by_cases hall : k = l.length
    · subst hall
      rw [if_pos (decide_eq_true rfl), List.take_length]
      simp [Groups.replaced_refill_iff]
    · rw [if_neg (by simpa using hall)]
      show rows.refill c (l.take k) = rows ↔ _
      rw [Groups.refill_eq_self_iff]
      simp [hall, Nat.lt_of_le_of_ne hk hall]

/-! ## Any texts -/

namespace Engine

/-- SQLite, if it refuses all other texts. -/
def strict : Engine := ⟨fun _ _ => none⟩

theorem strict_insert_cases (ok : Bool) (c : String) (line : ModuleLine) (rows rows' : ConfRows)
    (h : strict.exec ok (insertSql c line) rows = some rows') :
    ok = true ∧ ∃ d row, insertOf (insertSql c line) = some (d, row) ∧ rows' = rows.put d row := by
  unfold exec at h
  rw [deleteOf_insertSql] at h
  cases ok with
  | false => cases h
  | true =>
    refine ⟨rfl, ?_⟩
    cases hread : insertOf (insertSql c line) with
    | none =>
      rw [hread] at h
      cases h
    | some x =>
      rw [hread] at h
      exact ⟨x.1, x.2, rfl, (Option.some.inj h).symm⟩

/-- The save once the name is deleted. -/
theorem strict_saves (o : Outcomes) (rows : ConfRows) (c d : String)
    (lines : OrdMap String ModuleLine) (hdel : o.deletes = true)
    (hread : deleteOf (deleteSql c) = some d) :
    strict.saveDbConfiguration o rows c lines =
      attempt (fun n line rows => strict.exec (o.succeeds (n + 1)) (insertSql c line) rows) 0
        lines.values (rows.without d) := by
  unfold Outcomes.deletes at hdel
  rw [Bool.and_eq_true] at hdel
  unfold saveDbConfiguration exec
  rw [hdel.1, hdel.2, hread]
  rfl

/-- The rows that are left under the name that was deleted are those read from the lines. -/
theorem strict_rows (o : Outcomes) (rows : ConfRows) (c d : String)
    (lines : OrdMap String ModuleLine) (hdel : o.deletes = true)
    (hread : deleteOf (deleteSql c) = some d) (row : String × String × String)
    (hrow : OrdMap.get? (strict.saveDbConfiguration o rows c lines).2 (toLex (d, row.1)) =
      some row.2) : ∃ line ∈ lines.values, insertOf (insertSql c line) = some (d, row) := by
  rw [strict_saves o rows c d lines hdel hread] at hrow
  refine attempt_induction (fun rows : ConfRows => ∀ row : String × String × String,
    OrdMap.get? rows (toLex (d, row.1)) = some row.2 →
      ∃ line ∈ lines.values, insertOf (insertSql c line) = some (d, row)) _ 0 _ _ ?_ ?_ row hrow
  · intro k line hline rows rows' ih hstep row hrow
    obtain ⟨-, e, put, hput, rfl⟩ := strict_insert_cases _ c line rows rows' hstep
    unfold Groups.put at hrow
    rw [OrdMap.get?_insert] at hrow
    split at hrow
    · next heq =>
      obtain ⟨rfl, hlabel⟩ := Prod.mk.inj (toLex.injective heq)
      have hsame : row = put := Prod.ext hlabel (Option.some.inj hrow).symm
      exact ⟨line, hline, hsame ▸ hput⟩
    · exact ih row hrow
  · intro row hrow
    rw [Groups.get?_without] at hrow
    cases (if_pos rfl).symm.trans hrow

/-- A statement that is not a deletion of literals may put a row under another name. -/
theorem exists_not_of_unread (o : Outcomes) (c : String) (lines : OrdMap String ModuleLine)
    (l : List (String × String × String)) (hdel : o.deletes = true)
    (hread : deleteOf (deleteSql c) = none) :
    ∃ (q : Engine) (rows : ConfRows), ¬AllOrNothing rows c l (q.saveDbConfiguration o rows c lines) := by
  obtain ⟨d, hd⟩ := exists_ne c
  let stray : ConfRows := OrdMap.insert OrdMap.empty (toLex (d, "")) ("", "")
  let q : Engine := ⟨fun _ _ => some stray⟩
  refine ⟨q, OrdMap.empty, fun h => ?_⟩
  unfold Outcomes.deletes at hdel
  obtain ⟨hopens, hfirst⟩ := Bool.and_eq_true_iff.mp hdel
  have hstart : q.exec (o.succeeds 0) (deleteSql c) OrdMap.empty = some stray := by
    unfold exec
    rw [hread, insertOf_deleteSql, hfirst]
    rfl
  have hthere : ∃ v, OrdMap.get? (q.saveDbConfiguration o OrdMap.empty c lines).2 (toLex (d, "")) =
      some v := by
    unfold saveDbConfiguration
    rw [hopens, hstart]
    refine attempt_induction (fun rows : ConfRows => ∃ v, OrdMap.get? rows (toLex (d, "")) = some v)
      _ 0 _ _ ?_ ⟨_, OrdMap.get?_insert_self _ _ _⟩
    intro k line _ rows rows' hthere hstep
    unfold exec at hstep
    rw [deleteOf_insertSql] at hstep
    split at hstep
    · cases hstep
    · split at hstep
      · next heq => cases heq
      · obtain rfl := Option.some.inj hstep
        unfold Groups.put
        rw [OrdMap.get?_insert]
        split
        · exact ⟨_, rfl⟩
        · exact hthere
      · obtain rfl := Option.some.inj hstep
        exact ⟨_, OrdMap.get?_insert_self _ _ _⟩
  obtain ⟨v, hv⟩ := hthere
  rw [allOrNothing_ite] at h
  split at h
  · rw [h.2 (toLex (d, "")) hd] at hv
    cases hv
  · rw [h] at hv
    cases hv

/-- A name must be read as it is, and the save must succeed, for a row that was stored under it. -/
theorem succeeds_of_allOrNothing (o : Outcomes) (c d : String) (lines : OrdMap String ModuleLine)
    (l : List (String × String × String)) (hdel : o.deletes = true)
    (hread : deleteOf (deleteSql c) = some d)
    (h : ∀ rows, AllOrNothing rows c l (strict.saveDbConfiguration o rows c lines)) :
    d = c ∧ ∃ rows, (strict.saveDbConfiguration o rows c lines).1 = true := by
  -- the row has a label that no line is read with
  obtain ⟨x, hx⟩ := Infinite.exists_notMem_finset
    (lines.values.filterMap fun line => (insertOf (insertSql c line)).map (·.2.1)).toFinset
  let rows : ConfRows := OrdMap.insert OrdMap.empty (toLex (d, x)) ("", "")
  have hthere : OrdMap.get? rows (toLex (d, x)) = some ("", "") := OrdMap.get?_insert_self _ _ _
  have hgone : OrdMap.get? (strict.saveDbConfiguration o rows c lines).2 (toLex (d, x)) ≠
      some ("", "") := by
    intro hrow
    obtain ⟨line, hline, hputs⟩ := strict_rows o rows c d lines hdel hread (x, "", "") hrow
    refine hx (List.mem_toFinset.mpr (List.mem_filterMap.mpr ⟨line, hline, ?_⟩))
    rw [hputs]
    rfl
  have hall := h rows
  rw [allOrNothing_ite] at hall
  split at hall
  · next hok =>
    refine ⟨?_, rows, hok⟩
    by_contra hne
    exact hgone ((hall.2 (toLex (d, x)) hne).trans hthere)
  · rw [hall] at hgone
    exact absurd hthere hgone

/-- If the rows are those of the lines, no line is read as another: a line with the longest texts
among those that are not plain would be read from a longer one. -/
theorem plain_of_replaced (o : Outcomes) (rows : ConfRows) (c : String)
    (lines : OrdMap String ModuleLine) (hdel : o.deletes = true) (hc : PlainText c)
    (h : rows.Replaced (strict.saveDbConfiguration o rows c lines).2 c
      (lines.values.map ModuleLine.row)) : ∀ line ∈ lines.values, line.Plain := by
  classical
  intro line hline
  by_contra hnot
  let others := lines.values.filter fun line => ¬line.Plain
  have hothers : line ∈ others := List.mem_filter.mpr ⟨hline, decide_eq_true hnot⟩
  obtain ⟨longest, hlongest⟩ : ∃ longest, longest ∈ others.argmax fun line => size c line.row := by
    cases hmax : others.argmax fun line => size c line.row with
    | none =>
      rw [List.argmax_eq_none] at hmax
      rw [hmax] at hothers
      cases hothers
    | some longest => exact ⟨longest, rfl⟩
  obtain ⟨hin, hlong⟩ := List.mem_filter.mp (List.argmax_mem hlongest)
  have hrow : longest.row ∈ Groups.group (strict.saveDbConfiguration o rows c lines).2 c :=
    h.1.mem_iff.mpr (List.mem_map_of_mem hin)
  obtain ⟨source, hsource, hread⟩ := strict_rows o rows c c lines hdel
    ((deleteOf_self_iff c).mpr hc) longest.row ((Groups.mem_group_iff _ c _).mp hrow)
  by_cases hplain : source.Plain
  · rw [insertOf_insertSql c source hc hplain] at hread
    have hsame : source = longest := by
      cases source
      cases longest
      cases hread
      rfl
    exact of_decide_eq_true hlong (hsame ▸ hplain)
  · have hlt := size_read_lt c c source longest.row hread hplain
    have hle := List.le_of_mem_argmax
      (List.mem_filter.mpr ⟨hsource, decide_eq_true hplain⟩) hlongest
    omega

theorem not_deletes (q : Engine) (o : Outcomes) (rows : ConfRows) (c : String)
    (lines : OrdMap String ModuleLine) (hdel : o.deletes = false) :
    q.saveDbConfiguration o rows c lines = (false, rows) := by
  unfold Outcomes.deletes at hdel
  unfold saveDbConfiguration exec
  cases hopens : o.opens with
  | false => rfl
  | true =>
    rw [hopens, Bool.true_and] at hdel
    rw [hdel]
    rfl

/-- **When a save is all or nothing whatever is stored**, and whatever SQLite makes of other texts. -/
theorem forall_allOrNothing_iff (o : Outcomes) (c : String) (lines : OrdMap String ModuleLine) :
    (∀ (q : Engine) (rows : ConfRows), AllOrNothing rows c (lines.values.map ModuleLine.row)
      (q.saveDbConfiguration o rows c lines)) ↔
    o.deletes = false ∨ (PlainText c ∧ (∀ line ∈ lines.values, line.Plain) ∧
      o.inserts lines.values.length = lines.values.length ∧
      (lines.values.map ModuleLine.label).Nodup) := by
  constructor
  · intro h
    cases hdel : o.deletes with
    | false => exact .inl rfl
    | true =>
      cases hread : deleteOf (deleteSql c) with
      | none =>
        obtain ⟨q, rows, hnot⟩ := exists_not_of_unread o c lines _ hdel hread
        exact absurd (h q rows) hnot
      | some d =>
        obtain ⟨rfl, rows, hok⟩ := succeeds_of_allOrNothing o c d lines _ hdel hread (h strict)
        have hc := (deleteOf_self_iff d).mp hread
        have hreplaced := (h strict rows).replaced hok
        refine .inr ⟨hc, plain_of_replaced o rows d lines hdel hc hreplaced, ?_, ?_⟩
        · refine (leading_eq_iff _ _).mpr fun k hk => ?_
          rw [strict_saves o rows d d lines hdel hread] at hok
          obtain ⟨s, s', hstep⟩ := attempt_succeeds _ 0 _ _ hok k hk
          rw [Nat.zero_add] at hstep
          exact (strict_insert_cases _ _ _ _ _ hstep).1
        · have hnodup := (hreplaced.1.map (·.1)).nodup_iff.mp (Groups.nodup_group _ d)
          rwa [List.map_map] at hnodup
  · intro h q rows
    rcases h with hdel | ⟨hc, hlines, hall, hnodup⟩
    · rw [not_deletes q o rows c lines hdel]
      exact ⟨nofun, fun _ => rfl⟩
    · rw [saveDbConfiguration_eq q o rows c lines hc hlines,
        allOrNothing_deleted_iff _ _ _ _ _ _ (List.length_map _) (o.inserts_le _)]
      refine .inr (.inl ⟨by rw [List.length_map, hall], ?_⟩)
      rwa [List.map_map]

end Engine

/-! ## The lists of the names -/

theorem contains_onLov (c : Loading.Controller) (lovname : String)
    (operation : LovString → LovEmits Bool) (l : String) :
    (c.onLovs fun ls => ls.onLov lovname operation false).st.mControllerLovs.contains l =
      c.mControllerLovs.contains l := by
  show ((c.mControllerLovs.onLov lovname operation false).st.get? l).isSome = _
  rw [ControllerLovs.get?_onLov]
  split
  · exact Option.isSome_map
  · rfl

theorem entry_clearList (c : Loading.Controller) (lovname l n : String) :
    (c.clearList lovname).st.entry l n = if l = lovname then none else c.entry l n := by
  unfold Loading.Controller.clearList
  rw [Emits.returning_st, Loading.Controller.entry_onLov]
  by_cases hl : l = lovname
  · rw [if_pos hl]
    cases c.mControllerLovs.get? l with
    | none => rfl
    | some lov =>
      rw [Option.bind_some, if_pos hl]
      rfl
  · simp [hl, Loading.Controller.entry, ControllerLovs.entry]

theorem entry_fillList (lovname : String) (names : List String) (c : Loading.Controller)
    (hc : c.mControllerLovs.contains lovname = true) (l n : String) :
    (c.fillList lovname names).st.entry l n =
      if l = lovname ∧ n ∈ names then some ((c.entry l n).getD n) else c.entry l n := by
  unfold Loading.Controller.fillList
  induction names generalizing c with
  | nil => simp
  | cons name names ih =>
    have hadd : (c.onLovs fun ls => ls.onLov lovname (fun lov => lov.lovAdd name name) false).st.entry
        l n = if l = lovname ∧ n = name then some ((c.entry l n).getD n) else c.entry l n := by
      obtain ⟨lov, hlov⟩ := (OrdMap.contains_iff _ _).mp hc
      rw [Loading.Controller.entry_onLov]
      by_cases hl : l = lovname
      · subst hl
        simp only [if_true, true_and, Loading.Controller.entry, ControllerLovs.entry, hlov,
          Option.bind_some]
        cases hin : lov.contains name with
        | true =>
          obtain ⟨v, hv⟩ := (OrdMap.contains_iff _ _).mp hin
          have hsame : (lov.lovAdd name name).st = lov := by
            unfold LovString.lovAdd
            rw [hv]
            rfl
          rw [hsame]
          by_cases hn : n = name
          · rw [if_pos hn, hn, hv]
            rfl
          · rw [if_neg hn]
        | false =>
          rw [LovString.get?_lovAdd lov name name n hin]
          by_cases hn : n = name
          · rw [if_pos hn, if_pos hn, hn, OrdMap.get?_eq_none_of_not_contains _ _ hin]
            rfl
          · rw [if_neg hn, if_neg hn]
      · simp [hl, Loading.Controller.entry, ControllerLovs.entry]
    rw [Emits.each_cons, Emits.andThen_st, Emits.returning_st,
      ih _ ((contains_onLov c lovname _ lovname).trans hc), hadd]
    by_cases hl : l = lovname
    · by_cases hn : n = name
      · simp [hl, hn]
      · simp [hl, hn]
    · simp [hl]

theorem contains_fillList (lovname : String) (names : List String) (c : Loading.Controller)
    (l : String) :
    (c.fillList lovname names).st.mControllerLovs.contains l = c.mControllerLovs.contains l := by
  unfold Loading.Controller.fillList
  refine Emits.each_st_induction (fun c' : Loading.Controller =>
    c'.mControllerLovs.contains l = c.mControllerLovs.contains l) _ _ (fun c' name _ ih => ?_) c rfl
  exact (contains_onLov c' lovname _ l).trans ih

theorem mem_groupNames_iff {α β : Type} (rows : Groups String String α) (f : Option β → β → β)
    (line : String ×ₗ String → α → β) (n : String) :
    n ∈ (OrdMap.empty.upsertAll (rows.entries.map fun e => ((ofLex e.1).1, line e.1 e.2)) f).keys ↔
      rows.Named n := by
  rw [OrdMap.mem_keys_upsertAll, List.map_map, List.mem_map]
  constructor
  · rintro (h | ⟨e, he, rfl⟩)
    · cases h
    · exact ⟨(ofLex e.1).2, e.2, (OrdMap.get?_eq_some_iff _ _ _).mpr he⟩
  · rintro ⟨i, a, h⟩
    exact .inr ⟨_, (OrdMap.get?_eq_some_iff _ _ _).mp h, rfl⟩

/-- The names of the configurations that are read. -/
theorem mem_getDbConfigurations_iff (ok : Bool) (rows : ConfRows) (n : String) :
    n ∈ (getDbConfigurations ok rows).keys ↔ ok = true ∧ rows.Named n := by
  unfold getDbConfigurations
  cases ok with
  | false => simp [OrdMap.keys, OrdMap.empty]
  | true => simpa using mem_groupNames_iff rows _ (fun k a => Json.object (OrdMap.ofEntries
      [("modulelabel", .str (ofLex k).2), ("moduletype", .str a.1), ("profilename", .str a.2)])) n

theorem mem_getIndiConfigurations_iff (ok : Bool) (rows : IndiRows) (n : String) :
    n ∈ (getIndiConfigurations ok rows).keys ↔ ok = true ∧ rows.Named n := by
  unfold getIndiConfigurations
  cases ok with
  | false => simp [OrdMap.keys, OrdMap.empty]
  | true => simpa using mem_groupNames_iff rows _ (fun k _ => Json.str (ofLex k).2) n

/-- The save of the module lines of `saveConf`. -/
def SaveRun.confs' (q : Engine) (r : SaveRun) (c : Loading.Controller) (db : Db) (pConf : String)
    (profile : String → String) : Bool × ConfRows :=
  q.saveDbConfiguration r.confs db.configurations pConf (moduleLines c profile)

/-- The save of its drivers. -/
def SaveRun.indi' (r : SaveRun) (db : Db) (pConf : String) (drivers : List String) :
    Bool × IndiRows :=
  saveIndiConfiguration r.indi db.indiconfigurations pConf drivers

/-- A list that was cleared has the names it is filled with. -/
theorem entry_refilled (lovname : String) (names : List String) (c : Loading.Controller)
    (hc : c.mControllerLovs.contains lovname = true) (n label : String)
    (hnone : c.entry lovname n = none) :
    (c.fillList lovname names).st.entry lovname n = some label ↔ label = n ∧ n ∈ names := by
  rw [entry_fillList lovname names c hc, hnone]
  by_cases hn : n ∈ names
  · simp [hn, eq_comm]
  · simp [hn]

/-- **What `saveConf` leaves** in the database, and in the lists. -/
theorem saveConf_spec (q : Engine) (r : SaveRun) (c : Loading.Controller) (db : Db) (pConf : String)
    (profile : String → String) (drivers : List String)
    (ha : c.mControllerLovs.contains "availableconfs" = true)
    (hi : c.mControllerLovs.contains "indiconfigurations" = true) (x : Db × CtlEmits Unit)
    (hx : saveConf q r c db pConf profile drivers = x) (saved : Bool)
    (hsaved : (r.confs' q c db pConf profile).1 = saved) :
    x.1 = ⟨(r.confs' q c db pConf profile).2,
      if saved then (r.indi' db pConf drivers).2 else db.indiconfigurations⟩ ∧
    ∀ n label,
      (x.2.st.entry "availableconfs" n = some label ↔
        label = n ∧ saved = true ∧ r.readsConfs = true ∧ x.1.configurations.Named n) ∧
      (x.2.st.entry "indiconfigurations" n = some label ↔
        label = n ∧ saved = true ∧ r.readsIndi = true ∧ x.1.indiconfigurations.Named n) := by
  let cleared := ((c.clearList "availableconfs").andThen fun c => c.clearList "indiconfigurations").st
  have hcleared : ∀ l n, cleared.entry l n =
      if l = "indiconfigurations" then none else if l = "availableconfs" then none
      else c.entry l n := by
    intro l n
    show ((c.clearList "availableconfs").st.clearList "indiconfigurations").st.entry l n = _
    rw [entry_clearList, entry_clearList]
  have hhas : ∀ l, cleared.mControllerLovs.contains l = c.mControllerLovs.contains l := fun l =>
    (contains_onLov _ "indiconfigurations" _ l).trans (contains_onLov c "availableconfs" _ l)
  unfold SaveRun.confs' at hsaved
  subst hx
  cases saved with
  | false =>
    have hfailed : saveConf q r c db pConf profile drivers =
        ({ db with configurations := (r.confs' q c db pConf profile).2 },
          ((c.clearList "availableconfs").andThen fun c => c.clearList "indiconfigurations").andThen
            fun c => c.logError "Save configuration %1 failed" [pConf] ()) := by
      unfold saveConf SaveRun.confs'
      rw [if_pos (by rw [hsaved]; rfl)]
    rw [hfailed]
    refine ⟨rfl, fun n label => ?_⟩
    show (cleared.entry _ _ = _ ↔ _) ∧ (cleared.entry _ _ = _ ↔ _)
    rw [hcleared, hcleared]
    simp
  | true =>
    have hdone : (saveConf q r c db pConf profile drivers).1 =
        ⟨(r.confs' q c db pConf profile).2, (r.indi' db pConf drivers).2⟩ := by
      unfold saveConf SaveRun.confs' SaveRun.indi'
      rw [if_neg (by rw [hsaved]; exact Bool.false_ne_true)]
    have hlists : (saveConf q r c db pConf profile drivers).2.st =
        (((cleared.fillList "availableconfs" (getDbConfigurations r.readsConfs
          (r.confs' q c db pConf profile).2).keys).st).fillList "indiconfigurations"
            (getIndiConfigurations r.readsIndi (r.indi' db pConf drivers).2).keys).st := by
      unfold saveConf
      rw [if_neg (by rw [hsaved]; exact Bool.false_ne_true)]
      cases hok : (saveIndiConfiguration r.indi db.indiconfigurations pConf drivers).1 with
      | false =>
        simp only [hok]
        rfl
      | true =>
        simp only [hok]
        rfl
    rw [hdone, hlists]
    refine ⟨rfl, fun n label => ⟨?_, ?_⟩⟩
    · rw [entry_fillList _ _ _ (by rw [contains_fillList, hhas, hi]), if_neg (by simp),
        entry_refilled _ _ _ ((hhas _).trans ha) _ _ (by rw [hcleared]; rfl),
        mem_getDbConfigurations_iff]
      simp
    · rw [entry_refilled _ _ _ (by rw [contains_fillList, hhas, hi]) _ _
          (by rw [entry_fillList _ _ _ ((hhas _).trans ha), if_neg (by simp), hcleared]; rfl),
        mem_getIndiConfigurations_iff]
      simp

/-- **When the lists are right**, by what the saves leave. -/
theorem listsRight_iff (q : Engine) (r : SaveRun) (c : Loading.Controller) (db : Db)
    (pConf : String) (profile : String → String) (drivers : List String)
    (ha : c.mControllerLovs.contains "availableconfs" = true)
    (hi : c.mControllerLovs.contains "indiconfigurations" = true) (saved : Bool)
    (hsaved : (r.confs' q c db pConf profile).1 = saved) :
    ListsRight (saveConf q r c db pConf profile drivers).2.st
        (saveConf q r c db pConf profile drivers).1 ↔
      (saved = true ∧ r.readsConfs = true ∨
        ∀ d, ¬(r.confs' q c db pConf profile).2.Named d) ∧
      (saved = true ∧ r.readsIndi = true ∨
        ∀ d, ¬(if saved then (r.indi' db pConf drivers).2 else db.indiconfigurations).Named d) := by
  obtain ⟨hdb, hlists⟩ := saveConf_spec q r c db pConf profile drivers ha hi _ rfl saved hsaved
  have hpart : ∀ (entry : String → Option String) (shown : Prop) (named : String → Prop),
      (∀ n label, entry n = some label ↔ label = n ∧ shown ∧ named n) →
      ((∀ n label, entry n = some label ↔ label = n ∧ named n) ↔ shown ∨ ∀ n, ¬named n) := by
    intro entry shown named hentry
    constructor
    · intro h
      by_cases hshown : shown
      · exact .inl hshown
      · refine .inr fun n hn => hshown ?_
        exact ((hentry n n).mp ((h n n).mpr ⟨rfl, hn⟩)).2.1
    · intro h n label
      rw [hentry]
      rcases h with hshown | hnone
      · simp [hshown]
      · simp [hnone]
  unfold ListsRight
  rw [hpart _ (saved = true ∧ r.readsConfs = true) _ fun n label => by
      rw [and_assoc]; exact (hlists n label).1,
    hpart _ (saved = true ∧ r.readsIndi = true) _ fun n label => by
      rw [and_assoc]; exact (hlists n label).2, hdb]

/-! ## When the lists are right -/

namespace Engine

/-- Statements of literals do what they say, whatever SQLite makes of others. -/
theorem saves_iff_of_readable (q : Engine) (o : Outcomes) (rows : ConfRows) (c : String)
    (lines : OrdMap String ModuleLine) (h : Readable c lines.values) :
    (q.saveDbConfiguration o rows c lines).1 = true ↔ o.saves lines.values.length := by
  unfold Outcomes.saves
  cases hdel : o.deletes with
  | false =>
    rw [not_deletes q o rows c lines hdel]
    exact iff_of_false nofun fun h => nomatch h.1
  | true =>
    obtain ⟨hopens, hfirst⟩ := Bool.and_eq_true_iff.mp hdel
    obtain ⟨d, hd⟩ := Option.ne_none_iff_exists'.mp h.1
    have hrun : q.saveDbConfiguration o rows c lines =
        attempt (fun n line rows => q.exec (o.succeeds (n + 1)) (insertSql c line) rows) 0
          lines.values (rows.without d) := by
      unfold saveDbConfiguration exec
      rw [hopens, hfirst, hd]
      rfl
    rw [hrun, attempt_eq _ (fun line rows =>
        (insertOf (insertSql c line)).elim rows fun x => rows.put x.1 x.2)
      (fun k => o.succeeds (k + 1))]
    · show decide (o.inserts _ = _) = true ↔ _
      rw [decide_eq_true_iff, and_iff_right rfl]
    · intro k hk
      obtain ⟨x, hx⟩ := Option.ne_none_iff_exists'.mp (h.2 _ (List.getElem_mem hk))
      rw [Nat.zero_add]
      unfold exec
      rw [deleteOf_insertSql, hx]
      cases o.succeeds (k + 1) <;> rfl

theorem readable_of_strict (o : Outcomes) (rows : ConfRows) (c : String)
    (lines : OrdMap String ModuleLine)
    (h : (strict.saveDbConfiguration o rows c lines).1 = true) : Readable c lines.values := by
  cases hdel : o.deletes with
  | false =>
    rw [not_deletes strict o rows c lines hdel] at h
    cases h
  | true =>
    obtain ⟨hopens, hfirst⟩ := Bool.and_eq_true_iff.mp hdel
    cases hd : deleteOf (deleteSql c) with
    | none =>
      unfold saveDbConfiguration exec at h
      rw [hopens, hfirst, hd, insertOf_deleteSql] at h
      cases h
    | some d =>
      refine ⟨by rw [hd]; exact Option.some_ne_none d, fun line hline hnone => ?_⟩
      rw [strict_saves o rows c d lines hdel hd] at h
      obtain ⟨k, hk, rfl⟩ := List.mem_iff_getElem.mp hline
      obtain ⟨s, s', hstep⟩ := attempt_succeeds _ 0 _ _ h k hk
      obtain ⟨-, e, row, hread, -⟩ := strict_insert_cases _ c _ s s' hstep
      rw [hread] at hnone
      cases hnone

/-- A row of another name stays. -/
theorem strict_keeps (o : Outcomes) (rows : ConfRows) (c d e : String)
    (lines : OrdMap String ModuleLine) (hdel : o.deletes = true)
    (hd : deleteOf (deleteSql c) = some d) (hne : e ≠ d) (h : rows.Named e) :
    Groups.Named (strict.saveDbConfiguration o rows c lines).2 e := by
  rw [strict_saves o rows c d lines hdel hd]
  refine attempt_induction (fun rows : ConfRows => rows.Named e) _ 0 _ _ ?_ ?_
  · intro k line _ rows rows' ih hstep
    obtain ⟨-, f, row, -, rfl⟩ := strict_insert_cases _ c line rows rows' hstep
    obtain ⟨i, a, hi⟩ := ih
    unfold Groups.Named Groups.put
    simp only [OrdMap.get?_insert]
    by_cases heq : toLex (e, i) = toLex (f, row.1)
    · exact ⟨i, row.2, if_pos heq⟩
    · exact ⟨i, a, by rw [if_neg heq, hi]⟩
  · obtain ⟨i, a, hi⟩ := h
    exact ⟨i, a, (Groups.get?_without rows d _).trans ((if_neg hne).trans hi)⟩

end Engine

theorem plain_readable (c : String) (lines : List ModuleLine) (hc : PlainText c)
    (hlines : ∀ line ∈ lines, line.Plain) : Readable c lines := by
  refine ⟨?_, fun line hline => ?_⟩
  · rw [(deleteOf_self_iff c).mpr hc]
    exact Option.some_ne_none _
  · rw [insertOf_insertSql c line hc (hlines line hline)]
    exact Option.some_ne_none _

/-- **The lists are right after a save of plain texts** -/
theorem listsRight_plain_iff (q : Engine) (r : SaveRun) (c : Loading.Controller) (db : Db)
    (pConf : String) (profile : String → String) (drivers : List String)
    (ha : c.mControllerLovs.contains "availableconfs" = true)
    (hi : c.mControllerLovs.contains "indiconfigurations" = true) (hc : PlainText pConf)
    (hlines : ∀ line ∈ (moduleLines c profile).values, line.Plain) :
    ListsRight (saveConf q r c db pConf profile drivers).2.st
        (saveConf q r c db pConf profile drivers).1 ↔
      r.confs.saves (moduleLines c profile).values.length ∧
        (r.readsConfs = true ∨ Emptied r.confs.deletes db.configurations pConf
          (r.confs.inserts (moduleLines c profile).values.length)) ∧
        (r.readsIndi = true ∨ Emptied r.indi.deletes db.indiconfigurations pConf
          (r.indi.insertsDrivers drivers)) ∨
      ¬r.confs.saves (moduleLines c profile).values.length ∧
        Emptied r.confs.deletes db.configurations pConf
          (r.confs.inserts (moduleLines c profile).values.length) ∧
        ∀ d, ¬db.indiconfigurations.Named d := by
  have hsaves := Engine.saves_iff_of_readable q r.confs db.configurations pConf
    (moduleLines c profile) (plain_readable pConf _ hc hlines)
  have hconfs : (∀ d, ¬(r.confs' q c db pConf profile).2.Named d) ↔
      Emptied r.confs.deletes db.configurations pConf
        (r.confs.inserts (moduleLines c profile).values.length) := by
    unfold SaveRun.confs' Emptied
    rw [Engine.saveDbConfiguration_eq q r.confs _ pConf _ hc hlines]
    cases r.confs.deletes with
    | false => exact Iff.rfl
    | true =>
      rw [if_pos rfl, if_pos rfl, Groups.not_named_refill_iff, List.take_eq_nil_iff]
      have hle := r.confs.inserts_le (moduleLines c profile).values.length
      refine and_congr_left fun _ => ⟨?_, .inl⟩
      rintro (hzero | hnil)
      · exact hzero
      · rw [List.map_eq_nil_iff.mp hnil, List.length_nil] at hle ⊢
        exact Nat.le_zero.mp hle
  have hindi : (∀ d, ¬(r.indi' db pConf drivers).2.Named d) ↔
      Emptied r.indi.deletes db.indiconfigurations pConf (r.indi.insertsDrivers drivers) := by
    unfold SaveRun.indi' Emptied
    rw [saveIndiConfiguration_eq]
    cases r.indi.deletes with
    | false => exact Iff.rfl
    | true =>
      rw [if_pos rfl, if_pos rfl, Groups.not_named_refill_iff, List.take_eq_nil_iff]
      have hle := r.indi.insertsDrivers_le drivers
      refine and_congr_left fun _ => ⟨?_, .inl⟩
      rintro (hzero | hnil)
      · exact hzero
      · rw [List.map_eq_nil_iff.mp hnil, List.length_nil] at hle
        rw [List.map_eq_nil_iff.mp hnil]
        exact Nat.le_zero.mp hle
  cases hsaved : (r.confs' q c db pConf profile).1 with
  | false =>
    have hnot : ¬r.confs.saves (moduleLines c profile).values.length := fun h => by
      rw [SaveRun.confs', hsaves.mpr h] at hsaved
      cases hsaved
    rw [listsRight_iff q r c db pConf profile drivers ha hi false hsaved, hconfs]
    simp [hnot]
  | true =>
    have hyes := hsaves.mp hsaved
    rw [listsRight_iff q r c db pConf profile drivers ha hi true hsaved, hconfs, if_pos rfl, hindi]
    simp [hyes]

/-- and after a save of any texts, whatever is stored. -/
theorem forall_listsRight_iff (r : SaveRun) (c : Loading.Controller) (pConf : String)
    (profile : String → String) (drivers : List String)
    (ha : c.mControllerLovs.contains "availableconfs" = true)
    (hi : c.mControllerLovs.contains "indiconfigurations" = true) :
    (∀ (q : Engine) (db : Db), ListsRight (saveConf q r c db pConf profile drivers).2.st
      (saveConf q r c db pConf profile drivers).1) ↔
    Readable pConf (moduleLines c profile).values ∧
      r.confs.saves (moduleLines c profile).values.length ∧
      r.readsConfs = true ∧ r.readsIndi = true := by
  constructor
  · intro h
    obtain ⟨e, he⟩ := exists_ne pConf
    -- a table of drivers that has a name which the save does not touch
    let indi : IndiRows := OrdMap.insert OrdMap.empty (toLex (e, "")) ()
    have hindi : indi.Named e := ⟨"", (), OrdMap.get?_insert_self _ _ _⟩
    have hright := fun db saved hsaved => (listsRight_iff Engine.strict r c db pConf profile drivers
      ha hi saved hsaved).mp (h Engine.strict db)
    have hsaved : ∀ rows, (r.confs' Engine.strict c ⟨rows, indi⟩ pConf profile).1 = true := by
      intro rows
      cases hsaved : (r.confs' Engine.strict c ⟨rows, indi⟩ pConf profile).1 with
      | true => rfl
      | false =>
        rcases (hright ⟨rows, indi⟩ false hsaved).2 with hno | hnone
        · cases hno.1
        · exact absurd hindi (hnone e)
    have hread := Engine.readable_of_strict r.confs _ pConf _ (hsaved OrdMap.empty)
    have hsaves := (Engine.saves_iff_of_readable Engine.strict r.confs _ pConf _ hread).mp
      (hsaved OrdMap.empty)
    refine ⟨hread, hsaves, ?_, ?_⟩
    · obtain ⟨d, hd⟩ := Option.ne_none_iff_exists'.mp hread.1
      obtain ⟨f, hf⟩ := exists_ne d
      let rows : ConfRows := OrdMap.insert OrdMap.empty (toLex (f, "")) ("", "")
      have hrows : rows.Named f := ⟨"", ("", ""), OrdMap.get?_insert_self _ _ _⟩
      rcases (hright ⟨rows, indi⟩ true (hsaved rows)).1 with hyes | hnone
      · exact hyes.2
      · exact absurd (Engine.strict_keeps r.confs rows pConf d f _ hsaves.1 hd hf hrows) (hnone f)
    · rcases (hright ⟨OrdMap.empty, indi⟩ true (hsaved _)).2 with hyes | hnone
      · exact hyes.2
      · have hkept : Groups.Named (r.indi' ⟨OrdMap.empty, indi⟩ pConf drivers).2 e := by
          unfold SaveRun.indi'
          rw [saveIndiConfiguration_eq]
          split
          · exact ⟨"", (), (Groups.get?_refill_of_ne indi pConf e _ "" he).trans
              (OrdMap.get?_insert_self _ _ _)⟩
          · exact hindi
        exact absurd hkept (hnone e)
  · rintro ⟨hread, hsaves, hconfs, hindi⟩ q db
    refine (listsRight_iff q r c db pConf profile drivers ha hi true ?_).mpr
      ⟨.inl ⟨rfl, hconfs⟩, .inl ⟨rfl, hindi⟩⟩
    exact (Engine.saves_iff_of_readable q r.confs _ pConf _ hread).mpr hsaves

/-! ## Main theorem -/

/-- **When a save is all or nothing, and when the lists are right after it**: each is told for all
texts whatever is stored, and for texts without quotes by what is stored. -/
theorem saveConf_iff (o : Outcomes) (conf : String) (lines : OrdMap String ModuleLine)
    (drivers : List String) (r : SaveRun) (c : Loading.Controller) (profile : String → String) :
    ((∀ (q : Engine) (rows : ConfRows), AllOrNothing rows conf (lines.values.map ModuleLine.row)
        (q.saveDbConfiguration o rows conf lines)) ↔
      o.deletes = false ∨ (PlainText conf ∧ (∀ line ∈ lines.values, line.Plain) ∧
        o.inserts lines.values.length = lines.values.length ∧
        (lines.values.map ModuleLine.label).Nodup)) ∧
    (∀ (q : Engine) (rows : ConfRows), PlainText conf → (∀ line ∈ lines.values, line.Plain) →
      (AllOrNothing rows conf (lines.values.map ModuleLine.row)
          (q.saveDbConfiguration o rows conf lines) ↔
        Spared o.deletes rows conf (lines.values.map ModuleLine.row)
          (o.inserts lines.values.length))) ∧
    (∀ rows : IndiRows,
      AllOrNothing rows conf (driverRows drivers) (saveIndiConfiguration o rows conf drivers) ↔
        Spared o.deletes rows conf (driverRows drivers) (o.insertsDrivers drivers)) ∧
    (c.mControllerLovs.contains "availableconfs" = true →
      c.mControllerLovs.contains "indiconfigurations" = true →
      ((∀ (q : Engine) (db : Db), ListsRight (saveConf q r c db conf profile drivers).2.st
        (saveConf q r c db conf profile drivers).1) ↔
        Readable conf (moduleLines c profile).values ∧
          r.confs.saves (moduleLines c profile).values.length ∧
          r.readsConfs = true ∧ r.readsIndi = true) ∧
      (PlainText conf → (∀ line ∈ (moduleLines c profile).values, line.Plain) →
        ∀ (q : Engine) (db : Db),
        (ListsRight (saveConf q r c db conf profile drivers).2.st
            (saveConf q r c db conf profile drivers).1 ↔
          r.confs.saves (moduleLines c profile).values.length ∧
            (r.readsConfs = true ∨ Emptied r.confs.deletes db.configurations conf
              (r.confs.inserts (moduleLines c profile).values.length)) ∧
            (r.readsIndi = true ∨ Emptied r.indi.deletes db.indiconfigurations conf
              (r.indi.insertsDrivers drivers)) ∨
          ¬r.confs.saves (moduleLines c profile).values.length ∧
            Emptied r.confs.deletes db.configurations conf
              (r.confs.inserts (moduleLines c profile).values.length) ∧
            ∀ d, ¬db.indiconfigurations.Named d))) := by
  refine ⟨Engine.forall_allOrNothing_iff o conf lines, fun q rows hc hlines => ?_,
    fun rows => ?_, fun ha hi =>
      ⟨forall_listsRight_iff r c conf profile drivers ha hi, fun hc hlines q db =>
        listsRight_plain_iff q r c db conf profile drivers ha hi hc hlines⟩⟩
  · rw [Engine.saveDbConfiguration_eq q o rows conf lines hc hlines]
    exact allOrNothing_deleted_iff _ _ _ _ _ _ (List.length_map _) (o.inserts_le _)
  · rw [saveIndiConfiguration_eq]
    exact allOrNothing_deleted_iff _ _ _ _ _ _ (List.length_map _) (o.insertsDrivers_le _)

/-- A controller with two modules and the two lists. -/
def twoModules : Loading.Controller where
  modules := [⟨"mount", "Mount", "indimount", [], false⟩, ⟨"guider", "Guider", "guider", [], false⟩]
  mControllerLovs := OrdMap.ofEntries
    [("availableconfs", { key := "availableconfs" }),
      ("indiconfigurations", { key := "indiconfigurations" })]

/-- Two configurations are stored, with a driver for one of them. -/
def stored : Db where
  configurations := OrdMap.ofEntries [(toLex ("garden", "Mount"), ("indimount", "default")),
    (toLex ("roof", "Mount"), ("indimount", "default"))]
  indiconfigurations := OrdMap.ofEntries [(toLex ("garden", "Telescope"), ())]

/-- All statements can be executed but those of some numbers. -/
def failing (numbers : List ℕ) : Outcomes := ⟨true, fun n => decide (n ∉ numbers)⟩

theorem saveConf_sample :
    twoModules.mControllerLovs.contains "availableconfs" = true ∧
    ListsRight
      (saveConf Engine.strict ⟨failing [], failing [], true, true⟩ twoModules stored "garden"
        (fun _ => "default") ["Telescope"]).2.st
      (saveConf Engine.strict ⟨failing [], failing [], true, true⟩ twoModules stored "garden"
        (fun _ => "default") ["Telescope"]).1 ∧
    AllOrNothing stored.configurations "garden"
      ((moduleLines twoModules fun _ => "default").values.map ModuleLine.row)
      (Engine.strict.saveDbConfiguration (failing []) stored.configurations "garden"
        (moduleLines twoModules fun _ => "default")) := by
  have hc : PlainText "garden" := by decide +kernel
  have hlines : ∀ line ∈ (moduleLines twoModules fun _ => "default").values, line.Plain := by
    decide +kernel
  obtain ⟨-, hsave, -, hlists⟩ := saveConf_iff (failing []) "garden"
    (moduleLines twoModules fun _ => "default") ["Telescope"]
    ⟨failing [], failing [], true, true⟩ twoModules fun _ => "default"
  have hlists := hlists (by decide +kernel) (by decide +kernel)
  have hsave := hsave Engine.strict stored.configurations hc hlines
  have hall : (failing []).saves (moduleLines twoModules fun _ => "default").values.length :=
    ⟨by decide +kernel, by decide +kernel⟩
  have hnodup : (((moduleLines twoModules fun _ => "default").values.map ModuleLine.row).map
      (·.1)).Nodup := by decide +kernel
  have hlen : (failing []).inserts (moduleLines twoModules fun _ => "default").values.length =
      ((moduleLines twoModules fun _ => "default").values.map ModuleLine.row).length := by
    rw [List.length_map]
    exact hall.2
  constructor
  · decide +kernel
  · constructor
    · exact (hlists.2 hc hlines Engine.strict stored).mpr (.inl ⟨hall, .inl rfl, .inl rfl⟩)
    · exact hsave.mpr (.inr (.inl ⟨hlen, hnodup⟩))

theorem not_allOrNothing {α : Type} (rows : Groups String String α) (c : String)
    (l : List (String × α)) (r : Bool × Groups String String α) (k : String ×ₗ String)
    (hfails : r.1 = false) (hk : (OrdMap.get? r.2 k).isSome ≠ (OrdMap.get? rows k).isSome) :
    ¬AllOrNothing rows c l r := by
  intro h
  rw [h.kept hfails] at hk
  exact hk rfl

/-- A save whose first insertion fails loses what was stored, for the drivers too, and the lists are
left empty. -/
theorem saveConf_fails :
    ¬AllOrNothing stored.configurations "garden"
      ((moduleLines twoModules fun _ => "default").values.map ModuleLine.row)
      (Engine.strict.saveDbConfiguration (failing [1]) stored.configurations "garden"
        (moduleLines twoModules fun _ => "default")) ∧
    ¬AllOrNothing stored.indiconfigurations "garden" (driverRows ["CCD"])
      (saveIndiConfiguration (failing [1]) stored.indiconfigurations "garden" ["CCD"]) ∧
    ¬ListsRight
      (saveConf Engine.strict ⟨failing [1], failing [], true, true⟩ twoModules stored "garden"
        (fun _ => "default") ["CCD"]).2.st
      (saveConf Engine.strict ⟨failing [1], failing [], true, true⟩ twoModules stored "garden"
        (fun _ => "default") ["CCD"]).1 := by
  refine ⟨?_, ?_, fun h => ?_⟩
  · exact not_allOrNothing _ _ _ _ (toLex ("garden", "Mount")) (by decide +kernel) (by decide +kernel)
  · exact not_allOrNothing _ _ _ _ (toLex ("garden", "Telescope")) (by decide +kernel)
      (by decide +kernel)
  · have hnamed : ((saveConf Engine.strict ⟨failing [1], failing [], true, true⟩ twoModules stored
        "garden" (fun _ => "default") ["CCD"]).1.configurations).Named "roof" :=
      ⟨"Mount", ("indimount", "default"), by decide +kernel⟩
    have hentry := (h.1 "roof" "roof").mpr ⟨rfl, hnamed⟩
    revert hentry
    decide +kernel

end Ost.Saving
