import Ost.Front.Datastore
import Ost.Lib.Emit
import Mathlib.Data.List.Perm.Basic

/-!
# The folders and files shown to the clients

The controller keeps the list of the folders under the web root and of the files of the selected
folder.  When the file system changes it scans again, announces what is new and what is gone, and
sends the whole list if there was any difference; choosing a folder sends its files whole.

Algorithm:
- `announceNew` and `announceGone` are the two loops over a scan; `rescan` is both, then the list.
- `OnFileWatcherEvent` rescans the folders, and the files if the change is in the selected folder.
- `FileEvent.message` is what is sent of an event, `ClientFiles.apply` what it does to the lists of a
  client, which are those of its datastore (`In`).

Main theorems:
    announceGone_eq, mem_difference, nodup_difference:  the list left holds what the scan does
    read_difference, read_rescan:  a client's list that was the one stored is the new one
    in_receive:        the datastore of a client has the lists that `apply` gives
    watch_difference:  all of it, for any lists that have come to be announced
-/

namespace Ost

open Lib

/-! ## Algorithm -/

inductive FileEvent where
  | ad (folder : String)
  | dd (folder : String)
  | af (file : String)
  | df (file : String)
  | ucFolders (folders : List String)
  | ucFiles (files : List String)
  deriving DecidableEq

/-- What the lists of a client are told by: the codes of one of the two lists. -/
structure FileCodes where
  added : String → FileEvent
  deleted : String → FileEvent
  whole : List String → FileEvent

def folderCodes : FileCodes := ⟨.ad, .dd, .ucFolders⟩

def fileCodes : FileCodes := ⟨.af, .df, .ucFiles⟩

namespace FileCodes

/-- The loop over the scan: what is not in the list is announced and appended. -/
def announceNew (codes : FileCodes) (scan : List String) (stored : List String) :
    Emits (List String) FileEvent Unit :=
  Emits.each (fun l i => if i ∈ l then .quiet l () else .emit (l ++ [i]) (codes.added i) ())
    scan stored

/-- The loop over a copy of the list: what is not in the scan is announced and removed once. -/
def announceGone (codes : FileCodes) (scan : List String) (stored : List String) :
    Emits (List String) FileEvent Unit :=
  Emits.each (fun l i => if i ∈ scan then .quiet l () else .emit (l.erase i) (codes.deleted i) ())
    stored stored

/-- Both loops. -/
def difference (codes : FileCodes) (scan : List String) (stored : List String) :
    Emits (List String) FileEvent Unit :=
  (codes.announceNew scan stored).andThen (codes.announceGone scan)

/-- The list is sent whole after any announcement. -/
def rescan (codes : FileCodes) (scan : List String) (stored : List String) :
    Emits (List String) FileEvent Unit :=
  let x := codes.difference scan stored
  x.andThen fun l => if x.evs = [] then .quiet l () else .emit l (codes.whole l) ()

end FileCodes

/-- The lists of the controller. -/
structure FileLists where
  mFoldersList : List String
  mFilesList : List String
  mSelectedFolder : String

namespace FileLists

/-- `folders` and `files` are what the two scans of the disk give. -/
def OnFileWatcherEvent (c : FileLists) (pEvent : String) (folders files : List String) :
    Emits FileLists FileEvent Unit :=
  let x := folderCodes.rescan folders c.mFoldersList
  let c := { c with mFoldersList := x.st }
  if pEvent ≠ c.mSelectedFolder then ⟨c, x.evs, ()⟩
  else
    let y := fileCodes.rescan files c.mFilesList
    ⟨{ c with mFilesList := y.st }, x.evs ++ y.evs, ()⟩

/-- `files` is what the scan of the folder gives. -/
def selectFolder (c : FileLists) (folder : String) (files : List String) :
    Emits FileLists FileEvent Unit :=
  .emit { c with mSelectedFolder := folder, mFilesList := files } (.ucFiles files) ()

end FileLists

/-- The lists of a client. -/
structure ClientFiles where
  folders : List String
  files : List String

/-- `if (!list.includes(path)) list.push(path)`. -/
def addPath (l : List String) (path : String) : List String := if path ∈ l then l else l ++ [path]

/-- `list.filter((f) => f !== path)`. -/
def dropPath (l : List String) (path : String) : List String := l.filter fun f => f ≠ path

/-- What an event does to the folders of a client. -/
def ClientFiles.readFolders (l : List String) : FileEvent → List String
  | .ad path => addPath l path
  | .dd path => dropPath l path
  | .ucFolders folders => folders
  | .af _ | .df _ | .ucFiles _ => l

/-- What an event does to the files of a client. -/
def ClientFiles.readFiles (l : List String) : FileEvent → List String
  | .af path => addPath l path
  | .df path => dropPath l path
  | .ucFiles files => files
  | .ad _ | .dd _ | .ucFolders _ => l

/-- `_applyFolderEvent`, `_applyFileEvent` and `_applyControllerUpdate`. -/
def ClientFiles.apply (c : ClientFiles) (e : FileEvent) : ClientFiles :=
  ⟨readFolders c.folders e, readFiles c.files e⟩

/-- The list as an array of texts. -/
def jsonTexts (l : List String) : List QJsonValue := l.map .str

/-- What the handler sends of it: the path under its code, or the list as data of the controller. -/
def FileEvent.message : FileEvent → QJsonValue
  | .ad path => .object (Json.record [("ad", .str path)])
  | .dd path => .object (Json.record [("dd", .str path)])
  | .af path => .object (Json.record [("af", .str path)])
  | .df path => .object (Json.record [("df", .str path)])
  | .ucFolders folders =>
    .object (Json.record [("uc", .object (Json.record [("folders", .arr (jsonTexts folders))]))])
  | .ucFiles files =>
    .object (Json.record [("uc", .object (Json.record [("files", .arr (jsonTexts files))]))])

def Front.Datastore.receiveFile (ds : Front.Datastore) (e : FileEvent) : Front.Datastore :=
  ds.applyMessage e.message

/-- The lists are those of a datastore. -/
structure ClientFiles.In (c : ClientFiles) (ds : Front.Datastore) : Prop where
  folders : ds.files.folders = jsonTexts c.folders
  files : ds.files.files = jsonTexts c.files

/-- The add and delete events. -/
def FileEvent.isChange : FileEvent → Bool
  | .ad _ | .dd _ | .af _ | .df _ => true
  | .ucFolders _ | .ucFiles _ => false

/-- The lists that the controller has come to announce: those of its first scans, then of every
selection and of every change of the disk, no scan having duplicates. -/
inductive FileLists.Announced : FileLists → Prop
  | start (folders files : List String) (webroot : String) (hfolders : folders.Nodup)
      (hfiles : files.Nodup) : Announced ⟨folders, files, webroot⟩
  | select (c : FileLists) (h : Announced c) (folder : String) (files : List String)
      (hfiles : files.Nodup) : Announced (c.selectFolder folder files).st
  | watch (c : FileLists) (h : Announced c) (pEvent : String) (folders files : List String)
      (hfolders : folders.Nodup) (hfiles : files.Nodup) :
      Announced (c.OnFileWatcherEvent pEvent folders files).st

/-! ## What a rescan leaves and sends -/

namespace FileCodes

variable (codes : FileCodes)

theorem mem_announceNew (scan stored : List String) (p : String) :
    p ∈ (codes.announceNew scan stored).st ↔ p ∈ stored ∨ p ∈ scan := by
  unfold announceNew
  induction scan generalizing stored with
  | nil => simp
  | cons i scan ih =>
    rw [Emits.each_cons, Emits.andThen_st, ih]
    by_cases hi : i ∈ stored
    · rw [if_pos hi, Emits.quiet_st, List.mem_cons]
      constructor
      · rintro (h | h)
        · exact .inl h
        · exact .inr (.inr h)
      · rintro (h | rfl | h)
        · exact .inl h
        · exact .inl hi
        · exact .inr h
    · rw [if_neg hi, Emits.emit_st, List.mem_append, List.mem_singleton, List.mem_cons, or_assoc]

theorem nodup_announceNew (scan stored : List String) (h : stored.Nodup) :
    (codes.announceNew scan stored).st.Nodup := by
  refine Emits.each_st_induction List.Nodup _ scan (fun l i _ hl => ?_) stored h
  split
  · exact hl
  · next hi => exact List.nodup_append_comm.mp (List.nodup_cons.mpr ⟨hi, hl⟩)

/-- What is gone is announced entry by entry, what is left is what the scan holds. -/
theorem announceGone_eq (scan stored : List String) :
    codes.announceGone scan stored = ⟨stored.filter (· ∈ scan),
      (stored.filter (· ∉ scan)).map codes.deleted, ()⟩ := by
  -- the entries before the one looked at are all in the scan, so the first one equal to it is it
  suffices h : ∀ kept rest : List String, (∀ p ∈ kept, p ∈ scan) →
      Emits.each (fun l i => if i ∈ scan then .quiet l () else
        .emit (l.erase i) (codes.deleted i) ()) rest (kept ++ rest) =
      ⟨kept ++ rest.filter (· ∈ scan), (rest.filter (· ∉ scan)).map codes.deleted, ()⟩ from
    h [] stored (by simp)
  intro kept rest hkept
  induction rest generalizing kept with
  | nil => simp [Emits.quiet]
  | cons i rest ih =>
    rw [Emits.each_cons]
    unfold Emits.andThen
    by_cases hi : i ∈ scan
    · have hk : ∀ p ∈ kept ++ [i], p ∈ scan := by
        intro p hp
        rcases List.mem_append.mp hp with hp | hp
        · exact hkept p hp
        · exact List.mem_singleton.mp hp ▸ hi
      have hih := ih (kept ++ [i]) hk
      rw [List.append_assoc, List.singleton_append] at hih
      simp [hi, hih]
    · have hnot : i ∉ kept := fun h => hi (hkept i h)
      have herase : (kept ++ i :: rest).erase i = kept ++ rest := by
        rw [List.erase_append_right _ hnot, List.erase_cons_head]
      simp [hi, herase, ih kept hkept]

/-- **The list left holds what the scan does.** -/
theorem mem_difference (scan stored : List String) (p : String) :
    p ∈ (codes.difference scan stored).st ↔ p ∈ scan := by
  unfold difference
  rw [Emits.andThen_st, announceGone_eq]
  simp only [List.mem_filter, decide_eq_true_eq, mem_announceNew]
  exact ⟨fun h => h.2, fun h => ⟨.inr h, h⟩⟩

theorem nodup_difference (scan stored : List String) (h : stored.Nodup) :
    (codes.difference scan stored).st.Nodup := by
  unfold difference
  rw [Emits.andThen_st, announceGone_eq]
  exact (codes.nodup_announceNew scan stored h).filter _

theorem rescan_st (scan stored : List String) :
    (codes.rescan scan stored).st = (codes.difference scan stored).st := by
  unfold rescan
  dsimp only
  rw [Emits.andThen_st]
  split <;> rfl

theorem rescan_evs (scan stored : List String) :
    (codes.rescan scan stored).evs = (codes.difference scan stored).evs ∨
    (codes.rescan scan stored).evs = (codes.difference scan stored).evs ++
      [codes.whole (codes.difference scan stored).st] := by
  unfold rescan
  dsimp only
  rw [Emits.andThen_evs]
  split
  · exact .inl (List.append_nil _)
  · exact .inr rfl

/-- Every event of the loops is an addition or a deletion of these codes. -/
theorem mem_difference_evs (scan stored : List String) (e : FileEvent)
    (he : e ∈ (codes.difference scan stored).evs) :
    ∃ p, e = codes.added p ∨ e = codes.deleted p := by
  unfold difference at he
  rw [Emits.andThen_evs, List.mem_append] at he
  rcases he with he | he
  · refine Emits.each_evs_forall (fun e => ∃ p, e = codes.added p ∨ e = codes.deleted p) _ scan
      (fun l i e he => ?_) stored e he
    split at he
    · cases he
    · exact ⟨i, .inl (List.mem_singleton.mp he)⟩
  · rw [announceGone_eq] at he
    obtain ⟨p, -, rfl⟩ := List.mem_map.mp he
    exact ⟨p, .inr rfl⟩

end FileCodes

/-! ## A client reads the events -/

/-- A list that reads these codes as the clients do. -/
structure Reads (codes : FileCodes) (read : List String → FileEvent → List String) : Prop where
  added : ∀ l p, read l (codes.added p) = addPath l p
  deleted : ∀ l p, read l (codes.deleted p) = dropPath l p
  whole : ∀ l w, read l (codes.whole w) = w

/-- A list that these codes are not about. -/
structure Ignores (codes : FileCodes) (read : List String → FileEvent → List String) : Prop where
  added : ∀ l p, read l (codes.added p) = l
  deleted : ∀ l p, read l (codes.deleted p) = l
  whole : ∀ l w, read l (codes.whole w) = l

theorem reads_folders : Reads folderCodes ClientFiles.readFolders :=
  ⟨fun _ _ => rfl, fun _ _ => rfl, fun _ _ => rfl⟩

theorem reads_files : Reads fileCodes ClientFiles.readFiles :=
  ⟨fun _ _ => rfl, fun _ _ => rfl, fun _ _ => rfl⟩

theorem ignores_folders : Ignores fileCodes ClientFiles.readFolders :=
  ⟨fun _ _ => rfl, fun _ _ => rfl, fun _ _ => rfl⟩

theorem ignores_files : Ignores folderCodes ClientFiles.readFiles :=
  ⟨fun _ _ => rfl, fun _ _ => rfl, fun _ _ => rfl⟩

section
variable {codes : FileCodes} {read : List String → FileEvent → List String}

theorem read_announceNew (h : Reads codes read) (scan stored : List String) :
    (codes.announceNew scan stored).evs.foldl read stored = (codes.announceNew scan stored).st := by
  unfold FileCodes.announceNew
  induction scan generalizing stored with
  | nil => rfl
  | cons i scan ih =>
    rw [Emits.each_cons, Emits.andThen_evs, Emits.andThen_st, List.foldl_append]
    by_cases hi : i ∈ stored
    · rw [if_pos hi, Emits.quiet_evs, Emits.quiet_st]
      exact ih stored
    · rw [if_neg hi, Emits.emit_evs, Emits.emit_st, List.foldl_cons, List.foldl_nil, h.added,
        addPath, if_neg hi]
      exact ih (stored ++ [i])

/-- Deletions read one after the other leave what none of them names. -/
theorem read_deleted (h : Reads codes read) (gone l : List String) :
    (gone.map codes.deleted).foldl read l = l.filter (· ∉ gone) := by
  induction gone generalizing l with
  | nil => simp
  | cons i gone ih =>
    rw [List.map_cons, List.foldl_cons, h.deleted, ih, dropPath, List.filter_filter]
    refine List.filter_congr fun p _ => ?_
    simp only [List.mem_cons, not_or, Bool.decide_and]
    exact Bool.and_comm _ _

/-- **A list that was the one stored is the one stored once it has read the additions and
deletions.** -/
theorem read_difference (h : Reads codes read) (scan stored : List String) :
    (codes.difference scan stored).evs.foldl read stored = (codes.difference scan stored).st := by
  unfold FileCodes.difference
  rw [Emits.andThen_evs, Emits.andThen_st, List.foldl_append, read_announceNew h,
    FileCodes.announceGone_eq, read_deleted h]
  refine List.filter_congr fun p hp => ?_
  simp [hp]

theorem read_rescan (h : Reads codes read) (scan stored : List String) :
    (codes.rescan scan stored).evs.foldl read stored = (codes.rescan scan stored).st := by
  rw [FileCodes.rescan_st]
  rcases codes.rescan_evs scan stored with hevs | hevs
  · rw [hevs, read_difference h]
  · rw [hevs, List.foldl_append, List.foldl_cons, List.foldl_nil, h.whole]

theorem ignore_difference (h : Ignores codes read) (scan stored l : List String) :
    (codes.difference scan stored).evs.foldl read l = l := by
  have hread : ∀ e ∈ (codes.difference scan stored).evs, read l e = l := by
    intro e he
    obtain ⟨p, rfl | rfl⟩ := codes.mem_difference_evs scan stored e he
    · exact h.added l p
    · exact h.deleted l p
  generalize (codes.difference scan stored).evs = evs at hread
  induction evs with
  | nil => rfl
  | cons e evs ih =>
    rw [List.foldl_cons, hread e List.mem_cons_self]
    exact ih fun e he => hread e (List.mem_cons_of_mem _ he)

theorem ignore_rescan (h : Ignores codes read) (scan stored l : List String) :
    (codes.rescan scan stored).evs.foldl read l = l := by
  rcases codes.rescan_evs scan stored with hevs | hevs
  · rw [hevs, ignore_difference h]
  · rw [hevs, List.foldl_append, ignore_difference h, List.foldl_cons, List.foldl_nil, h.whole]

end

/-! ## The datastore of a client -/

theorem mem_jsonTexts (l : List String) (path : String) : Json.str path ∈ jsonTexts l ↔ path ∈ l :=
  List.mem_map_of_injective fun _ _ h => Json.str.inj h

theorem jsonTexts_addPath (l : List String) (path : String) :
    jsonTexts (addPath l path) =
      if Json.str path ∈ jsonTexts l then jsonTexts l else jsonTexts l ++ [Json.str path] := by
  unfold addPath
  by_cases h : path ∈ l
  · rw [if_pos h, if_pos ((mem_jsonTexts l path).mpr h)]
  · rw [if_neg h, if_neg fun h' => h ((mem_jsonTexts l path).mp h')]
    exact List.map_append

theorem jsonTexts_dropPath (l : List String) (path : String) :
    jsonTexts (dropPath l path) = (jsonTexts l).filter fun f => f ≠ Json.str path := by
  unfold jsonTexts dropPath
  rw [List.filter_map]
  refine congrArg (List.map Json.str) (List.filter_congr fun f _ => ?_)
  simp

/-- **The datastore has the lists that an event gives.** -/
theorem in_receive (c : ClientFiles) (ds : Front.Datastore) (h : c.In ds) (e : FileEvent) :
    (c.apply e).In (ds.receiveFile e) := by
  have hmessage := Front.Datastore.applyMessage_record ds
  cases e with
  | ad path =>
    have heq : ds.receiveFile (.ad path) = ds.applyFolderEvent "ad" (.str path) :=
      hmessage "ad" _ "ad" (by decide)
    have hadd := jsonTexts_addPath c.folders path
    rw [← h.folders] at hadd
    rw [heq]
    unfold Front.Datastore.applyFolderEvent
    rw [if_pos rfl]
    split_ifs at hadd ⊢ <;> exact ⟨hadd.symm, h.files⟩
  | af path =>
    have heq : ds.receiveFile (.af path) = ds.applyFileEvent "af" (.str path) :=
      hmessage "af" _ "af" (by decide)
    have hadd := jsonTexts_addPath c.files path
    rw [← h.files] at hadd
    rw [heq]
    unfold Front.Datastore.applyFileEvent
    rw [if_pos rfl]
    split_ifs at hadd ⊢ <;> exact ⟨h.folders, hadd.symm⟩
  | dd path =>
    have heq : ds.receiveFile (.dd path) = ds.applyFolderEvent "dd" (.str path) :=
      hmessage "dd" _ "dd" (by decide)
    have hdrop := jsonTexts_dropPath c.folders path
    rw [← h.folders] at hdrop
    rw [heq]
    exact ⟨hdrop.symm, h.files⟩
  | df path =>
    have heq : ds.receiveFile (.df path) = ds.applyFileEvent "df" (.str path) :=
      hmessage "df" _ "df" (by decide)
    have hdrop := jsonTexts_dropPath c.files path
    rw [← h.files] at hdrop
    rw [heq]
    exact ⟨h.folders, hdrop.symm⟩
  | ucFolders folders =>
    have heq : ds.receiveFile (.ucFolders folders) =
        ds.applyControllerKey "folders" (.arr (jsonTexts folders)) := hmessage "uc" _ "uc" (by decide)
    rw [heq]
    exact ⟨rfl, h.files⟩
  | ucFiles files =>
    have heq : ds.receiveFile (.ucFiles files) =
        ds.applyControllerKey "files" (.arr (jsonTexts files)) := hmessage "uc" _ "uc" (by decide)
    rw [heq]
    exact ⟨h.folders, rfl⟩

theorem in_foldl_receive (evs : List FileEvent) (c : ClientFiles) (ds : Front.Datastore)
    (h : c.In ds) : (evs.foldl ClientFiles.apply c).In (evs.foldl Front.Datastore.receiveFile ds) := by
  induction evs generalizing c ds with
  | nil => exact h
  | cons e evs ih => exact ih _ _ (in_receive c ds h e)

/-! ## Top theorem -/

def FileLists.shown (c : FileLists) : ClientFiles := ⟨c.mFoldersList, c.mFilesList⟩

theorem foldl_apply (evs : List FileEvent) (c : ClientFiles) :
    evs.foldl ClientFiles.apply c =
      ⟨evs.foldl ClientFiles.readFolders c.folders, evs.foldl ClientFiles.readFiles c.files⟩ := by
  induction evs generalizing c with
  | nil => rfl
  | cons e evs ih => exact ih (c.apply e)

/-- The additions and deletions of a rescan are those of its loops. -/
theorem filter_rescan (codes : FileCodes) (hadd : ∀ p, (codes.added p).isChange = true)
    (hdel : ∀ p, (codes.deleted p).isChange = true) (hw : ∀ w, (codes.whole w).isChange = false)
    (scan stored : List String) :
    (codes.rescan scan stored).evs.filter FileEvent.isChange =
      (codes.difference scan stored).evs := by
  have hall : (codes.difference scan stored).evs.filter FileEvent.isChange =
      (codes.difference scan stored).evs := by
    refine List.filter_eq_self.mpr fun e he => ?_
    obtain ⟨p, rfl | rfl⟩ := codes.mem_difference_evs scan stored e he
    · exact hadd p
    · exact hdel p
  rcases codes.rescan_evs scan stored with hevs | hevs
  · rw [hevs, hall]
  · rw [hevs, List.filter_append, hall, List.filter_cons_of_neg (by rw [hw]; exact Bool.false_ne_true),
      List.filter_nil, List.append_nil]

/-- Both lists of an announced state have no duplicates. -/
theorem nodup_of_announced (c : FileLists) (h : c.Announced) :
    c.mFoldersList.Nodup ∧ c.mFilesList.Nodup := by
  induction h with
  | start folders files webroot hfolders hfiles => exact ⟨hfolders, hfiles⟩
  | select c h folder files hfiles ih => exact ⟨ih.1, hfiles⟩
  | watch c h pEvent folders files hfolders hfiles ih =>
    have hf := folderCodes.nodup_difference folders c.mFoldersList ih.1
    rw [← FileCodes.rescan_st] at hf
    unfold FileLists.OnFileWatcherEvent
    dsimp only
    split
    · exact ⟨hf, ih.2⟩
    · have hg := fileCodes.nodup_difference files c.mFilesList ih.2
      rw [← FileCodes.rescan_st] at hg
      exact ⟨hf, hg⟩

/-- A list that a rescan leaves of one without duplicates is the scan, in some order. -/
theorem perm_rescan (codes : FileCodes) (scan stored : List String) (hscan : scan.Nodup)
    (h : stored.Nodup) : (codes.rescan scan stored).st.Perm scan := by
  rw [FileCodes.rescan_st]
  exact (List.perm_ext_iff_of_nodup (codes.nodup_difference scan stored h) hscan).mpr
    (codes.mem_difference scan stored)

/-- The lists of a client after the additions and deletions of a change, and after all of it. -/
theorem shown_watch (c : FileLists) (pEvent : String) (folders files : List String) :
    let x := c.OnFileWatcherEvent pEvent folders files
    (x.evs.filter FileEvent.isChange).foldl ClientFiles.apply c.shown = x.st.shown ∧
    x.evs.foldl ClientFiles.apply c.shown = x.st.shown := by
  have hfilter := filter_rescan folderCodes (fun _ => rfl) (fun _ => rfl) (fun _ => rfl) folders
    c.mFoldersList
  have hfilter' := filter_rescan fileCodes (fun _ => rfl) (fun _ => rfl) (fun _ => rfl) files
    c.mFilesList
  unfold FileLists.OnFileWatcherEvent FileLists.shown
  dsimp only
  by_cases hsel : pEvent = c.mSelectedFolder
  · rw [if_neg (not_not.mpr hsel)]
    constructor
    · rw [List.filter_append, hfilter, hfilter', foldl_apply, List.foldl_append,
        List.foldl_append, read_difference reads_folders, ignore_difference ignores_folders,
        ignore_difference ignores_files, read_difference reads_files, FileCodes.rescan_st,
        FileCodes.rescan_st]
    · rw [foldl_apply, List.foldl_append, List.foldl_append, read_rescan reads_folders,
        ignore_rescan ignores_folders, ignore_rescan ignores_files, read_rescan reads_files]
  · rw [if_pos hsel]
    constructor
    · rw [hfilter, foldl_apply, read_difference reads_folders, ignore_difference ignores_files,
        FileCodes.rescan_st]
    · rw [foldl_apply, read_rescan reads_folders, ignore_rescan ignores_files]

/-- **Watch difference.**  From any lists announced before, a change of the disk leaves the list of
folders holding what the scan does, each once, and the list of files too if the change is in the
selected folder.  A client whose lists were those announced has the new ones once it has applied
the additions and deletions in order, and still once it has applied every event; so has every
datastore that held them. -/
theorem watch_difference (c : FileLists) (hc : c.Announced) (pEvent : String)
    (folders files : List String) (hfolders : folders.Nodup) (hfiles : files.Nodup)
    (client : ClientFiles) (hclient : client = c.shown) :
    let x := c.OnFileWatcherEvent pEvent folders files
    x.st.mFoldersList.Perm folders ∧
    (if pEvent = c.mSelectedFolder then x.st.mFilesList.Perm files
      else x.st.mFilesList = c.mFilesList) ∧
    (x.evs.filter FileEvent.isChange).foldl ClientFiles.apply client = x.st.shown ∧
    x.evs.foldl ClientFiles.apply client = x.st.shown ∧
    ∀ ds : Front.Datastore, client.In ds →
      x.st.shown.In ((x.evs.filter FileEvent.isChange).foldl Front.Datastore.receiveFile ds) ∧
      x.st.shown.In (x.evs.foldl Front.Datastore.receiveFile ds) := by
  obtain ⟨hnf, hnfi⟩ := nodup_of_announced c hc
  obtain ⟨hchanges, hall⟩ := shown_watch c pEvent folders files
  have hperm := perm_rescan folderCodes folders c.mFoldersList hfolders hnf
  subst hclient
  refine ⟨?_, ?_, hchanges, hall, fun ds hds => ⟨?_, ?_⟩⟩
  · unfold FileLists.OnFileWatcherEvent
    dsimp only
    split_ifs <;> exact hperm
  · unfold FileLists.OnFileWatcherEvent
    by_cases hsel : pEvent = c.mSelectedFolder
    · rw [if_pos hsel, if_neg (not_not.mpr hsel)]
      exact perm_rescan fileCodes files c.mFilesList hfiles hnfi
    · rw [if_neg hsel, if_pos hsel]
  · rw [← hchanges]
    exact in_foldl_receive _ _ _ hds
  · rw [← hall]
    exact in_foldl_receive _ _ _ hds

/-- Two folders come and one goes while a file is replaced, for a store whose list of files is the
controller's data too. -/
theorem watch_difference_sample :
    let c : FileLists := ⟨["/a", "/b"], ["/x.fits"], "/"⟩
    let ds := [FileEvent.ucFolders ["/a", "/b"], .ucFiles ["/x.fits"]].foldl
      Front.Datastore.receiveFile {}
    let x := c.OnFileWatcherEvent "/" ["/c", "/b", "/d"] ["/y.fits"]
    x.st.mFoldersList.Perm ["/c", "/b", "/d"] ∧
    (if "/" = c.mSelectedFolder then x.st.mFilesList.Perm ["/y.fits"]
      else x.st.mFilesList = c.mFilesList) ∧
    (x.evs.filter FileEvent.isChange).foldl ClientFiles.apply c.shown = x.st.shown ∧
    x.evs.foldl ClientFiles.apply c.shown = x.st.shown ∧
    x.st.shown.In ((x.evs.filter FileEvent.isChange).foldl Front.Datastore.receiveFile ds) ∧
    x.st.shown.In (x.evs.foldl Front.Datastore.receiveFile ds) := by
  obtain ⟨hfolders, hfiles, hchanges, hall, hds⟩ :=
    watch_difference ⟨["/a", "/b"], ["/x.fits"], "/"⟩
      (.start ["/a", "/b"] ["/x.fits"] "/" (by decide) (by decide)) "/" ["/c", "/b", "/d"]
      ["/y.fits"] (by decide) (by decide) _ rfl
  exact ⟨hfolders, hfiles, hchanges, hall, hds _ ⟨rfl, rfl⟩⟩

end Ost
