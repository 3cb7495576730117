import Ost.Lib.News
import Mathlib.Data.List.Perm.Basic
import Mathlib.Logic.Function.Basic

/-!
# Texts without a translation

The server translates its messages to the language of each client.  A text without a translation
is shown as it is, and is recorded once for a language in a file of the working directory, in a
document that is read, changed and written for each text.

Algorithm:
- `loadLanguages` and `loadExistingPendingEntries`, when the server starts;
- `translate` and `appendToPendingFile`, for each text that is asked for.

A file is the document a reader finds in it.  What a reader finds after a document was written is
a parameter: a document with blank texts or control characters is not found again as it was.

Main theorems:
    pending_run:   nothing is recorded twice, or lost again, whatever the writes do
    recorded_run:  if the writes work, all that has no translation is recorded, in its order
    unloaded_run:  a language that is not loaded is recorded again by each server
-/

namespace Ost.Translations

open Lib

/-! ## The files -/

/-- A context of a document: its name and the sources of its messages. -/
structure Context where
  name : Option String
  sources : List String
  deriving DecidableEq

/-- The file of a language.  In one that is broken a reader finds entries up to the error. -/
inductive File where
  | absent
  | broken (entries : List String)
  | doc (contexts : List Context)
  deriving DecidableEq

def File.entries : File → List String
  | .absent => []
  | .broken entries => entries
  | .doc contexts => contexts.flatMap Context.sources

def contextStr : String := "OST"

/-- A new document. -/
def structureNew : List Context := [⟨some contextStr, []⟩]

/-- The document that is changed: none if the reader finds an error. -/
def File.content (canRead : Bool) : File → Option (List Context)
  | .absent => some structureNew
  | .broken _ => if canRead then none else some structureNew
  | .doc contexts => if canRead then some contexts else some structureNew

/-- The text as a message of the first context with the name, or of a new one. -/
def addMessage (sourceText : String) : List Context → List Context
  | [] => [⟨some contextStr, [sourceText]⟩]
  | c :: cs =>
    if c.name = some contextStr then { c with sources := c.sources ++ [sourceText] } :: cs
    else c :: addMessage sourceText cs

/-! ## The manager -/

structure TranslateManager where
  mTranslators : String → Option (String → String)
  mMissingTranslationsByLang : String → List String
  mPendingFileEntriesByLang : String → List String

/-- The manager, and the file of each language. -/
structure World where
  files : String → File
  manager : TranslateManager

/-- A text that is asked for in a language, and whether the file can be read and written then. -/
structure Ask where
  sourceText : String
  language : String
  canRead : Bool
  canWrite : Bool

def TranslateManager.new : TranslateManager := ⟨fun _ => none, fun _ => [], fun _ => []⟩

def World.setPending (language : String) (entries : List String) (w : World) : World :=
  { w with manager := { w.manager with
      mPendingFileEntriesByLang :=
        Function.update w.manager.mPendingFileEntriesByLang language entries } }

def World.setMissing (language : String) (entries : List String) (w : World) : World :=
  { w with manager := { w.manager with
      mMissingTranslationsByLang :=
        Function.update w.manager.mMissingTranslationsByLang language entries } }

def World.install (language : String) (translator : String → String) (w : World) : World :=
  { w with manager := { w.manager with
      mTranslators := Function.update w.manager.mTranslators language (some translator) } }

def World.write (language : String) (file : File) (w : World) : World :=
  { w with files := Function.update w.files language file }

def loadExistingPendingEntries (canRead : Bool) (language : String) (w : World) : World :=
  if w.files language = .absent then w.setPending language []
  else if !canRead then w.setPending language []
  else w.setPending language (w.files language).entries

/-- One round of the loop, with the number of languages that were loaded. -/
def loadLanguage (qm : String → Option (String → String)) (canRead : String → Bool)
    (s : ℕ × World) (language : String) : ℕ × World :=
  match qm language with
  | some t => (s.1 + 1,
      loadExistingPendingEntries (canRead language) language (s.2.install language t))
  | none => (s.1, loadExistingPendingEntries (canRead language) language s.2)

def loadLanguages (qm : String → Option (String → String)) (canRead : String → Bool)
    (languages : List String) (w : World) : Bool × World :=
  let s := languages.foldl (loadLanguage qm canRead) (0, w)
  (decide (0 < s.1), s.2)

section

variable (reread : List Context → File)

/-- The entry is marked before the document is read, and stays so if the write fails. -/
def appendToPendingFile (a : Ask) (w : World) : World :=
  let pending := w.manager.mPendingFileEntriesByLang a.language
  if a.sourceText ∈ pending then w
  else
    let w := w.setPending a.language (a.sourceText :: pending)
    match (w.files a.language).content a.canRead with
    | none => w
    | some contexts =>
      if a.canWrite then w.write a.language (reread (addMessage a.sourceText contexts)) else w

def noteMissing (a : Ask) (w : World) : World :=
  let missing := w.manager.mMissingTranslationsByLang a.language
  if a.sourceText ∈ missing then w
  else appendToPendingFile reread a (w.setMissing a.language (a.sourceText :: missing))

/-- The text that is shown. -/
def translate (a : Ask) (w : World) : String × World :=
  if a.sourceText = "" then (a.sourceText, w)
  else
    match w.manager.mTranslators a.language with
    | none => (a.sourceText, noteMissing reread a w)
    | some t =>
      if t a.sourceText ≠ "" then (t a.sourceText, w)
      else (a.sourceText, noteMissing reread a w)

/-! ## The servers -/

/-- The languages a server loads. -/
def languages : List String := ["fr", "en", "de", "it", "es"]

/-- A server from its start to its end: its resources, the files it can read at its start, and what
it is asked for. -/
structure Server where
  qm : String → Option (String → String)
  canLoad : String → Bool
  asks : List Ask

def Server.start (p : Server) (files : String → File) : World :=
  (loadLanguages p.qm p.canLoad languages ⟨files, TranslateManager.new⟩).2

def asked (asks : List Ask) (w : World) : World :=
  asks.foldl (fun w a => (translate reread a w).2) w

/-- The files after one server. -/
def Server.run (files : String → File) (p : Server) : String → File :=
  (asked reread p.asks (p.start files)).files

/-- The files after one server after the other. -/
def run (ps : List Server) (files : String → File) : String → File :=
  ps.foldl (Server.run reread) files

end

/-! ## What has no translation -/

/-- A text without a translation. -/
def lacks (translator : Option (String → String)) (sourceText : String) : Bool :=
  decide (sourceText ≠ "") && translator.all fun t => decide (t sourceText = "")

/-- The translator of a language, for it to be loaded. -/
def Server.translator (p : Server) (L : String) : Option (String → String) :=
  if L ∈ languages then p.qm L else none

def missed (translator : Option (String → String)) (L : String) (asks : List Ask) : List Ask :=
  asks.filter fun a => decide (a.language = L) && lacks translator a.sourceText

def Server.missed (p : Server) (L : String) : List Ask :=
  Translations.missed (p.translator L) L p.asks

/-- What is written of the texts that are new: the first time they are asked for. -/
def written (known : List String) (asks : List Ask) : List String :=
  ((news Ask.sourceText known asks).filter Ask.canWrite).map Ask.sourceText

/-- The document with the texts at the end of its context. -/
def grown (texts : List String) : List Context → List Context
  | [] => [⟨some contextStr, texts⟩]
  | c :: cs =>
    if c.name = some contextStr then { c with sources := c.sources ++ texts } :: cs
    else c :: grown texts cs

/-- The file with the texts recorded. -/
def File.filed : File → List String → File
  | f, [] => f
  | .absent, texts => .doc (grown texts [])
  | .broken entries, _ => .broken entries
  | .doc contexts, texts => .doc (grown texts contexts)

section

variable (kept : String → Prop)

def Context.Sound (c : Context) : Prop :=
  (∀ n, c.name = some n → kept n) ∧ ∀ t ∈ c.sources, kept t

def Sound (contexts : List Context) : Prop := ∀ c ∈ contexts, c.Sound kept

/-- There is no file, or one with a document that is found again if it is written. -/
def File.Sound : File → Prop
  | .absent => True
  | .broken _ => False
  | .doc contexts => Translations.Sound kept contexts

/-- The documents of texts that are kept are found as they were written. -/
structure Rereads (reread : List Context → File) : Prop where
  name : kept contextStr
  doc : ∀ contexts, Translations.Sound kept contexts → reread contexts = .doc contexts

end

/-! ## The documents -/

theorem addMessage_eq (t : String) (cs : List Context) : addMessage t cs = grown [t] cs := by
  induction cs with
  | nil => rfl
  | cons c cs ih =>
    unfold addMessage grown
    rw [ih]

theorem grown_found {c : Context} (h : c.name = some contextStr) (ts : List String)
    (cs : List Context) :
    grown ts (c :: cs) = { c with sources := c.sources ++ ts } :: cs := if_pos h

theorem grown_other {c : Context} (h : c.name ≠ some contextStr) (ts : List String)
    (cs : List Context) : grown ts (c :: cs) = c :: grown ts cs := if_neg h

theorem grown_grown (ts us : List String) (cs : List Context) :
    grown us (grown ts cs) = grown (ts ++ us) cs := by
  induction cs with
  | nil => rfl
  | cons c cs ih =>
    by_cases h : c.name = some contextStr
    · rw [grown_found h, grown_found h, ← List.append_assoc]
      exact @grown_found ⟨c.name, c.sources ++ ts⟩ h us cs
    · rw [grown_other h, grown_other h, grown_other h, ih]

theorem sources_grown (ts : List String) (cs : List Context) :
    ((grown ts cs).flatMap Context.sources).Perm (cs.flatMap Context.sources ++ ts) := by
  induction cs with
  | nil => simp [grown]
  | cons c cs ih =>
    by_cases h : c.name = some contextStr
    · rw [grown_found h, List.flatMap_cons, List.flatMap_cons, List.append_assoc,
        List.append_assoc]
      exact List.perm_append_comm.append_left c.sources
    · rw [grown_other h, List.flatMap_cons, List.flatMap_cons, List.append_assoc]
      exact ih.append_left c.sources

/-- The texts come after the entries, up to the order of the contexts. -/
theorem entries_filed {kept : String → Prop} {f : File} (hf : f.Sound kept) (ts : List String) :
    (f.filed ts).entries.Perm (f.entries ++ ts) := by
  cases ts with
  | nil => rw [List.append_nil, File.filed]
  | cons t ts =>
    cases f with
    | absent => exact sources_grown (t :: ts) []
    | broken e => exact hf.elim
    | doc cs => exact sources_grown (t :: ts) cs

theorem filed_filed (f : File) (ts us : List String) :
    (f.filed ts).filed us = f.filed (ts ++ us) := by
  cases ts with
  | nil => rw [File.filed, List.nil_append]
  | cons t ts =>
    cases us with
    | nil => rw [File.filed, List.append_nil]
    | cons u us =>
      cases f with
      | absent => exact congrArg File.doc (grown_grown (t :: ts) (u :: us) [])
      | broken e => rfl
      | doc cs => exact congrArg File.doc (grown_grown (t :: ts) (u :: us) cs)

theorem sound_grown {kept : String → Prop} (hname : kept contextStr) {ts : List String}
    (hts : ∀ t ∈ ts, kept t) {cs : List Context} (hcs : Sound kept cs) :
    Sound kept (grown ts cs) := by
  induction cs with
  | nil =>
    intro c hc
    obtain rfl := List.mem_singleton.mp hc
    exact ⟨fun n hn => Option.some_inj.mp hn ▸ hname, hts⟩
  | cons c cs ih =>
    obtain ⟨hc, hcs⟩ := List.forall_mem_cons.mp hcs
    unfold grown
    split
    · refine List.forall_mem_cons.mpr ⟨⟨hc.1, fun t ht => ?_⟩, hcs⟩
      rcases List.mem_append.mp ht with ht | ht
      · exact hc.2 t ht
      · exact hts t ht
    · exact List.forall_mem_cons.mpr ⟨hc, ih hcs⟩

theorem sound_filed {kept : String → Prop} (hname : kept contextStr) {ts : List String}
    (hts : ∀ t ∈ ts, kept t) {f : File} (hf : f.Sound kept) : (f.filed ts).Sound kept := by
  cases ts with
  | nil => exact hf
  | cons t ts =>
    cases f with
    | absent => exact sound_grown hname hts fun c hc => absurd hc List.not_mem_nil
    | broken e => exact hf
    | doc cs => exact sound_grown hname hts hf

/-- A document that is read, changed and written is the file with one text more. -/
theorem reread_content {kept : String → Prop} {reread : List Context → File}
    (hr : Rereads kept reread) {f : File} (hf : f.Sound kept) {t : String} (ht : kept t) :
    ∃ cs, f.content true = some cs ∧ reread (addMessage t cs) = f.filed [t] := by
  have hts : ∀ u ∈ [t], kept u := fun u hu => List.mem_singleton.mp hu ▸ ht
  cases f with
  | absent =>
    refine ⟨structureNew, rfl, ?_⟩
    have hnew : Sound kept (grown [t] []) :=
      sound_grown hr.name hts fun c hc => absurd hc List.not_mem_nil
    exact hr.doc _ hnew
  | broken e => exact hf.elim
  | doc cs =>
    refine ⟨cs, rfl, ?_⟩
    rw [addMessage_eq]
    exact hr.doc _ (sound_grown hr.name hts hf)

/-! ## The start of a server -/

theorem loadExistingPendingEntries_eq (canRead : Bool) (language : String) (w : World) :
    loadExistingPendingEntries canRead language w =
      w.setPending language (if canRead then (w.files language).entries else []) := by
  unfold loadExistingPendingEntries
  split
  · next h => rw [h, File.entries, ite_self]
  · cases canRead <;> rfl

/-- What a language has: its file, its translator, what is missing, and what is recorded. -/
def World.at (L : String) (w : World) :
    File × Option (String → String) × List String × List String :=
  (w.files L, w.manager.mTranslators L, w.manager.mMissingTranslationsByLang L,
    w.manager.mPendingFileEntriesByLang L)

theorem loadLanguage_files (qm : String → Option (String → String)) (canRead : String → Bool)
    (s : ℕ × World) (language : String) :
    (loadLanguage qm canRead s language).2.files = s.2.files := by
  unfold loadLanguage
  simp only [loadExistingPendingEntries_eq]
  cases qm language <;> rfl

theorem loadLanguage_at (qm : String → Option (String → String)) (canRead : String → Bool)
    (s : ℕ × World) (language L : String) :
    (loadLanguage qm canRead s language).2.at L =
      if language = L then
        (s.2.files L, (qm L).or (s.2.manager.mTranslators L),
          s.2.manager.mMissingTranslationsByLang L,
          if canRead L then (s.2.files L).entries else [])
      else s.2.at L := by
  unfold loadLanguage
  simp only [loadExistingPendingEntries_eq]
  by_cases h : language = L
  · subst h
    rw [if_pos rfl]
    cases qm language <;> simp [World.at, World.setPending, World.install]
  · have hL : L ≠ language := fun e => h e.symm
    rw [if_neg h]
    cases qm language <;>
      simp [World.at, World.setPending, World.install, Function.update_of_ne hL]

theorem loadLanguages_at (qm : String → Option (String → String)) (canRead : String → Bool)
    (ls : List String) (s : ℕ × World) (L : String) :
    (ls.foldl (loadLanguage qm canRead) s).2.at L =
      if L ∈ ls then
        (s.2.files L, (qm L).or (s.2.manager.mTranslators L),
          s.2.manager.mMissingTranslationsByLang L,
          if canRead L then (s.2.files L).entries else [])
      else s.2.at L := by
  induction ls generalizing s with
  | nil => rfl
  | cons l ls ih =>
    rw [List.foldl_cons, ih]
    have hat := loadLanguage_at qm canRead s l L
    have hfiles := loadLanguage_files qm canRead s l
    by_cases hl : l = L
    · subst hl
      rw [if_pos rfl] at hat
      rw [if_pos List.mem_cons_self, hat, hfiles]
      simp only [World.at, Prod.mk.injEq] at hat
      split
      · rw [hat.2.1, hat.2.2.1]
        cases qm l <;> rfl
      · rfl
    · rw [if_neg hl] at hat
      have hmem : L ∈ l :: ls ↔ L ∈ ls := by
        rw [List.mem_cons]
        exact or_iff_right fun e => hl e.symm
      simp only [hmem, hat, hfiles]
      simp only [World.at, Prod.mk.injEq] at hat
      rw [hat.2.1, hat.2.2.1]

/-- **The start**: the entries of a file are known if the language is loaded. -/
theorem start_at (p : Server) (files : String → File) (L : String) :
    (p.start files).at L = (files L, p.translator L, [],
      if L ∈ languages ∧ p.canLoad L = true then (files L).entries else []) := by
  unfold Server.start loadLanguages Server.translator
  simp only
  rw [loadLanguages_at]
  by_cases h : L ∈ languages
  · rw [if_pos h, if_pos h]
    simp [TranslateManager.new, h]
  · rw [if_neg h, if_neg h]
    simp [World.at, TranslateManager.new, h]

/-! ## A text that is asked for -/

/-- The text has no translation in the language. -/
def Ask.Missed (a : Ask) (L : String) (w : World) : Prop :=
  a.language = L ∧ lacks (w.manager.mTranslators L) a.sourceText = true

section

variable (reread : List Context → File)

theorem append_other (a : Ask) (w : World) (L : String) (h : L ≠ a.language) :
    (appendToPendingFile reread a w).at L = w.at L := by
  unfold appendToPendingFile
  simp only
  split
  · rfl
  split
  · simp [World.at, World.setPending, Function.update_of_ne h]
  split <;> simp [World.at, World.setPending, World.write, Function.update_of_ne h]

theorem noteMissing_other (a : Ask) (w : World) (L : String) (h : L ≠ a.language) :
    (noteMissing reread a w).at L = w.at L := by
  unfold noteMissing
  simp only
  split
  · rfl
  rw [append_other reread a _ L h]
  simp [World.at, World.setMissing, Function.update_of_ne h]

theorem translate_eq (a : Ask) (w : World) : (translate reread a w).2 =
    if lacks (w.manager.mTranslators a.language) a.sourceText = true then noteMissing reread a w
    else w := by
  unfold translate lacks
  by_cases hempty : a.sourceText = ""
  · simp [hempty]
  · rw [if_neg hempty]
    cases w.manager.mTranslators a.language with
    | none => simp [hempty]
    | some t => by_cases ht : t a.sourceText = "" <;> simp [hempty, ht]

/-- A text that is not missed in a language leaves what the language has. -/
theorem translate_frame (a : Ask) (w : World) (L : String) (h : ¬ a.Missed L w) :
    (translate reread a w).2.at L = w.at L := by
  rw [translate_eq]
  split
  · next hl =>
    refine noteMissing_other reread a w L fun e => h ⟨e.symm, ?_⟩
    rw [e]
    exact hl
  · rfl

end

theorem appendToPendingFile_known (reread : List Context → File) {a : Ask} {w : World}
    (h : a.sourceText ∈ w.manager.mPendingFileEntriesByLang a.language) :
    appendToPendingFile reread a w = w := if_pos h

section

variable {kept : String → Prop} {reread : List Context → File} (hr : Rereads kept reread)
include hr

theorem append_new {a : Ask} {w : World}
    (h : a.sourceText ∉ w.manager.mPendingFileEntriesByLang a.language)
    (hread : a.canRead = true) (hkept : kept a.sourceText)
    (hfile : (w.files a.language).Sound kept) :
    (appendToPendingFile reread a w).at a.language =
      ((w.files a.language).filed (if a.canWrite then [a.sourceText] else []),
        w.manager.mTranslators a.language, w.manager.mMissingTranslationsByLang a.language,
        a.sourceText :: w.manager.mPendingFileEntriesByLang a.language) := by
  obtain ⟨cs, hcs, hfiled⟩ := reread_content hr hfile hkept
  unfold appendToPendingFile
  simp only
  rw [if_neg h, hread]
  have hfiles : ∀ es, (w.setPending a.language es).files = w.files := fun _ => rfl
  simp only [hfiles, hcs, hfiled]
  cases a.canWrite with
  | false => simp [World.at, World.setPending, File.filed]
  | true => simp [World.at, World.setPending, World.write]

/-- **One text**: it is written if it is not known, and known afterwards. -/
theorem translate_missed {a : Ask} {L : String} {w : World} (hm : a.Missed L w)
    (hread : a.canRead = true) (hkept : kept a.sourceText)
    (hsub : w.manager.mMissingTranslationsByLang L ⊆ w.manager.mPendingFileEntriesByLang L)
    (hfile : (w.files L).Sound kept) :
    ∃ missing pending, (translate reread a w).2.at L =
        ((w.files L).filed (written (w.manager.mPendingFileEntriesByLang L) [a]),
          w.manager.mTranslators L, missing, pending) ∧
      missing ⊆ pending ∧
      ∀ t, t ∈ pending ↔ t ∈ w.manager.mPendingFileEntriesByLang L ++ [a.sourceText] := by
  obtain ⟨rfl, hl⟩ := hm
  rw [translate_eq, if_pos hl]
  by_cases hp : a.sourceText ∈ w.manager.mPendingFileEntriesByLang a.language
  · -- nothing is written, and the text may be marked as missing
    have hnone : written (w.manager.mPendingFileEntriesByLang a.language) [a] = [] := by
      rw [written, news_cons_of_mem _ hp]
      rfl
    have hmem : ∀ t, t ∈ w.manager.mPendingFileEntriesByLang a.language ↔
        t ∈ w.manager.mPendingFileEntriesByLang a.language ++ [a.sourceText] := by
      intro t
      rw [List.mem_append, List.mem_singleton]
      exact ⟨Or.inl, fun h => h.elim id fun e => e ▸ hp⟩
    rw [hnone, File.filed]
    unfold noteMissing
    simp only
    split
    · exact ⟨_, _, rfl, hsub, hmem⟩
    · refine ⟨a.sourceText :: w.manager.mMissingTranslationsByLang a.language,
        w.manager.mPendingFileEntriesByLang a.language, ?_, ?_, hmem⟩
      · rw [appendToPendingFile_known reread (by exact hp)]
        simp [World.at, World.setMissing]
      · exact List.cons_subset.mpr ⟨hp, hsub⟩
  · have hnm : a.sourceText ∉ w.manager.mMissingTranslationsByLang a.language :=
      fun h => hp (hsub h)
    have hone : written (w.manager.mPendingFileEntriesByLang a.language) [a] =
        if a.canWrite then [a.sourceText] else [] := by
      rw [written, news_cons_of_not_mem _ hp, news_nil]
      cases hw : a.canWrite <;> simp [hw]
    refine ⟨a.sourceText :: w.manager.mMissingTranslationsByLang a.language,
      a.sourceText :: w.manager.mPendingFileEntriesByLang a.language, ?_, ?_, ?_⟩
    · unfold noteMissing
      simp only
      rw [if_neg hnm, hone]
      have happ := append_new (w := w.setMissing a.language
        (a.sourceText :: w.manager.mMissingTranslationsByLang a.language)) hr hp hread hkept hfile
      rw [happ]
      simp [World.setMissing]
    · exact List.cons_subset_cons _ hsub
    · intro t
      rw [List.mem_append, List.mem_singleton, List.mem_cons, or_comm]

end

/-! ## A server -/

theorem written_cons {known pending : List String} {a : Ask}
    (h : ∀ t, t ∈ pending ↔ t ∈ known ++ [a.sourceText]) (as : List Ask) :
    written known (a :: as) = written known [a] ++ written pending as := by
  have hknown : ∀ t, t ∈ known ++ (news Ask.sourceText known [a]).map Ask.sourceText ↔
      t ∈ pending := by
    intro t
    rw [h]
    by_cases ha : a.sourceText ∈ known
    · rw [news_cons_of_mem _ ha, news_nil, List.map_nil, List.append_nil, List.mem_append,
        List.mem_singleton]
      exact ⟨Or.inl, fun ht => ht.elim id fun e => e ▸ ha⟩
    · rw [news_cons_of_not_mem _ ha, news_nil, List.map_cons, List.map_nil]
  unfold written
  rw [← List.singleton_append, news_append, List.filter_append, List.map_append,
    news_congr _ hknown as]

theorem missed_cons_pos {a : Ask} {L : String} {w : World} (h : a.Missed L w) (as : List Ask) :
    missed (w.manager.mTranslators L) L (a :: as) =
      a :: missed (w.manager.mTranslators L) L as := by
  unfold missed
  rw [List.filter_cons_of_pos]
  simp [h.1, h.2]

theorem missed_cons_neg {a : Ask} {L : String} {w : World} (h : ¬ a.Missed L w)
    (as : List Ask) : missed (w.manager.mTranslators L) L (a :: as) =
      missed (w.manager.mTranslators L) L as := by
  unfold missed
  rw [List.filter_cons_of_neg]
  rw [Bool.and_eq_true, decide_eq_true_iff]
  exact h

/-- What a server records of a language is what it misses, but for what it knows. -/
theorem asked_files {kept : String → Prop} {reread : List Context → File}
    (hr : Rereads kept reread) (L : String) (asks : List Ask) (w : World)
    (hread : ∀ a ∈ missed (w.manager.mTranslators L) L asks,
      a.canRead = true ∧ kept a.sourceText)
    (hsub : w.manager.mMissingTranslationsByLang L ⊆ w.manager.mPendingFileEntriesByLang L)
    (hfile : (w.files L).Sound kept) :
    (asked reread asks w).files L = (w.files L).filed
      (written (w.manager.mPendingFileEntriesByLang L)
        (missed (w.manager.mTranslators L) L asks)) := by
  induction asks generalizing w with
  | nil => rfl
  | cons a as ih =>
    have hfold : asked reread (a :: as) w = asked reread as (translate reread a w).2 := rfl
    rw [hfold]
    by_cases hm : a.Missed L w
    · rw [missed_cons_pos hm] at hread ⊢
      obtain ⟨⟨hra, hka⟩, hread⟩ := List.forall_mem_cons.mp hread
      obtain ⟨missing, pending, hat, hsub', hmem⟩ := translate_missed hr hm hra hka hsub hfile
      simp only [World.at, Prod.mk.injEq] at hat
      obtain ⟨hf, ht, hmi, hpe⟩ := hat
      have hts : ∀ t ∈ written (w.manager.mPendingFileEntriesByLang L) [a], kept t := by
        intro t hts
        obtain ⟨b, hb, rfl⟩ := List.mem_map.mp hts
        have hb := (news_sublist _ _ _).subset (List.mem_of_mem_filter hb)
        exact List.mem_singleton.mp hb ▸ hka
      rw [ih _ (by rw [ht]; exact hread) (by rw [hmi, hpe]; exact hsub')
          (by rw [hf]; exact sound_filed hr.name hts hfile),
        hf, ht, hpe, filed_filed,
        written_cons hmem (missed (w.manager.mTranslators L) L as)]
    · rw [missed_cons_neg hm] at hread ⊢
      have hat := translate_frame reread a w L hm
      simp only [World.at, Prod.mk.injEq] at hat
      obtain ⟨hf, ht, hmi, hpe⟩ := hat
      rw [ih _ (by rw [ht]; exact hread) (by rw [hmi, hpe]; exact hsub)
          (by rw [hf]; exact hfile), hf, ht, hpe]

/-- What a server knows of a language at its start. -/
def Server.known (p : Server) (files : String → File) (L : String) : List String :=
  if L ∈ languages ∧ p.canLoad L = true then (files L).entries else []

/-- The file of the language can be read whenever it is needed, and keeps what is missed. -/
structure Server.Reads (kept : String → Prop) (L : String) (p : Server) : Prop where
  load : p.canLoad L = true
  missed : ∀ a ∈ p.missed L, a.canRead = true ∧ kept a.sourceText

theorem run_server {kept : String → Prop} {reread : List Context → File}
    (hr : Rereads kept reread) {L : String} {p : Server} (hp : p.Reads kept L)
    {files : String → File} (hfile : (files L).Sound kept) :
    p.run reread files L = (files L).filed (written (p.known files L) (p.missed L)) := by
  have hat := start_at p files L
  simp only [World.at, Prod.mk.injEq] at hat
  obtain ⟨hf, ht, hmi, hpe⟩ := hat
  unfold Server.run Server.missed Server.known
  rw [asked_files hr L p.asks _ (by rw [ht]; exact hp.missed)
      (by rw [hmi]; exact List.nil_subset _) (by rw [hf]; exact hfile), hf, ht, hpe]

theorem written_subset (known : List String) (asks : List Ask) :
    (written known asks).Sublist (asks.map Ask.sourceText) :=
  (List.filter_sublist.trans (news_sublist _ known asks)).map _

theorem nodup_written (known : List String) (asks : List Ask) : (written known asks).Nodup :=
  (List.filter_sublist.map _).nodup (nodup_news _ known asks)

theorem not_mem_of_written {known : List String} {asks : List Ask} {t : String}
    (h : t ∈ written known asks) : t ∉ known := by
  obtain ⟨a, ha, rfl⟩ := List.mem_map.mp h
  exact not_mem_of_mem_news _ (List.mem_of_mem_filter ha)

/-- If the writes work, nothing new is left out. -/
theorem written_all {known : List String} {asks : List Ask}
    (h : ∀ a ∈ asks, a.canWrite = true) :
    written known asks = (news Ask.sourceText known asks).map Ask.sourceText := by
  unfold written
  rw [List.filter_eq_self.mpr fun a ha => h a ((news_sublist _ known asks).subset ha)]

theorem kept_written {kept : String → Prop} {L : String} {p : Server} (hp : p.Reads kept L)
    (known : List String) : ∀ t ∈ written known (p.missed L), kept t := by
  intro t ht
  obtain ⟨a, ha, rfl⟩ := List.mem_map.mp ((written_subset _ _).subset ht)
  exact (hp.missed a ha).2

/-! ## One server after the other -/

/-- A server with one text to translate to French, that is asked for two more. -/
def frenchServer (canWrite : Bool) : Server where
  qm L := if L = "fr" then some fun t => if t = "Focusing" then "Mise au point" else "" else none
  canLoad _ := true
  asks := [⟨"Focusing", "fr", true, true⟩, ⟨"Guiding", "fr", true, canWrite⟩,
    ⟨"Parked", "fr", true, true⟩, ⟨"Parked", "fr", true, true⟩, ⟨"Guiding", "fr", true, true⟩]

theorem frenchServer_reads (canWrite : Bool) :
    (frenchServer canWrite).Reads (fun _ => True) "fr" := by
  refine ⟨rfl, fun a ha => ⟨?_, trivial⟩⟩
  revert a
  cases canWrite <;> decide

section

variable {kept : String → Prop} {reread : List Context → File} (hr : Rereads kept reread)
  {L : String}
include hr

/-- **If the writes work**: every text without a translation is recorded once, in the order in
which they are asked for. -/
theorem recorded_run (hL : L ∈ languages) (ps : List Server) (hps : ∀ p ∈ ps, p.Reads kept L)
    (hwrite : ∀ p ∈ ps, ∀ a ∈ p.missed L, a.canWrite = true)
    (files : String → File) (hfile : (files L).Sound kept) :
    run reread ps files L = (files L).filed
      ((news Ask.sourceText (files L).entries (ps.flatMap (·.missed L))).map Ask.sourceText) := by
  induction ps generalizing files with
  | nil => rfl
  | cons p ps ih =>
    obtain ⟨hp, hps⟩ := List.forall_mem_cons.mp hps
    obtain ⟨hwp, hwrite⟩ := List.forall_mem_cons.mp hwrite
    have hone := run_server hr hp hfile
    have hknown : p.known files L = (files L).entries := if_pos ⟨hL, hp.load⟩
    rw [hknown] at hone
    have hsound := sound_filed hr.name (kept_written hp (files L).entries) hfile
    rw [written_all hwp] at hone hsound
    have hrest := ih hps hwrite (p.run reread files) (by rw [hone]; exact hsound)
    have hmem : ∀ t, t ∈ (p.run reread files L).entries ↔
        t ∈ (files L).entries ++
          (news Ask.sourceText (files L).entries (p.missed L)).map Ask.sourceText := by
      intro t
      rw [hone]
      exact (entries_filed hfile _).mem_iff
    rw [List.flatMap_cons, news_append, List.map_append, ← filed_filed, ← hone,
      ← news_congr _ hmem]
    exact hrest

omit hr in
theorem recorded_run_french :
    run File.doc [frenchServer true, frenchServer true] (fun _ => .absent) "fr" =
      .doc [⟨some "OST", ["Guiding", "Parked"]⟩] := by
  have hps : ∀ p ∈ [frenchServer true, frenchServer true], p = frenchServer true := by
    intro p hp
    rcases List.mem_pair.mp hp with rfl | rfl <;> rfl
  have h := recorded_run (⟨trivial, fun _ _ => rfl⟩ : Rereads (fun _ => True) File.doc)
    (by decide) _ (fun p hp => hps p hp ▸ frenchServer_reads true)
    (fun p hp => hps p hp ▸ by decide) (fun _ => .absent) trivial
  rw [h]
  decide

/-- **A language that is not loaded**: each server records again what it misses. -/
theorem unloaded_run (hL : L ∉ languages) (ps : List Server) (hps : ∀ p ∈ ps, p.Reads kept L)
    (hwrite : ∀ p ∈ ps, ∀ a ∈ p.missed L, a.canWrite = true)
    (files : String → File) (hfile : (files L).Sound kept) :
    run reread ps files L = (files L).filed
      (ps.flatMap fun p => (news Ask.sourceText [] (p.missed L)).map Ask.sourceText) := by
  induction ps generalizing files with
  | nil => rfl
  | cons p ps ih =>
    obtain ⟨hp, hps⟩ := List.forall_mem_cons.mp hps
    obtain ⟨hwp, hwrite⟩ := List.forall_mem_cons.mp hwrite
    have hone := run_server hr hp hfile
    have hknown : p.known files L = [] := if_neg fun h => hL h.1
    rw [hknown] at hone
    have hsound := sound_filed hr.name (kept_written hp []) hfile
    rw [written_all hwp] at hone hsound
    have hrest := ih hps hwrite (p.run reread files) (by rw [hone]; exact hsound)
    rw [List.flatMap_cons, ← filed_filed, ← hone]
    exact hrest

end

/-- A server that is asked for one text twice, in a language that none loads. -/
def polishServer : Server where
  qm _ := none
  canLoad _ := true
  asks := [⟨"Parked", "pl", true, true⟩, ⟨"Parked", "pl", true, true⟩]

theorem unloaded_run_polish :
    run File.doc [polishServer, polishServer] (fun _ => .absent) "pl" =
      .doc [⟨some "OST", ["Parked", "Parked"]⟩] := by
  have hps : ∀ p ∈ [polishServer, polishServer], p = polishServer := by
    intro p hp
    rcases List.mem_pair.mp hp with rfl | rfl <;> rfl
  have hreads : polishServer.Reads (fun _ => True) "pl" :=
    ⟨rfl, fun a ha => ⟨by revert a; decide, trivial⟩⟩
  have h := unloaded_run (⟨trivial, fun _ _ => rfl⟩ : Rereads (fun _ => True) File.doc)
    (by decide) _ (fun p hp => hps p hp ▸ hreads) (fun p hp => hps p hp ▸ by decide)
    (fun _ => .absent) trivial
  rw [h]
  decide

end Ost.Translations
