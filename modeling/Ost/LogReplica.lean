import Mathlib.Data.List.Induction
import Ost.WShandler
import Ost.Front.Datastore

/-!
# The log, live and from the dump

A log message goes to the logger, which keeps the last 1000 of its level, and to the websocket
handler, which sends it to every client; a client keeps the last 1000 entries it was sent.  A client
that connects later gets the history of the logger with the full dump.  What the server notes for
itself goes to the logger alone, what it answers to one connection goes to that client alone.

Algorithm:
- `Logger.log`, `Logger.onLog` and `Logger.getJsonHistory`, `WShandler.logEntry` (the entry that
  `logToClient` sends);
- `follow`: what a run of messages does to the logger and to a client that is connected.

Main theorems:
    foldl_push:       a list with a limit holds the last of what was pushed
    live_body, dump_body:  what the two clients hold, dates left aside
    logReplica:       of the messages that reach both, they hold the same
-/

namespace Ost

open Lib

/-! ## Lists with a limit -/

/-- `append`, and `removeFirst` if there are too many. -/
def push {α : Type} (limit : ℕ) (l : List α) (x : α) : List α :=
  if limit < (l ++ [x]).length then (l ++ [x]).tail else l ++ [x]

/-- The last `limit` of a list. -/
def lastOf {α : Type} (limit : ℕ) (l : List α) : List α := l.drop (l.length - limit)

theorem lastOf_suffix {α : Type} (limit : ℕ) (l : List α) : lastOf limit l <:+ l :=
  List.drop_suffix _ l

theorem lastOf_map {α β : Type} (limit : ℕ) (f : α → β) (l : List α) :
    lastOf limit (l.map f) = (lastOf limit l).map f := by
  unfold lastOf
  rw [List.length_map, List.map_drop]

theorem push_lastOf {α : Type} (limit : ℕ) (l : List α) (x : α) :
    push limit (lastOf limit l) x = lastOf limit (l ++ [x]) := by
  have hlen : (lastOf limit l).length = l.length - (l.length - limit) := List.length_drop
  have happ : lastOf limit l ++ [x] = (l ++ [x]).drop (l.length - limit) :=
    (List.drop_append_of_le_length (Nat.sub_le _ _)).symm
  unfold push
  rw [List.length_append, List.length_singleton, hlen, happ]
  unfold lastOf
  rw [List.length_append, List.length_singleton]
  split
  · have hmore : l.length + 1 - limit = l.length - limit + 1 := by omega
    rw [hmore, List.tail_drop]
  · have hsame : l.length + 1 - limit = l.length - limit := by omega
    rw [hsame]

theorem map_push {α β : Type} (limit : ℕ) (f : α → β) (l : List α) (x : α) :
    (push limit l x).map f = push limit (l.map f) (f x) := by
  unfold push
  simp only [List.length_append, List.length_map, List.length_singleton]
  split
  · rw [List.map_tail, List.map_append, List.map_singleton]
  · rw [List.map_append, List.map_singleton]

/-- A list with a limit holds the last of what was pushed. -/
theorem foldl_push {α : Type} (limit : ℕ) (l : List α) : l.foldl (push limit) [] = lastOf limit l := by
  induction l using List.reverseRecOn with
  | nil => exact List.drop_nil.symm
  | append_singleton l x ih => rw [List.foldl_append, ih, List.foldl_cons, List.foldl_nil, push_lastOf]

/-! ## Algorithm -/

def LogLevel.toInt32 : LogLevel → Int32
  | .Debug => 0
  | .Info => 1
  | .Warning => 2
  | .Error => 3
  | .Critical => 4

/-- A number written with `n` digits at least. -/
def pad (n : ℕ) (x : Int32) : String :=
  let digits := Nat.toDigits 10 x.toInt.toNat
  String.ofList (List.replicate (n - digits.length) '0' ++ digits)

/-- `yyyy-MM-dd`, the separator, `HH:mm:ss.zzz`. -/
def QDateTime.toText (separator : String) (dt : QDateTime) : String :=
  pad 4 dt.date.year ++ "-" ++ pad 2 dt.date.month ++ "-" ++ pad 2 dt.date.day ++ separator ++
    pad 2 dt.time.hour ++ ":" ++ pad 2 dt.time.minute ++ ":" ++ pad 2 dt.time.second ++ "." ++
    pad 3 dt.time.msec

/-- `TranslateManager::translateWithArgs`, its languages loaded: a text, its arguments and a
language. -/
abbrev TranslateManager := String → List QVariant → String → String

structure LogMess where
  level : LogLevel
  datetime : QDateTime
  context : String
  message : String
  sourceMessage : String
  args : List QVariant

structure Logger where
  mLogLevel : LogLevel := .Debug
  mHistory : List LogMess := []
  mTranslater : Option TranslateManager := none
  mServerLanguage : String := ""

namespace Logger

def log (l : Logger) (now : QDateTime) (level : LogLevel) (message context sourceMessage : String)
    (args : List QVariant) : Logger :=
  if level.toInt32 < l.mLogLevel.toInt32 then l
  else { l with mHistory := push 1000 l.mHistory ⟨level, now, context, message, sourceMessage, args⟩ }

def onLog (l : Logger) (now : QDateTime) (level : LogLevel) (message : String) (args : List QVariant)
    (context : String) : Logger :=
  let translatedMessage := match l.mTranslater with
    | some translater =>
      if l.mServerLanguage ≠ "" then translater message args l.mServerLanguage else message
    | none => message
  l.log now level translatedMessage context message args

/-- The text of a message of the history. -/
def historyText (l : Logger) (language : String) (m : LogMess) : String :=
  match l.mTranslater with
  | some translater =>
    if language ≠ "" then translater m.sourceMessage m.args language else m.message
  | none => m.message

def getJsonHistory (l : Logger) (language : String) : List QJsonValue :=
  (l.mHistory.filter (·.context ≠ "WS")).map fun m =>
    .object (Json.record [("d", .str (m.datetime.toText " ")), ("c", .str m.context),
      ("l", ofInt m.level.toInt32), ("t", .str (l.historyText language m))])

end Logger

/-- The entry that `logToClient` sends to a client with the language. -/
def WShandler.logEntry (translater : TranslateManager) (now : QDateTime) (level : LogLevel)
    (message : String) (args : List QVariant) (context clientLang : String) : QJsonValue :=
  .object (Json.record [("d", .str (now.toText "T")), ("c", .str context),
    ("t", .str (translater message args clientLang)), ("l", ofInt level.toInt32)])

namespace LogReplica

/-- What is logged. -/
inductive LogOp where
  /-- `logSignal`, or a log of the controller: to the logger, then to the clients -/
  | signal (level : LogLevel) (message : String) (args : List QVariant) (context : String)
    (logged sent : QDateTime)
  /-- noted by the server for itself, through `info` and the like -/
  | own (level : LogLevel) (message context : String) (logged : QDateTime)
  /-- answered to the connection of the client -/
  | reply (level : LogLevel) (message : String) (args : List QVariant) (sent : QDateTime)

/-- A client in a language, and the logger, after one more message. -/
def LogOp.step (translater : TranslateManager) (language : String) (s : Logger × Front.Datastore) :
    LogOp → Logger × Front.Datastore
  | .signal level message args context logged sent =>
    (s.1.onLog logged level message args context,
      s.2.applyLog (WShandler.logEntry translater sent level message args context language))
  | .own level message context logged => (s.1.log logged level message context message [], s.2)
  | .reply level message args sent =>
    (s.1, s.2.applyLog (WShandler.logEntry translater sent level message args "WS" language))

/-- A logger with an empty history. -/
def newLogger (translater : TranslateManager) (threshold : LogLevel) (serverLanguage : String) :
    Logger :=
  { mLogLevel := threshold, mTranslater := some translater, mServerLanguage := serverLanguage }

/-- A run of messages; the client has no entry at first. -/
def follow (translater : TranslateManager) (language : String) (logger : Logger)
    (run : List LogOp) : Logger × Front.Datastore :=
  run.foldl (LogOp.step translater language) (logger, {})

/-- The log of a client that gets the full dump. -/
def fullDump (data : ServerData) (logger : Logger) (clientgrant language : String) :
    List QJsonValue :=
  let dump := getModulesDump { data with logs := fun lng => .arr (logger.getJsonHistory lng) }
    clientgrant language
  (({} : Front.Datastore).applyFullDump ((Json.object dump).field "d")).logs

/-! ## What reaches whom -/

/-- Source, text and level of an entry. -/
def body (entry : QJsonValue) : QJsonValue × QJsonValue × QJsonValue :=
  (entry.field "c", entry.field "t", entry.field "l")

namespace LogOp

def level : LogOp → LogLevel
  | .signal level _ _ _ _ _ | .own level _ _ _ | .reply level _ _ _ => level

def context : LogOp → String
  | .signal _ _ _ context _ _ | .own _ _ context _ => context
  | .reply _ _ _ _ => "WS"

/-- The text in a language. -/
def text (translater : TranslateManager) (language : String) : LogOp → String
  | .signal _ message args _ _ _ | .reply _ message args _ => translater message args language
  | .own _ message _ _ => translater message [] language

/-- It is sent to the client. -/
def sent : LogOp → Bool
  | .signal _ _ _ _ _ _ | .reply _ _ _ _ => true
  | .own _ _ _ _ => false

/-- The logger takes it. -/
def logged (threshold : LogLevel) (op : LogOp) : Bool :=
  match op with
  | .signal _ _ _ _ _ _ | .own _ _ _ _ => !decide (op.level.toInt32 < threshold.toInt32)
  | .reply _ _ _ _ => false

/-- It reaches both, and is no answer to one connection. -/
def shared (threshold : LogLevel) (op : LogOp) : Bool :=
  op.sent && op.logged threshold && decide (op.context ≠ "WS")

/-- The body of its entry. -/
def entryBody (translater : TranslateManager) (language : String) (op : LogOp) :
    QJsonValue × QJsonValue × QJsonValue :=
  (.str op.context, .str (op.text translater language), ofInt op.level.toInt32)

end LogOp

/-! ## Lemmas -/

section
variable (translater : TranslateManager) (language : String)

theorem body_logEntry (now : QDateTime) (level : LogLevel) (message : String) (args : List QVariant)
    (context : String) : body (WShandler.logEntry translater now level message args context language) =
      (.str context, .str (translater message args language), ofInt level.toInt32) := by
  unfold body WShandler.logEntry Json.record OrdMap.ofEntries
  simp [OrdMap.get?_insert]

/-- One more message, for a client that is connected. -/
theorem logs_step (s : Logger × Front.Datastore) (op : LogOp) :
    ((op.step translater language s).2.logs).map body =
      (if op.sent then push 1000 (s.2.logs.map body) (op.entryBody translater language)
        else s.2.logs.map body) := by
  cases op with
  | signal level message args context logged sent =>
    show (push 1000 s.2.logs _).map body = _
    rw [map_push, body_logEntry]
    rfl
  | own level message context logged => rfl
  | reply level message args sent =>
    show (push 1000 s.2.logs _).map body = _
    rw [map_push, body_logEntry]
    rfl

/-- **What a client that was connected holds**, dates left aside. -/
theorem live_body (logger : Logger) (run : List LogOp) :
    ((follow translater language logger run).2.logs).map body =
      (lastOf 1000 (run.filter LogOp.sent)).map (LogOp.entryBody translater language) := by
  rw [← lastOf_map, ← foldl_push]
  unfold follow
  induction run using List.reverseRecOn with
  | nil => rfl
  | append_singleton run op ih =>
    rw [List.foldl_append, List.foldl_cons, List.foldl_nil, logs_step, ih, List.filter_append,
      List.map_append, List.foldl_append]
    cases hs : op.sent with
    | false =>
      have hnone : [op].filter LogOp.sent = [] := by simp [hs]
      rw [hnone]
      rfl
    | true =>
      have hone : [op].filter LogOp.sent = [op] := by simp [hs]
      rw [hone]
      rfl

/-- A message of the history as the body of its entry. -/
def messBody (m : LogMess) : QJsonValue × QJsonValue × QJsonValue :=
  (.str m.context, .str (translater m.sourceMessage m.args language), ofInt m.level.toInt32)

/-- One more message, for the logger: it is taken if its level is not below the threshold. -/
theorem history_log (l : Logger) (now : QDateTime) (level : LogLevel)
    (message context source : String) (args : List QVariant) :
    (l.log now level message context source args).mHistory.map (messBody translater language) =
      (if (!decide (level.toInt32 < l.mLogLevel.toInt32)) = true then
        push 1000 (l.mHistory.map (messBody translater language))
          (.str context, .str (translater source args language), ofInt level.toInt32)
      else l.mHistory.map (messBody translater language)) := by
  unfold Logger.log
  by_cases hl : level.toInt32 < l.mLogLevel.toInt32
  · simp only [if_pos hl, decide_eq_true hl, Bool.not_true, Bool.false_eq_true, if_false]
  · simp only [if_neg hl, decide_eq_false hl, Bool.not_false, if_true]
    rw [map_push]
    rfl

theorem history_step (s : Logger × Front.Datastore) (op : LogOp) :
    (op.step translater language s).1.mHistory.map (messBody translater language) =
      (if op.logged s.1.mLogLevel then
        push 1000 (s.1.mHistory.map (messBody translater language))
          (op.entryBody translater language)
      else s.1.mHistory.map (messBody translater language)) := by
  cases op with
  | signal level message args context logged sent =>
    exact history_log translater language s.1 logged level _ context message args
  | own level message context logged =>
    exact history_log translater language s.1 logged level message context message []
  | reply level message args sent => rfl

theorem settings_log (l : Logger) (now : QDateTime) (level : LogLevel)
    (message context source : String) (args : List QVariant) :
    let l' := l.log now level message context source args
    l'.mLogLevel = l.mLogLevel ∧ l'.mTranslater = l.mTranslater := by
  unfold Logger.log
  split <;> exact ⟨rfl, rfl⟩

theorem settings_step (s : Logger × Front.Datastore) (op : LogOp) :
    let l' := (op.step translater language s).1
    l'.mLogLevel = s.1.mLogLevel ∧ l'.mTranslater = s.1.mTranslater := by
  cases op with
  | signal level message args context logged sent =>
    exact settings_log s.1 logged level _ context message args
  | own level message context logged =>
    exact settings_log s.1 logged level message context message []
  | reply level message args sent => exact ⟨rfl, rfl⟩

/-- A run changes neither the threshold of the logger nor its translations. -/
theorem settings_follow (logger : Logger) (run : List LogOp) :
    let l' := (follow translater language logger run).1
    l'.mLogLevel = logger.mLogLevel ∧ l'.mTranslater = logger.mTranslater := by
  unfold follow
  induction run using List.reverseRecOn with
  | nil => exact ⟨rfl, rfl⟩
  | append_singleton run op ih =>
    rw [List.foldl_append, List.foldl_cons, List.foldl_nil]
    obtain ⟨hlevel, htranslater⟩ := settings_step translater language
      (run.foldl (LogOp.step translater language) (logger, {})) op
    exact ⟨hlevel.trans ih.1, htranslater.trans ih.2⟩

/-- **What the logger holds** after a run: the last messages it took. -/
theorem history_body (threshold : LogLevel) (serverLanguage : String) (run : List LogOp) :
    (follow translater language (newLogger translater threshold serverLanguage) run).1.mHistory.map
        (messBody translater language) =
      (lastOf 1000 (run.filter (LogOp.logged threshold))).map
        (LogOp.entryBody translater language) := by
  rw [← lastOf_map, ← foldl_push]
  induction run using List.reverseRecOn with
  | nil => rfl
  | append_singleton run op ih =>
    have hlevel := (settings_follow translater language
      (newLogger translater threshold serverLanguage) run).1
    have hstep := history_step translater language
      (follow translater language (newLogger translater threshold serverLanguage) run) op
    rw [hlevel, ih] at hstep
    have hone : follow translater language (newLogger translater threshold serverLanguage)
        (run ++ [op]) = op.step translater language
          (follow translater language (newLogger translater threshold serverLanguage) run) := by
      unfold follow
      rw [List.foldl_append, List.foldl_cons, List.foldl_nil]
    rw [hone, hstep, List.filter_append, List.map_append, List.foldl_append]
    show (if op.logged threshold then _ else _) = _
    cases hl : op.logged threshold with
    | false =>
      have hnone : [op].filter (LogOp.logged threshold) = [] := by simp [hl]
      rw [hnone]
      rfl
    | true =>
      have hone : [op].filter (LogOp.logged threshold) = [op] := by simp [hl]
      rw [hone]
      rfl

/-! ## The full dump -/

theorem logs_fullDump (data : ServerData) (logger : Logger) (clientgrant : String)
    (hgrant : clientgrant ≠ "-1") :
    fullDump data logger clientgrant language = logger.getJsonHistory language := by
  unfold fullDump getModulesDump
  rw [if_neg hgrant]
  unfold Front.Datastore.applyFullDump
  simp [OrdMap.get?_insert, Json.record, OrdMap.ofEntries]

/-- The bodies of the history as it is sent. -/
theorem body_getJsonHistory (l : Logger) (hlanguage : language ≠ "")
    (htranslater : l.mTranslater = some translater) :
    (l.getJsonHistory language).map body =
      (l.mHistory.filter (·.context ≠ "WS")).map (messBody translater language) := by
  unfold Logger.getJsonHistory
  rw [List.map_map]
  refine List.map_congr_left fun m _ => ?_
  have htext : l.historyText language m = translater m.sourceMessage m.args language := by
    unfold Logger.historyText
    rw [htranslater]
    exact if_pos hlanguage
  unfold Function.comp body messBody Json.record OrdMap.ofEntries
  simp [OrdMap.get?_insert, htext]

/-- The source is not the websocket server. -/
def outside (b : QJsonValue × QJsonValue × QJsonValue) : Bool :=
  match b.1 with
  | .str context => decide (context ≠ "WS")
  | _ => true

/-- **What a client that connects at the end holds**, dates left aside. -/
theorem dump_body (data : ServerData) (threshold : LogLevel) (serverLanguage clientgrant : String)
    (run : List LogOp) (hlanguage : language ≠ "") (hgrant : clientgrant ≠ "-1") :
    (fullDump data (follow translater language (newLogger translater threshold serverLanguage) run).1
        clientgrant language).map body =
      ((lastOf 1000 (run.filter (LogOp.logged threshold))).filter (·.context ≠ "WS")).map
        (LogOp.entryBody translater language) := by
  have htranslater := (settings_follow translater language
    (newLogger translater threshold serverLanguage) run).2
  rw [logs_fullDump language data _ clientgrant hgrant,
    body_getJsonHistory translater language _ hlanguage htranslater]
  calc ((follow translater language (newLogger translater threshold serverLanguage)
        run).1.mHistory.filter (·.context ≠ "WS")).map (messBody translater language)
      = ((follow translater language (newLogger translater threshold serverLanguage)
          run).1.mHistory.map (messBody translater language)).filter outside := by
        rw [List.filter_map]
        rfl
    _ = ((lastOf 1000 (run.filter (LogOp.logged threshold))).map
          (LogOp.entryBody translater language)).filter outside := by rw [history_body]
    _ = _ := by
        rw [List.filter_map]
        rfl

end

/-! ## What both clients hold -/

theorem lastOf_eq_self {α : Type} (limit : ℕ) (l : List α) (h : l.length ≤ limit) :
    lastOf limit l = l := by
  unfold lastOf
  rw [Nat.sub_eq_zero_of_le h, List.drop_zero]

/-- The messages whose entries the client that was connected holds. -/
def live (run : List LogOp) : List LogOp := lastOf 1000 (run.filter LogOp.sent)

/-- The messages whose entries the client that connects at the end gets. -/
def late (threshold : LogLevel) (run : List LogOp) : List LogOp :=
  (lastOf 1000 (run.filter (LogOp.logged threshold))).filter (·.context ≠ "WS")

theorem sent_of_shared (threshold : LogLevel) (op : LogOp) (h : op.shared threshold = true) :
    op.sent = true := by
  unfold LogOp.shared at h
  simp only [Bool.and_eq_true] at h
  exact h.1.1

theorem logged_of_shared (threshold : LogLevel) (op : LogOp) (h : op.shared threshold = true) :
    op.logged threshold = true := by
  unfold LogOp.shared at h
  simp only [Bool.and_eq_true] at h
  exact h.1.2

theorem outside_of_shared (threshold : LogLevel) (op : LogOp) (h : op.shared threshold = true) :
    decide (op.context ≠ "WS") = true := by
  unfold LogOp.shared at h
  simp only [Bool.and_eq_true] at h
  exact h.2

/-- Of the messages that meet a weaker condition, those that reach both. -/
theorem filter_shared (threshold : LogLevel) (p : LogOp → Bool)
    (hp : ∀ op, op.shared threshold = true → p op = true) (run : List LogOp) :
    (run.filter p).filter (LogOp.shared threshold) = run.filter (LogOp.shared threshold) := by
  rw [List.filter_filter]
  refine List.filter_congr fun op _ => ?_
  cases h : op.shared threshold with
  | true => exact hp op h
  | false => rfl

theorem live_shared (threshold : LogLevel) (run : List LogOp) :
    (live run).filter (LogOp.shared threshold) <:+ run.filter (LogOp.shared threshold) := by
  rw [← filter_shared threshold _ (sent_of_shared threshold) run]
  exact (lastOf_suffix 1000 _).filter _

theorem late_shared (threshold : LogLevel) (run : List LogOp) :
    (late threshold run).filter (LogOp.shared threshold) <:+ run.filter (LogOp.shared threshold) := by
  unfold late
  rw [filter_shared threshold _ (outside_of_shared threshold),
    ← filter_shared threshold _ (logged_of_shared threshold) run]
  exact (lastOf_suffix 1000 _).filter _

/-- The clients hold the log alike, dates left aside: the first `l`, the second `d`. -/
structure Alike (translater : TranslateManager) (language : String) (threshold : LogLevel)
    (run : List LogOp) (l d : List QJsonValue) : Prop where
  /-- the one that was connected: the last that was sent -/
  first : l.map body = (live run).map (LogOp.entryBody translater language)
  /-- the other: the last that was logged -/
  second : d.map body = (late threshold run).map (LogOp.entryBody translater language)
  /-- of what reaches both, one has all that the other has, in the same order -/
  both : (live run).filter (LogOp.shared threshold) <:+
      (late threshold run).filter (LogOp.shared threshold) ∨
    (late threshold run).filter (LogOp.shared threshold) <:+
      (live run).filter (LogOp.shared threshold)
  /-- and the same if neither has dropped anything -/
  whole : (run.filter LogOp.sent).length ≤ 1000 →
    (run.filter (LogOp.logged threshold)).length ≤ 1000 →
    (live run).filter (LogOp.shared threshold) = (late threshold run).filter (LogOp.shared threshold)
  /-- if all reaches both the lists are the same -/
  same : (∀ op ∈ run, op.shared threshold = true) → l.map body = d.map body

/-- **Log replica.** -/
theorem logReplica (translater : TranslateManager) (language serverLanguage clientgrant : String)
    (threshold : LogLevel) (data : ServerData) (run : List LogOp)
    (hlanguage : language ≠ "") (hgrant : clientgrant ≠ "-1") :
    let s := follow translater language (newLogger translater threshold serverLanguage) run
    Alike translater language threshold run s.2.logs (fullDump data s.1 clientgrant language) := by
  intro s
  have hfirst := live_body translater language (newLogger translater threshold serverLanguage) run
  have hsecond := dump_body translater language data threshold serverLanguage clientgrant run
    hlanguage hgrant
  refine ⟨hfirst, hsecond, ?_, ?_, ?_⟩
  · exact List.suffix_or_suffix_of_suffix (live_shared threshold run) (late_shared threshold run)
  · intro hsent hlogged
    unfold live late
    rw [lastOf_eq_self 1000 _ hsent, lastOf_eq_self 1000 _ hlogged,
      filter_shared threshold _ (sent_of_shared threshold),
      filter_shared threshold _ (outside_of_shared threshold),
      filter_shared threshold _ (logged_of_shared threshold)]
  · intro hshared
    have hsent : run.filter LogOp.sent = run :=
      List.filter_eq_self.mpr fun op hop => sent_of_shared threshold op (hshared op hop)
    have hlogged : run.filter (LogOp.logged threshold) = run :=
      List.filter_eq_self.mpr fun op hop => logged_of_shared threshold op (hshared op hop)
    have houtside : (lastOf 1000 run).filter (fun op => decide (op.context ≠ "WS")) =
        lastOf 1000 run := List.filter_eq_self.mpr fun op hop =>
      outside_of_shared threshold op (hshared op ((lastOf_suffix 1000 run).subset hop))
    rw [hfirst, hsecond, hsent, hlogged, houtside]

/-! ## Example -/

/-- An evening, the first of March. -/
def evening : QDateTime := QDateTime.build (QDate.setDate 2024 3 1) (QTime.setHMS 22 15 0 0)

def noTranslation : TranslateManager := fun message _ _ => message

def smallServer : ServerData :=
  ⟨"0", [], [], "", [], fun _ => .arr [], "en", .empty, .empty⟩

/-- Two messages that reach both clients, one below the level of the server, a note of the server to
its logger, and an answer to one connection. -/
def fiveMessages : List LogOp :=
  [.signal .Info "Ready" [] "focus" evening evening, .signal .Debug "Step" [] "focus" evening evening,
    .own .Info "Started" "server" evening, .reply .Warning "Refused" [] evening,
    .signal .Warning "No star" [] "guider" evening evening]

theorem logReplica_five :
    let s := follow noTranslation "en" (newLogger noTranslation .Info "en") fiveMessages
    s.2.logs.length = 4 ∧ (fullDump smallServer s.1 "1" "en").length = 3 ∧
      Alike noTranslation "en" .Info fiveMessages s.2.logs (fullDump smallServer s.1 "1" "en") :=
  ⟨by decide +kernel, by decide +kernel,
    logReplica noTranslation "en" "en" "1" .Info smallServer fiveMessages (by decide) (by decide)⟩

/-- The same message has two dates, one with a `T` and one with a blank; and one below the level of
the server is not logged, but sent. -/
theorem logReplica_fails :
    (¬ ∀ (translater : TranslateManager) (language serverLanguage clientgrant : String)
      (threshold : LogLevel) (data : ServerData) (run : List LogOp), language ≠ "" →
        clientgrant ≠ "-1" →
        let s := follow translater language (newLogger translater threshold serverLanguage) run
        s.2.logs.filter (fun entry => outside (body entry)) =
          fullDump data s.1 clientgrant language) ∧
    ¬ ∀ (translater : TranslateManager) (language serverLanguage clientgrant : String)
      (threshold : LogLevel) (data : ServerData) (run : List LogOp), language ≠ "" →
        clientgrant ≠ "-1" →
        let s := follow translater language (newLogger translater threshold serverLanguage) run
        (s.2.logs.filter fun entry => outside (body entry)).map body =
          (fullDump data s.1 clientgrant language).map body := by
  constructor
  · intro h
    have hone := h noTranslation "en" "en" "1" .Debug smallServer
      [.signal .Info "Ready" [] "focus" evening evening] (by decide) (by decide)
    revert hone
    decide +kernel
  · intro h
    have hone := h noTranslation "en" "en" "1" .Info smallServer
      [.signal .Debug "Step" [] "focus" evening evening] (by decide) (by decide)
    revert hone
    decide +kernel

end LogReplica

end Ost
