import Ost.Basemodule
import Ost.Lib.JsonText

/-!
# The websocket handler

`WShandler` holds the connections of the clients, a grant for each peer address and a
language for each connection.  A text from a client is decoded to an event (`decode`);
the requests of a client about itself (`DU`, `LO`, `IL`, `XX`) are answered by the
controller with `getModulesDump`, every other event goes to `Controller.onExternalEvent`
if the grant of the address allows it.  What the server has to tell goes to all clients.

Algorithm:
- `rewritten` undoes escapes in the raw text before it is parsed.
- `processTextMessage` checks the event against the grant of the peer address, then
  handles it; `onNewConnection` and `socketDisconnected` set and drop that grant.
- `WsStep.run` is one step of the handler: something a client does, or a broadcast.

What leaves the handler is a list of `WsOutput`.  A message is kept as it is before its
labels, hints and texts are translated for the client and before a log entry is dated.
-/

namespace Ost

open Lib

/-! ## Texts -/

/-- `QString::replace` of a pair of chars, from left to right. -/
def replacePair (a b : Char) (after : List Char) : List Char → List Char
  | x :: y :: t =>
    if x = a ∧ y = b then after ++ replacePair a b after t
    else x :: replacePair a b after (y :: t)
  | t => t

/-- The text with its quotes unescaped, -/
def unescapedQuotes (message : List Char) : List Char := replacePair '\\' '"' ['"'] message

/-- and without those that close after a brace or open before one. -/
def rewritten (message : List Char) : List Char :=
  replacePair '"' '{' ['{'] (replacePair '}' '"' ['}'] (unescapedQuotes message))

def StrToExtEvent : String → ExtEvType
  | "XX" => .XX | "DU" => .DU | "DP" => .DP | "LO" => .LO | "IL" => .IL | "FS" => .FS
  | "ML" => .ML | "MK" => .MK | "PL" => .PL | "PS" => .PS | "CL" => .CL | "CS" => .CS
  | "SV" => .SV | "SA" => .SA | "GC" => .GC | "GU" => .GU | "GF" => .GF | "GD" => .GD
  | "GR" => .GR | "GH" => .GH | "GB" => .GB | "I1" => .I1 | "I2" => .I2 | "I3" => .I3
  | "I4" => .I4 | "J1" => .J1 | "J2" => .J2 | "YA" => .YA | "YZ" => .YZ | "YL" => .YL
  | "YR" => .YR | "YS" => .YS | "YC" => .YC | "YD" => .YD | "YK" => .YK
  | _ => .ZZ

/-- How deep `QJsonDocument` reads. -/
def nestingLimit : ℕ := 1024

/-- Numbers written as integers. -/
def integers : NumberFormat ℚ where
  write x :=
    if x.num < 0 then '-' :: Nat.toDigits 10 x.num.natAbs else Nat.toDigits 10 x.num.natAbs
  read t := (String.ofList t).toInt?.map fun n => (n : ℚ)
  ne_nil x := by
    split
    · exact List.cons_ne_nil _ _
    · exact Nat.toDigits_ne_nil
  chars x c hc := by
    have hdigits : c ∈ Nat.toDigits 10 x.num.natAbs → isNumberChar c = true := fun h => by
      unfold isNumberChar
      simp [Nat.isDigit_of_mem_toDigits (by decide) (by decide) h]
    split at hc
    · rcases List.mem_cons.mp hc with rfl | h
      · decide
      · exact hdigits h
    · exact hdigits hc

/-- `QJsonDocument::fromJson(text).object()`, empty if the text is no object. -/
def jsonObject (num : NumberFormat ℚ) (text : List Char) : QJsonObject :=
  match Json.parse num nestingLimit text with
  | none => .empty
  | some j => j.toMap

/-- `QJsonValue::toString`: empty if the value is no string. -/
def QJsonValue.toStr : QJsonValue → String
  | .str s => s
  | _ => ""

/-- The event of a text, or the error logged to the client. -/
def decode (num : NumberFormat ℚ) (message : String) : Except (String × List String) ExtEvent :=
  let obj := jsonObject num (rewritten message.toList)
  -- the first replacement is done in place
  let message := String.ofList (unescapedQuotes message.toList)
  match obj.entries with
  | [(key, value)] =>
    if StrToExtEvent key = .ZZ then .error ("Invalid message event: %1", [key])
    else if !value.isObject then .error ("Invalid message data: %1", [message])
    -- the line is for the controller to set
    else .ok { ev := StrToExtEvent key, data := value.toMap, line := 0 }
  | _ => .error ("Invalid message size : %1", [message])

/-! ## Grants -/

/-- What the database answers when the grant of a user is looked up. -/
structure GrantsAnswer where
  openError : Option (List String) := none
  execError : Option String := none
  /-- the number of rows, negative when the driver does not say -/
  size : ℤ := -1
  /-- the grant in the first row, empty when there is none -/
  value : String

/-- `DBManager::getGrants`: the grant, and the errors logged. -/
def getGrants (pUser : String) (answer : GrantsAnswer) : String × List (String × List String) :=
  match answer.openError, answer.execError with
  | some args, _ => ("-1", [("getGrants dbOpen - ERROR: %1 - %2", args)])
  | none, some e => ("-1", [("getGrants - %1", [e])])
  | none, none =>
    if answer.size > 1 then ("-1", [("getGrants - Returns more than one row - %1", [pUser])])
    else if answer.size = 0 then ("-1", [("getGrants - Invalid credentials - %1", [pUser])])
    else if answer.value ≠ "0" ∧ answer.value ≠ "1" then
      ("-1", [("getGrants - Invalid credentials - %1-%2", [pUser, answer.value])])
    else (answer.value, [])

/-! ## The server's data -/

/-- What the full dump is made of. -/
structure ServerData where
  grant : String
  mFoldersList : List String
  mFilesList : List String
  mSelectedFolder : String
  /-- the modules with their dumps -/
  modules : List (String × QJsonObject)
  /-- the history of the log, in a language -/
  logs : String → QJsonValue
  lng : String
  mControllerData : QJsonObject
  lovs : OrdMap String QJsonObject

/-- `Controller::getModulesDump`. -/
def getModulesDump (d : ServerData) (clientgrant clientLanguage : String) : QJsonObject :=
  if clientgrant = "-1" then
    Json.record [("d", .object (Json.record
      [("grant-client", .str clientgrant), ("grant-server", .str d.grant)]))]
  else
    Json.record [("d", .object (Json.record
      [("grant-client", .str clientgrant), ("grant-server", .str d.grant),
        ("m", .object (Json.record (d.modules.map fun m => (m.1, .object m.2)))),
        ("files", .object (Json.record
          [("folders", .arr (d.mFoldersList.map .str)), ("files", .arr (d.mFilesList.map .str)),
            ("selectedfolder", .str d.mSelectedFolder)])),
        ("logs", d.logs clientLanguage), ("serverlng", .str d.lng),
        ("controllerdata", .object d.mControllerData),
        ("lovs", .object (d.lovs.map fun _ l => .object l))]))]

/-! ## The handler -/

/-- A connection, and the address of its peer. -/
structure QWebSocket where
  id : ℕ
  peerAddress : String
  deriving DecidableEq, Repr

structure WShandler where
  mServerGrant : String
  mLng : String
  m_clients : List QWebSocket := []
  mClientGrants : OrdMap String String := .empty
  mClientLanguage : OrdMap ℕ String := .empty

/-- A message before it is translated and dated. -/
inductive ClientMessage where
  | json (o : QJsonValue)
  /-- labels and hints are translated to the language -/
  | translated (o : QJsonObject) (lng : String)
  | log (level : LogLevel) (message : String) (args : List String) (context lng : String)

inductive WsOutput where
  | send (client : QWebSocket) (message : ClientMessage)
  | externalEvent (event : ExtEvent)

abbrev WsEmits := Emits WShandler WsOutput Unit

namespace WShandler

def getClientLanguage (w : WShandler) (client : QWebSocket) : String :=
  (w.mClientLanguage.get? client.id).getD "en"

/-- `mClientGrants[client->peerAddress().toString()]`. -/
def grantOf (w : WShandler) (client : QWebSocket) : String :=
  (w.mClientGrants.get? client.peerAddress).getD ""

def setGrant (w : WShandler) (client : QWebSocket) (grant : String) : WShandler :=
  { w with mClientGrants := w.mClientGrants.insert client.peerAddress grant }

/-- A grant for the address, if there is one to be set. -/
def granting (w : WShandler) (client : QWebSocket) : Option String → WShandler
  | some grant => w.setGrant client grant
  | none => w

def setClientLanguage (w : WShandler) (client : QWebSocket) (language : String) : WShandler :=
  if language ≠ "" then
    { w with mClientLanguage := w.mClientLanguage.insert client.id language }
  else w

/-! ### Messages to the clients -/

def logToClient (w : WShandler) (level : LogLevel) (message : String) (args : List String)
    (context : String) (client : QWebSocket) : WsOutput :=
  .send client (.log level message args context (w.getClientLanguage client))

def onLog (w : WShandler) (level : LogLevel) (message : String) (args : List String)
    (context : String) : List WsOutput :=
  w.m_clients.map (w.logToClient level message args context)

/-- `sendJsonMessage(json)`: to all clients. -/
def sendJsonMessage (w : WShandler) (json : QJsonValue) : List WsOutput :=
  w.m_clients.map fun client => .send client (.json json)

def onModuleEvent (w : WShandler) (evt : EvType) (mod : String) (dump : QJsonObject) :
    List WsOutput :=
  w.sendJsonMessage (moduleMessage evt mod dump)

/-- `onControllerEvent`: a list of values created, updated (with its dump) or deleted, -/
def onControllerLov (w : WShandler) (evt : EvType) (key : String) (dump : QJsonObject) :
    List WsOutput :=
  w.sendJsonMessage (.object (Json.record [(EvToString evt, .object (Json.record
    [("lovs", .object (Json.record [(key, .object dump)]))]))]))

/-- or data of the controller itself. -/
def onControllerData (w : WShandler) (key : String) (data : QJsonValue) : List WsOutput :=
  w.sendJsonMessage (.object (Json.record [(EvToString .uc, .object (Json.record [(key, data)]))]))

def processFileEvent (w : WShandler) (eventType : String) (eventData : List String) :
    List WsOutput :=
  w.sendJsonMessage (.object (Json.record
    [("evt", .str eventType), ("fileevent", .arr (eventData.map .str))]))

/-- The overload for one path, under its code: `ad`, `dd`, `af` or `df`. -/
def processFileEvent' (w : WShandler) (code path : String) : List WsOutput :=
  w.sendJsonMessage (.object (Json.record [(code, .str path)]))

/-- `Controller::OnClientEvent`, with the grant of the client. -/
def OnClientEvent (w : WShandler) (data : ServerData) (event : ExtEvent) (client : QWebSocket)
    (clientgrant : String) : List WsOutput :=
  let lng := w.getClientLanguage client
  if event.ev = .DU ∨ event.ev = .IL ∨ event.ev = .LO then
    [.send client (.translated (getModulesDump data clientgrant lng) lng)]
  else if event.ev = .XX then
    [.send client (.translated (Json.record [(EvToString .xx, .object .empty)]) lng)]
  else []

/-! ### What clients do -/

/-- The grant of an address somebody connects from, by the grant of the server. -/
def firstGrant (serverGrant : String) : Option String :=
  if serverGrant = "0" then some "1" -- full access for anyone
  else if serverGrant = "1" then some "0" -- read only for anyone
  else if serverGrant = "2" then some "-1" -- access grant required for anyone
  else none

def onNewConnection (w : WShandler) (client : QWebSocket) : WShandler :=
  let w := { w with m_clients := w.m_clients ++ [client] }
  let w := w.granting client (firstGrant w.mServerGrant)
  { w with mClientLanguage := w.mClientLanguage.insert client.id w.mLng }

def socketDisconnected (w : WShandler) (client : QWebSocket) : WShandler :=
  { w with
    m_clients := w.m_clients.filter (· ≠ client)
    mClientLanguage := w.mClientLanguage.erase client.id
    mClientGrants := w.mClientGrants.erase client.peerAddress }

/-- A log-in request with a user and a password. -/
def processLogin (w : WShandler) (client : QWebSocket) (event : ExtEvent) (answer : GrantsAnswer)
    (data : ServerData) : WsEmits :=
  let granted := getGrants (QJsonValue.toStr ((Json.object event.data).field "user")) answer
  let logs := w.logToClient .Debug "Login request: %1" [ExtEvToString event.ev] "WS" client ::
    granted.2.flatMap fun e => w.onLog .Error e.1 e.2 "DBManager"
  let w := w.setGrant client granted.1
  let w :=
    if event.data.contains "language" then
      w.setClientLanguage client (QJsonValue.toStr ((Json.object event.data).field "language"))
    else w
  ⟨w, logs ++ w.OnClientEvent data event client (w.grantOf client), ()⟩

/-- A change of language. -/
def processLanguage (w : WShandler) (client : QWebSocket) (event : ExtEvent) (data : ServerData) :
    WsEmits :=
  let language := QJsonValue.toStr ((Json.object event.data).field "language")
  let log := w.logToClient .Debug "Client set language: %1" [language] "WS" client
  let w := w.setClientLanguage client language
  ⟨w, log :: w.OnClientEvent data event client (w.grantOf client), ()⟩

/-- A request for the full dump. -/
def processDump (w : WShandler) (client : QWebSocket) (event : ExtEvent) (data : ServerData) :
    WsEmits :=
  let language := QJsonValue.toStr ((Json.object event.data).field "language")
  let log := w.logToClient .Debug "Full dump request: %1" [ExtEvToString event.ev] "WS" client
  if event.data.contains "language" then
    let log' := w.logToClient .Debug "Client set language: %1" [language] "WS" client
    let w := w.setClientLanguage client language
    ⟨w, log :: log' :: w.OnClientEvent data event client (w.grantOf client), ()⟩
  else ⟨w, log :: w.OnClientEvent data event client (w.grantOf client), ()⟩

/-- The part of `processTextMessage` once the text is an event. -/
def processEvent (w : WShandler) (client : QWebSocket) (event : ExtEvent) (answer : GrantsAnswer)
    (data : ServerData) : WsEmits :=
  if event.ev = .XX then ⟨w, w.OnClientEvent data event client (w.grantOf client), ()⟩
  else if w.grantOf client ≠ "1" ∧ event.ev ≠ .DU ∧ event.ev ≠ .LO ∧ event.ev ≠ .IL then
    .emit w (w.logToClient .Error "Client not granted for updates" [] "WS" client) ()
  else if event.ev = .LO then
    if !event.data.contains "user" || !event.data.contains "pw" then
      .emit w (w.logToClient .Error "Invalid login data" [] "WS" client) ()
    else w.processLogin client event answer data
  else if event.ev = .IL then
    if !event.data.contains "language" then
      .emit w (w.logToClient .Error "Invalid language data" [] "WS" client) ()
    else w.processLanguage client event data
  else if event.ev = .DU then w.processDump client event data
  else .emit w (.externalEvent event) ()

def processTextMessage (w : WShandler) (num : NumberFormat ℚ) (client : QWebSocket)
    (message : String) (answer : GrantsAnswer) (data : ServerData) : WsEmits :=
  -- the look-up leaves an empty grant where there is none
  let w := w.setGrant client (w.grantOf client)
  match decode num message with
  | .error e => .emit w (w.logToClient .Error e.1 e.2 "WS" client) ()
  | .ok event => w.processEvent client event answer data

end WShandler

/-! ## Steps -/

/-- What happens to the handler: what a client does, with the answer of the database and the
data of the server at that time, or something there is to tell. -/
inductive WsStep where
  | connect (client : QWebSocket)
  | text (client : QWebSocket) (message : String) (answer : GrantsAnswer) (data : ServerData)
  | disconnect (client : QWebSocket)
  | moduleEvent (evt : EvType) (mod : String) (dump : QJsonObject)
  | controllerLov (evt : EvType) (key : String) (dump : QJsonObject)
  | moduleLog (level : LogLevel) (message : String) (args : List String) (context : String)
  | controllerData (key : String) (data : QJsonValue)
  | fileEvent (eventType : String) (eventData : List String)
  | pathEvent (code path : String)
  | controllerLog (level : LogLevel) (message : String) (args : List String) (context : String)

/-- One step; a client connects once, and acts while it is connected. -/
def WsStep.run (num : NumberFormat ℚ) (step : WsStep) (w : WShandler) : Option WsEmits :=
  match step with
  | .connect client =>
    if client.id ∈ w.m_clients.map QWebSocket.id then none
    else some (.quiet (w.onNewConnection client) ())
  | .text client message answer data =>
    if client ∈ w.m_clients then some (w.processTextMessage num client message answer data)
    else none
  | .disconnect client =>
    if client ∈ w.m_clients then some (.quiet (w.socketDisconnected client) ()) else none
  | .moduleEvent evt mod dump => some ⟨w, w.onModuleEvent evt mod dump, ()⟩
  | .controllerLov evt key dump => some ⟨w, w.onControllerLov evt key dump, ()⟩
  | .moduleLog level message args context | .controllerLog level message args context =>
    some ⟨w, w.onLog level message args context, ()⟩
  | .controllerData key data => some ⟨w, w.onControllerData key data, ()⟩
  | .fileEvent eventType eventData => some ⟨w, w.processFileEvent eventType eventData, ()⟩
  | .pathEvent code path => some ⟨w, w.processFileEvent' code path, ()⟩

/-- The handler before anybody connects. -/
def WShandler.start (grant lng : String) : WShandler := { mServerGrant := grant, mLng := lng }

end Ost
