import Ost.Grants

/-!
# Who learns the server's data

Two runs of the handler that differ only in the data of the modules and in the lists of
values (`SameButData`) should look the same to a connection that never was granted access.
They do exactly as long as no step `Exposes` the data to it: no broadcast of data while it
is connected, and no dump for it under a grant that is not its own.

The data decide nothing in the handler, so both runs go through the same states; what is
to be compared is what a step sends.

Main theorems:
    hidden_step:         a step that does not expose the data sends the same messages
    exposed_step:        one that does sends others for some other data
    confidential_iff:    a run is confidential exactly if no step of it exposes the data
-/

namespace Ost

open Lib

/-! ## Runs that differ in data -/

/-- The same server but for the modules and the lists of values. -/
structure ServerData.SameButData (d d' : ServerData) : Prop where
  grant : d'.grant = d.grant
  folders : d'.mFoldersList = d.mFoldersList
  files : d'.mFilesList = d.mFilesList
  selected : d'.mSelectedFolder = d.mSelectedFolder
  logs : d'.logs = d.logs
  lng : d'.lng = d.lng
  controllerData : d'.mControllerData = d.mControllerData

inductive SameButData : WsStep → WsStep → Prop where
  | connect (client : QWebSocket) : SameButData (.connect client) (.connect client)
  | text (client : QWebSocket) (message : String) (answer : GrantsAnswer) (d d' : ServerData)
    (h : d.SameButData d') :
    SameButData (.text client message answer d) (.text client message answer d')
  | disconnect (client : QWebSocket) : SameButData (.disconnect client) (.disconnect client)
  | moduleEvent (evt : EvType) (mod mod' : String) (dump dump' : QJsonObject) :
    SameButData (.moduleEvent evt mod dump) (.moduleEvent evt mod' dump')
  | controllerLov (evt : EvType) (key key' : String) (dump dump' : QJsonObject) :
    SameButData (.controllerLov evt key dump) (.controllerLov evt key' dump')
  | moduleLog (level : LogLevel) (message : String) (args : List String) (context : String) :
    SameButData (.moduleLog level message args context) (.moduleLog level message args context)
  | controllerData (key : String) (data : QJsonValue) :
    SameButData (.controllerData key data) (.controllerData key data)
  | fileEvent (eventType : String) (eventData : List String) :
    SameButData (.fileEvent eventType eventData) (.fileEvent eventType eventData)
  | pathEvent (code path : String) : SameButData (.pathEvent code path) (.pathEvent code path)
  | controllerLog (level : LogLevel) (message : String) (args : List String) (context : String) :
    SameButData (.controllerLog level message args context)
      (.controllerLog level message args context)

/-- What a connection receives. -/
def messagesTo (client : QWebSocket) (evs : List WsOutput) : List ClientMessage :=
  evs.filterMap fun e =>
    match e with
    | .send other message => if other = client then some message else none
    | .externalEvent _ => none

/-- No log-in of the connection was successful. -/
def NeverGranted (num : NumberFormat ℚ) (run : List WsStep) (client : QWebSocket) : Prop :=
  ∀ message answer data, .text client message answer data ∈ run →
    ∀ grant, loginReply num message answer = some grant → grant = "-1"

/-- Whether the step is no successful log-in of the connection. -/
def WsStep.refuses (num : NumberFormat ℚ) (client : QWebSocket) : WsStep → Bool
  | .text other message answer _ =>
    other ≠ client || (loginReply num message answer).all (· = "-1")
  | _ => true

instance (num : NumberFormat ℚ) (run : List WsStep) (client : QWebSocket) :
    Decidable (NeverGranted num run client) :=
  decidable_of_iff (∀ st ∈ run, st.refuses num client = true) <| by
    constructor
    · intro h message answer data hmem grant hgrant
      have hst := h _ hmem
      unfold WsStep.refuses at hst
      simpa [hgrant] using hst
    · intro h st hst
      unfold WsStep.refuses
      cases st with
      | text other message answer data =>
        by_cases hother : other = client
        · subst hother
          cases hgrant : loginReply num message answer with
          | none => simp [hgrant]
          | some grant => simp [hgrant, h message answer data hst grant hgrant]
        · simp [hother]
      | _ => rfl

/-- The connection receives the same from every server that differs in data only. -/
def Confidential (num : NumberFormat ℚ) (run : List WsStep) (w : WShandler)
    (client : QWebSocket) : Prop :=
  ∀ run', List.Forall₂ SameButData run run' → ∀ z z', Emits.run (WsStep.run num) run w = some z →
    Emits.run (WsStep.run num) run' w = some z' → messagesTo client z.evs = messagesTo client z'.evs

/-! ## Steps that expose the data -/

/-- The event asks for the dump, outright or with a change of language. -/
def asksFor (event : ExtEvent) : Bool :=
  event.ev = .DU || event.ev = .IL && event.data.contains "language"

/-- The text asks so. -/
def asksDump (num : NumberFormat ℚ) (message : String) : Bool :=
  match decode num message with
  | .ok event => asksFor event
  | .error _ => false

/-- The step makes the data known to the connection: it is told to all, or the connection gets
the dump although its own grant is none. -/
def WsStep.Exposes (num : NumberFormat ℚ) (client : QWebSocket) (step : WsStep) (w : WShandler) :
    Prop :=
  match step with
  | .moduleEvent _ _ _ | .controllerLov _ _ _ => client ∈ w.m_clients
  | .text other message _ _ =>
    other = client ∧ asksDump num message = true ∧ w.grantOf client ≠ "-1"
  | _ => False

instance (num : NumberFormat ℚ) (client : QWebSocket) (step : WsStep) (w : WShandler) :
    Decidable (step.Exposes num client w) :=
  match step with
  | .moduleEvent _ _ _ | .controllerLov _ _ _ => inferInstanceAs (Decidable (client ∈ w.m_clients))
  | .text _ _ _ _ => inferInstanceAs (Decidable (_ ∧ _ ∧ _))
  | .connect _ | .disconnect _ | .moduleLog _ _ _ _ | .controllerData _ _ | .fileEvent _ _
  | .pathEvent _ _ | .controllerLog _ _ _ _ => isFalse id

/-! ## What a connection receives -/

theorem messagesTo_append (client : QWebSocket) (evs evs' : List WsOutput) :
    messagesTo client (evs ++ evs') = messagesTo client evs ++ messagesTo client evs' :=
  List.filterMap_append

theorem messagesTo_nil_of_other (client other : QWebSocket) (h : other ≠ client)
    (messages : List ClientMessage) : messagesTo client (messages.map (.send other)) = [] := by
  unfold messagesTo
  rw [List.filterMap_map]
  exact List.filterMap_eq_nil_iff.mpr fun m _ => if_neg h

/-- A message to all reaches those that are connected, and no others. -/
theorem mem_messagesTo_broadcast (client : QWebSocket) (clients : List QWebSocket)
    (message : QWebSocket → ClientMessage) (m : ClientMessage) :
    m ∈ messagesTo client (clients.map fun c => .send c (message c)) ↔
      client ∈ clients ∧ m = message client := by
  unfold messagesTo
  rw [List.mem_filterMap]
  constructor
  · rintro ⟨e, he, hm⟩
    obtain ⟨c, hc, rfl⟩ := List.mem_map.mp he
    simp only at hm
    split at hm
    · next heq =>
      subst heq
      exact ⟨hc, (Option.some.inj hm).symm⟩
    · cases hm
  · rintro ⟨hc, rfl⟩
    exact ⟨.send client (message client), List.mem_map.mpr ⟨client, hc, rfl⟩, if_pos rfl⟩

theorem messagesTo_broadcast_of_not_mem (client : QWebSocket) (clients : List QWebSocket)
    (message : QWebSocket → ClientMessage) (h : client ∉ clients) :
    messagesTo client (clients.map fun c => .send c (message c)) = [] := by
  rw [List.eq_nil_iff_forall_not_mem]
  intro m hm
  exact h ((mem_messagesTo_broadcast client clients message m).mp hm).1

/-- Two different messages to all are told apart by whoever is connected. -/
theorem messagesTo_broadcast_ne (client : QWebSocket) (clients : List QWebSocket)
    (message message' : QWebSocket → ClientMessage) (hc : client ∈ clients)
    (hne : message client ≠ message' client) :
    messagesTo client (clients.map fun c => .send c (message c)) ≠
      messagesTo client (clients.map fun c => .send c (message' c)) := by
  intro heq
  have hmem := (mem_messagesTo_broadcast client clients message _).mpr ⟨hc, rfl⟩
  rw [heq, mem_messagesTo_broadcast] at hmem
  exact hne hmem.2

theorem messagesTo_cons_log (client : QWebSocket) (w : WShandler) (level : LogLevel)
    (message : String) (args : List String) (context : String) (other : QWebSocket)
    (evs evs' : List WsOutput) (h : messagesTo client evs = messagesTo client evs') :
    messagesTo client (w.logToClient level message args context other :: evs) =
      messagesTo client (w.logToClient level message args context other :: evs') := by
  rw [← List.singleton_append, messagesTo_append, h, ← messagesTo_append, List.singleton_append]

/-! ## The state does not depend on the data -/

namespace WShandler

theorem processEvent_st_eq (w : WShandler) (client : QWebSocket) (event : ExtEvent)
    (answer : GrantsAnswer) (d d' : ServerData) :
    (w.processEvent client event answer d).st = (w.processEvent client event answer d').st := by
  unfold processEvent
  split
  · rfl
  split
  · rfl
  split
  · split
    · rfl
    · rfl
  split
  · split
    · rfl
    · rfl
  split
  · unfold processDump
    dsimp only
    split
    · rfl
    · rfl
  · rfl

theorem processTextMessage_st_eq (w : WShandler) (num : NumberFormat ℚ) (client : QWebSocket)
    (message : String) (answer : GrantsAnswer) (d d' : ServerData) :
    (w.processTextMessage num client message answer d).st =
      (w.processTextMessage num client message answer d').st := by
  unfold processTextMessage
  cases decode num message with
  | error e => rfl
  | ok event => exact processEvent_st_eq _ client event answer d d'

/-! ## What a client is answered -/

/-- An answer shows no data: it is for another connection, or made for no grant, or no dump. -/
theorem OnClientEvent_hidden (w : WShandler) (client other : QWebSocket) (event : ExtEvent)
    (d d' : ServerData) (grant : String) (hd : d.SameButData d')
    (h : other = client → event.ev = .DU ∨ event.ev = .IL ∨ event.ev = .LO → grant = "-1") :
    messagesTo client (w.OnClientEvent d event other grant) =
      messagesTo client (w.OnClientEvent d' event other grant) := by
  unfold OnClientEvent
  dsimp only
  by_cases hev : event.ev = .DU ∨ event.ev = .IL ∨ event.ev = .LO
  · rw [if_pos hev, if_pos hev]
    by_cases hother : other = client
    · unfold getModulesDump
      rw [if_pos (h hother hev), if_pos (h hother hev), hd.grant]
    · have hnil : ∀ m, messagesTo client [.send other m] = [] := fun m =>
        messagesTo_nil_of_other client other hother [m]
      rw [hnil, hnil]
  · rw [if_neg hev, if_neg hev]

/-- With a grant a dump shows the modules. -/
theorem OnClientEvent_exposed (w : WShandler) (client : QWebSocket) (event : ExtEvent)
    (d : ServerData) (grant : String) (hev : event.ev = .DU ∨ event.ev = .IL)
    (hgrant : grant ≠ "-1") :
    ∃ d', d.SameButData d' ∧ messagesTo client (w.OnClientEvent d event client grant) ≠
      messagesTo client (w.OnClientEvent d' event client grant) := by
  have hdump : event.ev = .DU ∨ event.ev = .IL ∨ event.ev = .LO := by
    rcases hev with h | h
    · exact .inl h
    · exact .inr (.inl h)
  have hsent : ∀ d, messagesTo client (w.OnClientEvent d event client grant) =
      [.translated (getModulesDump d grant (w.getClientLanguage client))
        (w.getClientLanguage client)] := by
    intro d
    unfold OnClientEvent
    dsimp only
    rw [if_pos hdump]
    unfold messagesTo
    simp
  have hmodules : ∀ d, ((Json.object (getModulesDump d grant (w.getClientLanguage client))).field
      "d").field "m" = .object (Json.record (d.modules.map fun m => (m.1, .object m.2))) := by
    intro d
    unfold getModulesDump
    rw [if_neg hgrant]
    simp [Json.record, OrdMap.ofEntries, OrdMap.get?_insert]
  -- no modules, or one if there are none
  have hother : ∃ modules : List (String × QJsonObject),
      (Json.record (modules.map fun m => (m.1, .object m.2)) : QJsonObject) ≠
        Json.record (d.modules.map fun m => (m.1, .object m.2)) := by
    by_cases hnone : d.modules = []
    · refine ⟨[("", .empty)], ?_⟩
      rw [hnone]
      decide
    · refine ⟨[], fun heq => ?_⟩
      have hnil := (OrdMap.ofEntries_entries_eq_nil _).mp (congrArg OrdMap.entries heq.symm)
      exact hnone (List.map_eq_nil_iff.mp hnil)
  obtain ⟨modules, hne⟩ := hother
  refine ⟨{ d with modules := modules }, ⟨rfl, rfl, rfl, rfl, rfl, rfl, rfl⟩, fun heq => ?_⟩
  rw [hsent, hsent, List.singleton_inj, ClientMessage.translated.injEq] at heq
  have hfield := hmodules d
  rw [heq.1, hmodules] at hfield
  exact hne (by simpa using congrArg Json.toMap hfield)

theorem grantOf_setClientLanguage (w : WShandler) (client other : QWebSocket) (language : String) :
    (w.setClientLanguage client language).grantOf other = w.grantOf other := by
  unfold setClientLanguage
  split
  · rfl
  · rfl

theorem processLogin_hidden (w : WShandler) (client other : QWebSocket) (event : ExtEvent)
    (answer : GrantsAnswer) (d d' : ServerData) (hd : d.SameButData d')
    (hlogin : other = client →
      (getGrants (QJsonValue.toStr ((Json.object event.data).field "user")) answer).1 = "-1") :
    messagesTo client (w.processLogin other event answer d).evs =
      messagesTo client (w.processLogin other event answer d').evs := by
  have hanswer : ∀ (w' : WShandler) (logs : List WsOutput), (other = client → w'.grantOf other = "-1") →
      messagesTo client (logs ++ w'.OnClientEvent d event other (w'.grantOf other)) =
        messagesTo client (logs ++ w'.OnClientEvent d' event other (w'.grantOf other)) := by
    intro w' logs hgrant
    rw [messagesTo_append, messagesTo_append,
      OnClientEvent_hidden w' client other event d d' _ hd fun ho _ => hgrant ho]
  unfold processLogin
  dsimp only
  split
  · refine hanswer _ _ fun ho => ?_
    rw [grantOf_setClientLanguage, grantOf_setGrant, if_pos rfl]
    exact hlogin ho
  · refine hanswer _ _ fun ho => ?_
    rw [grantOf_setGrant, if_pos rfl]
    exact hlogin ho

theorem processLanguage_hidden (w : WShandler) (client other : QWebSocket) (event : ExtEvent)
    (d d' : ServerData) (hd : d.SameButData d') (hgrant : other = client → w.grantOf other = "-1") :
    messagesTo client (w.processLanguage other event d).evs =
      messagesTo client (w.processLanguage other event d').evs := by
  unfold processLanguage
  apply messagesTo_cons_log
  apply OnClientEvent_hidden _ client other event d d' _ hd
  intro ho _
  rw [grantOf_setClientLanguage]
  exact hgrant ho

theorem processDump_hidden (w : WShandler) (client other : QWebSocket) (event : ExtEvent)
    (d d' : ServerData) (hd : d.SameButData d') (hgrant : other = client → w.grantOf other = "-1") :
    messagesTo client (w.processDump other event d).evs =
      messagesTo client (w.processDump other event d').evs := by
  unfold processDump
  dsimp only
  split
  · apply messagesTo_cons_log
    apply messagesTo_cons_log
    apply OnClientEvent_hidden _ client other event d d' _ hd
    intro ho _
    rw [grantOf_setClientLanguage]
    exact hgrant ho
  · apply messagesTo_cons_log
    exact OnClientEvent_hidden _ client other event d d' _ hd fun ho _ => hgrant ho

theorem processEvent_hidden (w : WShandler) (client other : QWebSocket) (event : ExtEvent)
    (answer : GrantsAnswer) (d d' : ServerData) (hd : d.SameButData d')
    (hlogin : other = client → ∀ grant, eventReply event answer = some grant → grant = "-1")
    (hask : other = client → asksFor event = true → w.grantOf other = "-1") :
    messagesTo client (w.processEvent other event answer d).evs =
      messagesTo client (w.processEvent other event answer d').evs := by
  unfold processEvent
  split
  · next hxx =>
    apply OnClientEvent_hidden w client other event d d' _ hd
    intro _ hev
    rw [hxx] at hev
    exact absurd hev (by decide)
  split
  · rfl
  split
  · next hlo =>
    split
    · rfl
    · next hdata =>
      refine processLogin_hidden w client other event answer d d' hd fun ho => hlogin ho _ ?_
      exact if_pos ⟨hlo, by simpa using hdata⟩
  split
  · next hil =>
    split
    · rfl
    · next hlanguage =>
      refine processLanguage_hidden w client other event d d' hd fun ho => hask ho ?_
      unfold asksFor
      simp only [Bool.not_eq_true', Bool.not_eq_false] at hlanguage
      rw [hil, hlanguage]
      rfl
  split
  · next hdu =>
    refine processDump_hidden w client other event d d' hd fun ho => hask ho ?_
    unfold asksFor
    rw [hdu]
    rfl
  · rfl

/-- Asked for the dump under a grant, the handler shows the modules. -/
theorem processEvent_exposed (w : WShandler) (client : QWebSocket) (event : ExtEvent)
    (answer : GrantsAnswer) (d : ServerData) (hask : asksFor event = true)
    (hgrant : w.grantOf client ≠ "-1") :
    ∃ d', d.SameButData d' ∧ messagesTo client (w.processEvent client event answer d).evs ≠
      messagesTo client (w.processEvent client event answer d').evs := by
  -- the answer comes last, after the same messages
  have hlast : ∀ (w' : WShandler) (logs : List WsOutput), w'.grantOf client = w.grantOf client →
      event.ev = .DU ∨ event.ev = .IL → ∃ d', d.SameButData d' ∧
        messagesTo client (logs ++ w'.OnClientEvent d event client (w'.grantOf client)) ≠
          messagesTo client (logs ++ w'.OnClientEvent d' event client (w'.grantOf client)) := by
    intro w' logs hw hev
    obtain ⟨d', hd, hne⟩ := OnClientEvent_exposed w' client event d (w'.grantOf client) hev
      (hw ▸ hgrant)
    refine ⟨d', hd, fun heq => hne ?_⟩
    rw [messagesTo_append, messagesTo_append] at heq
    exact List.append_cancel_left heq
  unfold asksFor at hask
  rw [Bool.or_eq_true, Bool.and_eq_true, decide_eq_true_iff, decide_eq_true_iff] at hask
  rcases hask with hdu | ⟨hil, hlanguage⟩
  · have hevent : ∀ d, w.processEvent client event answer d = w.processDump client event d := by
      intro d
      unfold processEvent
      simp [hdu]
    simp only [hevent]
    unfold processDump
    dsimp only
    split
    · exact hlast (w.setClientLanguage client _) [_, _] (grantOf_setClientLanguage _ _ _ _) (.inl hdu)
    · exact hlast w [_] rfl (.inl hdu)
  · have hevent : ∀ d, w.processEvent client event answer d = w.processLanguage client event d := by
      intro d
      unfold processEvent
      simp [hil, hlanguage]
    simp only [hevent]
    unfold processLanguage
    exact hlast (w.setClientLanguage client _) [_] (grantOf_setClientLanguage _ _ _ _) (.inr hil)

end WShandler

/-! ## One step -/

theorem SameButData.refl (st : WsStep) : SameButData st st := by
  cases st with
  | text client message answer d =>
    exact .text client message answer d d ⟨rfl, rfl, rfl, rfl, rfl, rfl, rfl⟩
  | connect client => exact .connect client
  | disconnect client => exact .disconnect client
  | moduleEvent evt mod dump => exact .moduleEvent evt mod mod dump dump
  | controllerLov evt key dump => exact .controllerLov evt key key dump dump
  | moduleLog level message args context => exact .moduleLog level message args context
  | controllerData key data => exact .controllerData key data
  | fileEvent eventType eventData => exact .fileEvent eventType eventData
  | pathEvent code path => exact .pathEvent code path
  | controllerLog level message args context => exact .controllerLog level message args context

/-- A step with other data can be made where the step can, and leads to the same state. -/
theorem run_of_sameButData (num : NumberFormat ℚ) (st st' : WsStep) (h : SameButData st st')
    (w : WShandler) (x : WsEmits) (hx : st.run num w = some x) :
    ∃ x', st'.run num w = some x' ∧ x'.st = x.st := by
  cases h with
  | text client message answer d d' hd =>
    unfold WsStep.run at hx
    dsimp only at hx
    split at hx
    · next hc =>
      cases hx
      exact ⟨_, if_pos hc, w.processTextMessage_st_eq num client message answer d' d⟩
    · cases hx
  | moduleEvent evt mod mod' dump dump' =>
    cases hx
    exact ⟨_, rfl, rfl⟩
  | controllerLov evt key key' dump dump' =>
    cases hx
    exact ⟨_, rfl, rfl⟩
  | _ => exact ⟨x, hx, rfl⟩

/-- The step is no successful log-in of the connection. -/
def WsStep.Refused (num : NumberFormat ℚ) (client : QWebSocket) (step : WsStep) : Prop :=
  ∀ message answer data, step = .text client message answer data →
    ∀ grant, loginReply num message answer = some grant → grant = "-1"

/-- **A step that does not expose the data sends the same messages.** -/
theorem hidden_step (num : NumberFormat ℚ) (client : QWebSocket) (st st' : WsStep)
    (h : SameButData st st') (w : WShandler) (x x' : WsEmits) (hx : st.run num w = some x)
    (hx' : st'.run num w = some x') (hrefused : st.Refused num client)
    (hhidden : ¬st.Exposes num client w) :
    messagesTo client x.evs = messagesTo client x'.evs := by
  cases h with
  | text other message answer d d' hd =>
    unfold WsStep.run at hx hx'
    dsimp only at hx hx'
    split at hx
    · next hc =>
      rw [if_pos hc] at hx'
      cases hx
      cases hx'
      unfold WShandler.processTextMessage
      have hexp : other = client → asksDump num message = true → w.grantOf other = "-1" := by
        intro ho hask
        by_contra hne
        exact hhidden ⟨ho, hask, ho ▸ hne⟩
      have hlogin : other = client → ∀ grant, loginReply num message answer = some grant →
          grant = "-1" := by
        rintro rfl
        exact hrefused message answer d rfl
      unfold asksDump at hexp
      unfold loginReply at hlogin
      cases hdec : decode num message with
      | error e => rfl
      | ok event =>
        rw [hdec] at hexp hlogin
        refine WShandler.processEvent_hidden _ client other event answer d d' hd hlogin fun ho ha => ?_
        rw [WShandler.grantOf_setGrant, if_pos rfl]
        exact hexp ho ha
    · cases hx
  | moduleEvent evt mod mod' dump dump' =>
    cases hx
    cases hx'
    have hnot : client ∉ w.m_clients := hhidden
    exact (messagesTo_broadcast_of_not_mem client w.m_clients (fun _ => .json _) hnot).trans
      (messagesTo_broadcast_of_not_mem client w.m_clients (fun _ => .json _) hnot).symm
  | controllerLov evt key key' dump dump' =>
    cases hx
    cases hx'
    have hnot : client ∉ w.m_clients := hhidden
    exact (messagesTo_broadcast_of_not_mem client w.m_clients (fun _ => .json _) hnot).trans
      (messagesTo_broadcast_of_not_mem client w.m_clients (fun _ => .json _) hnot).symm
  | _ =>
    rw [hx] at hx'
    cases hx'
    rfl

/-- An object other than a given one. -/
theorem exists_ne_object (o : QJsonObject) : ∃ o' : QJsonObject, o ≠ o' := by
  by_cases h : o = .empty
  · exact ⟨Json.record [("", .null)], by rw [h]; decide⟩
  · exact ⟨.empty, h⟩

theorem record_single_ne (k : String) (j j' : QJsonValue) (h : j ≠ j') :
    (Json.object (Json.record [(k, j)]) : QJsonValue) ≠ .object (Json.record [(k, j')]) := by
  intro heq
  have hfield := congrArg (fun o => Json.field o k) heq
  rw [Json.field_object, Json.field_object] at hfield
  unfold Json.record OrdMap.ofEntries at hfield
  rw [OrdMap.insertAll_cons, OrdMap.insertAll_nil, OrdMap.insertAll_cons, OrdMap.insertAll_nil,
    OrdMap.get?_insert_self, OrdMap.get?_insert_self] at hfield
  exact h hfield

theorem object_ne (o o' : QJsonObject) (h : o ≠ o') : (Json.object o : QJsonValue) ≠ .object o' := by
  intro heq
  exact h (by simpa using congrArg Json.toMap heq)

/-- **A step that exposes the data sends others for some other data.** -/
theorem exposed_step (num : NumberFormat ℚ) (client : QWebSocket) (st : WsStep) (w : WShandler)
    (x : WsEmits) (hx : st.run num w = some x) (hexp : st.Exposes num client w) :
    ∃ st' x', SameButData st st' ∧ st'.run num w = some x' ∧
      messagesTo client x.evs ≠ messagesTo client x'.evs := by
  cases st with
  | text other message answer d =>
    obtain ⟨rfl, hask, hgrant⟩ := hexp
    unfold WsStep.run at hx
    dsimp only at hx
    split at hx
    · next hc =>
      cases hx
      unfold asksDump at hask
      cases hdec : decode num message with
      | error e =>
        rw [hdec] at hask
        cases hask
      | ok event =>
        rw [hdec] at hask
        have hw : (w.setGrant other (w.grantOf other)).grantOf other ≠ "-1" := by
          rw [WShandler.grantOf_setGrant, if_pos rfl]
          exact hgrant
        obtain ⟨d', hd, hne⟩ := WShandler.processEvent_exposed _ other event answer d hask hw
        refine ⟨.text other message answer d', _, .text other message answer d d' hd, if_pos hc, ?_⟩
        unfold WShandler.processTextMessage
        dsimp only
        rw [hdec]
        exact hne
    · cases hx
  | moduleEvent evt mod dump =>
    cases hx
    obtain ⟨dump', hne⟩ := exists_ne_object dump
    refine ⟨.moduleEvent evt mod dump', _, .moduleEvent evt mod mod dump dump', rfl, ?_⟩
    apply messagesTo_broadcast_ne client w.m_clients _ _ hexp
    intro heq
    exact record_single_ne _ _ _ (record_single_ne _ _ _ (object_ne _ _ hne))
      (ClientMessage.json.inj heq)
  | controllerLov evt key dump =>
    cases hx
    obtain ⟨dump', hne⟩ := exists_ne_object dump
    refine ⟨.controllerLov evt key dump', _, .controllerLov evt key key dump dump', rfl, ?_⟩
    apply messagesTo_broadcast_ne client w.m_clients _ _ hexp
    intro heq
    exact record_single_ne _ _ _ (record_single_ne _ _ _ (record_single_ne _ _ _ (object_ne _ _ hne)))
      (ClientMessage.json.inj heq)
  | connect c => exact hexp.elim
  | disconnect c => exact hexp.elim
  | moduleLog level message args context => exact hexp.elim
  | controllerData key data => exact hexp.elim
  | fileEvent eventType eventData => exact hexp.elim
  | pathEvent code path => exact hexp.elim
  | controllerLog level message args context => exact hexp.elim

/-! ## Runs -/

/-- A run with other data in its first step goes on as the run does. -/
theorem run_cons_sameButData (num : NumberFormat ℚ) (st' : WsStep) (run' : List WsStep)
    (w : WShandler) (x x' z' : WsEmits) (hx' : st'.run num w = some x')
    (hst : x'.st = x.st) (hz' : Emits.run (WsStep.run num) (st' :: run') w = some z') :
    ∃ y', Emits.run (WsStep.run num) run' x.st = some y' ∧ z'.evs = x'.evs ++ y'.evs := by
  obtain ⟨x₁, y', hx₁, hy', rfl⟩ := Emits.run_cons_eq_some _ _ _ _ _ hz'
  rw [hx'] at hx₁
  cases hx₁
  rw [hst] at hy'
  exact ⟨y', hy', rfl⟩

theorem confidential_iff_of_run (num : NumberFormat ℚ) (run : List WsStep) (client : QWebSocket)
    (hrefused : ∀ st ∈ run, st.Refused num client) (w : WShandler) (z : WsEmits)
    (hz : Emits.run (WsStep.run num) run w = some z) :
    Confidential num run w client ↔
      Emits.RunMeets (WsStep.run num) (fun st w => ¬st.Exposes num client w) run w := by
  induction run generalizing w z with
  | nil =>
    refine ⟨fun _ => trivial, fun _ run' hrun' z z' hz hz' => ?_⟩
    cases hrun'
    rw [hz] at hz'
    cases hz'
    rfl
  | cons st run ih =>
    obtain ⟨x, y, hx, hy, rfl⟩ := Emits.run_cons_eq_some _ _ _ _ _ hz
    have hrest := ih (fun s hs => hrefused s (List.mem_cons_of_mem st hs)) x.st y hy
    constructor
    · intro hconf
      refine ⟨fun hexp => ?_, fun x₁ hx₁ => ?_⟩
      · -- other data in this step only
        obtain ⟨st', x', hsame, hx', hne⟩ := exposed_step num client st w x hx hexp
        obtain ⟨x'', hx'', hst⟩ := run_of_sameButData num st st' hsame w x hx
        rw [hx'] at hx''
        cases hx''
        have hz' : Emits.run (WsStep.run num) (st' :: run) w = some ⟨y.st, x'.evs ++ y.evs, ()⟩ := by
          unfold Emits.run
          rw [hx']
          dsimp only
          rw [hst, hy]
        have heq := hconf (st' :: run) (.cons hsame (List.forall₂_same.mpr fun s _ => .refl s)) _ _
          hz hz'
        dsimp only at heq
        rw [messagesTo_append, messagesTo_append] at heq
        exact hne (List.append_cancel_right heq)
      · rw [hx] at hx₁
        cases hx₁
        refine hrest.mp fun run' hrun' y₁ y' hy₁ hy' => ?_
        rw [hy] at hy₁
        cases hy₁
        have hz' : Emits.run (WsStep.run num) (st :: run') w = some ⟨y'.st, x.evs ++ y'.evs, ()⟩ := by
          unfold Emits.run
          rw [hx]
          dsimp only
          rw [hy']
        have heq := hconf (st :: run') (.cons (.refl st) hrun') _ _ hz hz'
        dsimp only at heq
        rw [messagesTo_append, messagesTo_append] at heq
        exact List.append_cancel_left heq
    · rintro ⟨hhidden, hmeets⟩ run' hrun' z₁ z' hz₁ hz'
      rw [hz] at hz₁
      cases hz₁
      cases hrun' with
      | cons hsame hrun' =>
        obtain ⟨x', hx', hst⟩ := run_of_sameButData num st _ hsame w x hx
        obtain ⟨y', hy', hevs⟩ := run_cons_sameButData num _ _ w x x' z' hx' hst hz'
        have hstep := hidden_step num client st _ hsame w x x' hx hx'
          (hrefused st List.mem_cons_self) hhidden
        rw [hevs]
        dsimp only
        rw [messagesTo_append, messagesTo_append, hstep,
          hrest.mpr (hmeets x hx) _ hrun' y y' hy hy']

/-- A request for the full dump. -/
def dumpStep (client : QWebSocket) : WsStep :=
  .text client "\x7b\"DU\":\x7b\x7d\x7d" { value := "" } sampleData

/-- Somebody who is granted access gets the data, then another tries to log in and asks for the
dump. -/
def sampleVisit : List WsStep :=
  [.connect (socket 1 "10.0.0.7"), loginStep (socket 1 "10.0.0.7") "1",
    .moduleEvent .ap "m1" (Json.record [("p", .object .empty)]), dumpStep (socket 1 "10.0.0.7"),
    .connect (socket 2 "10.0.0.8"), loginStep (socket 2 "10.0.0.8") "",
    dumpStep (socket 2 "10.0.0.8")]

/-- The second connection gets no access, but data. -/
def Leaks (run : List WsStep) : Prop :=
  NeverGranted integers run (socket 2 "10.0.0.8") ∧
    ¬Confidential integers run (.start "2" "en") (socket 2 "10.0.0.8")

theorem leaks_of_not_runMeets (run : List WsStep)
    (h : NeverGranted integers run (socket 2 "10.0.0.8") ∧
      (Emits.run (WsStep.run integers) run (.start "2" "en")).isSome = true ∧
      ¬Emits.RunMeets (WsStep.run integers)
        (fun st w => ¬st.Exposes integers (socket 2 "10.0.0.8") w) run (.start "2" "en")) :
    Leaks run := by
  obtain ⟨hn, hsome, hnot⟩ := h
  obtain ⟨z, hz⟩ := Option.isSome_iff_exists.mp hsome
  refine ⟨hn, fun hconf => hnot ?_⟩
  refine (confidential_iff_of_run integers run _ (fun st hst => ?_) _ z hz).mp hconf
  rintro message answer data rfl
  exact hn message answer data hst

end Ost
