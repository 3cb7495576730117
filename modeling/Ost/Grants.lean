import Ost.WShandler

/-!
# Who may send updates

A connection may update if the server grants everything to everyone, or if the last log-in
reply it got said so (`Sessions.Rights`).  The handler looks at something else: the grant of
the peer address, which all connections from that address share, and which a log-in
overwrites whatever the server grants.

A step is `Apart` if it does not change what another connection from the same address relies
on, and if nobody loses by logging in what the server grants to all.  Step by step this is
exactly when the handler keeps to the rights.

Main theorems:
    agrees_step_iff:       a step keeps the grants in agreement exactly if it is apart
    forwarded_iff_rights:  along runs of such steps an update is forwarded exactly if the
      connection has the right, and nobody else changes what it may do
-/

namespace Ost

open Lib

/-! ## Rights -/

/-- The grant that the reply to a log-in tells; no other event is answered so. -/
def eventReply (event : ExtEvent) (answer : GrantsAnswer) : Option String :=
  if event.ev = .LO ∧ event.data.contains "user" = true ∧ event.data.contains "pw" = true then
    some (getGrants (QJsonValue.toStr ((Json.object event.data).field "user")) answer).1
  else none

def loginReply (num : NumberFormat ℚ) (message : String) (answer : GrantsAnswer) : Option String :=
  match decode num message with
  | .ok event => eventReply event answer
  | .error _ => none

/-- The handler, and the last log-in reply on each connection. -/
structure Sessions where
  handler : WShandler
  lastReply : OrdMap ℕ String := .empty

namespace Sessions

/-- Updates are for the connections that were told so, or for everyone. -/
def Rights (s : Sessions) (client : QWebSocket) : Prop :=
  s.handler.mServerGrant = "0" ∨ s.lastReply.get? client.id = some "1"

/-- The replies once one more is told, if it is. -/
def told (replies : OrdMap ℕ String) (client : QWebSocket) : Option String → OrdMap ℕ String
  | some grant => replies.insert client.id grant
  | none => replies

def record (num : NumberFormat ℚ) (step : WsStep) (replies : OrdMap ℕ String) :
    OrdMap ℕ String :=
  match step with
  | .connect client => replies.erase client.id
  | .text client message answer _ => told replies client (loginReply num message answer)
  | _ => replies

def step (num : NumberFormat ℚ) (step : WsStep) (s : Sessions) :
    Option (Emits Sessions WsOutput Unit) :=
  (step.run num s.handler).map fun x => ⟨⟨x.st, record num step s.lastReply⟩, x.evs, ()⟩

def start (grant lng : String) : Sessions := { handler := .start grant lng }

/-- What holds of the connections whatever happens. -/
structure Connected (s : Sessions) : Prop where
  ids : (s.handler.m_clients.map QWebSocket.id).Nodup
  /-- a grant is kept for the address of somebody connected -/
  held : ∀ address, s.handler.mClientGrants.contains address = true →
    ∃ client ∈ s.handler.m_clients, client.peerAddress = address

/-- What the handler goes by is right for every connection. -/
def Agrees (s : Sessions) : Prop :=
  ∀ client ∈ s.handler.m_clients, s.handler.grantOf client = "1" ↔ s.Rights client

end Sessions

/-- The other connections from the same address. -/
def Shares (w : WShandler) (client other : QWebSocket) : Prop :=
  other ∈ w.m_clients ∧ other ≠ client ∧ other.peerAddress = client.peerAddress

/-- The step leaves to the others from its address what they are entitled to, and takes nothing
from a connection that the server grants to all. -/
def WsStep.Apart (num : NumberFormat ℚ) (step : WsStep) (s : Sessions) : Prop :=
  match step with
  | .connect client => ∀ other, Shares s.handler client other →
    (s.Rights other ↔ s.handler.mServerGrant = "0")
  | .text client message answer _ => ∀ grant, loginReply num message answer = some grant →
    (s.handler.mServerGrant = "0" → grant = "1") ∧
    ∀ other, Shares s.handler client other → (s.Rights other ↔ grant = "1")
  | .disconnect client => ∀ other, Shares s.handler client other → ¬s.Rights other
  | _ => True

/-- Whether something holds of all connections from the address is a matter of looking. -/
def decidableForallShares (w : WShandler) (client : QWebSocket) (P : QWebSocket → Prop)
    [DecidablePred P] : Decidable (∀ other, Shares w client other → P other) :=
  decidable_of_iff (∀ other ∈ w.m_clients, other ≠ client →
    other.peerAddress = client.peerAddress → P other)
    ⟨fun h other ho => h other ho.1 ho.2.1 ho.2.2, fun h other h₁ h₂ h₃ => h other ⟨h₁, h₂, h₃⟩⟩

instance (s : Sessions) (client : QWebSocket) : Decidable (s.Rights client) :=
  inferInstanceAs (Decidable (_ ∨ _))

instance (num : NumberFormat ℚ) (step : WsStep) (s : Sessions) : Decidable (step.Apart num s) :=
  match step with
  | .connect client => decidableForallShares s.handler client _
  | .text client message answer _ =>
    match h : loginReply num message answer with
    | none => isTrue fun grant hg => by simp [h] at hg
    | some grant =>
      have := decidableForallShares s.handler client fun other => s.Rights other ↔ grant = "1"
      decidable_of_iff ((s.handler.mServerGrant = "0" → grant = "1") ∧
        ∀ other, Shares s.handler client other → (s.Rights other ↔ grant = "1"))
        ⟨fun hP g hg => Option.some.inj (h.symm.trans hg) ▸ hP, fun hP => hP grant h⟩
  | .disconnect client => decidableForallShares s.handler client _
  | .moduleEvent _ _ _ | .controllerLov _ _ _ | .moduleLog _ _ _ _ | .controllerData _ _
  | .fileEvent _ _ | .pathEvent _ _ | .controllerLog _ _ _ _ => isTrue trivial

/-- The connection that a step is about. -/
def WsStep.client? : WsStep → Option QWebSocket
  | .connect client | .disconnect client | .text client _ _ _ => some client
  | _ => none

/-! ## What a step does to the grants -/

namespace WShandler

theorem grantOf_setGrant (w : WShandler) (client other : QWebSocket) (grant : String) :
    (w.setGrant client grant).grantOf other =
      if other.peerAddress = client.peerAddress then grant else w.grantOf other := by
  unfold grantOf setGrant
  rw [OrdMap.get?_insert]
  split <;> rfl

theorem grantOf_congr (w : WShandler) (client other : QWebSocket)
    (h : other.peerAddress = client.peerAddress) : w.grantOf other = w.grantOf client := by
  unfold grantOf
  rw [h]

theorem grantOf_granting (w : WShandler) (client other : QWebSocket) (grant : Option String) :
    (w.granting client grant).grantOf other =
      if other.peerAddress = client.peerAddress then grant.getD (w.grantOf client)
      else w.grantOf other := by
  cases grant with
  | some g => exact w.grantOf_setGrant client other g
  | none =>
    split
    · next h => exact w.grantOf_congr client other h
    · rfl

theorem granting_frame (w : WShandler) (client : QWebSocket) (grant : Option String) :
    (w.granting client grant).m_clients = w.m_clients ∧
    (w.granting client grant).mServerGrant = w.mServerGrant ∧
    ∀ address, (w.granting client grant).mClientGrants.contains address = true →
      address = client.peerAddress ∨ w.mClientGrants.contains address = true := by
  cases grant with
  | none => exact ⟨rfl, rfl, fun _ h => .inr h⟩
  | some g =>
    refine ⟨rfl, rfl, fun address h => ?_⟩
    obtain ⟨v, hv⟩ := (OrdMap.contains_iff _ _).mp h
    change (w.mClientGrants.insert client.peerAddress g).get? address = some v at hv
    rw [OrdMap.get?_insert] at hv
    split at hv
    · next heq => exact .inl heq
    · exact .inr ((OrdMap.contains_iff _ _).mpr ⟨v, hv⟩)

theorem onNewConnection_spec (w : WShandler) (client : QWebSocket) :
    (w.onNewConnection client).m_clients = w.m_clients ++ [client] ∧
    (w.onNewConnection client).mServerGrant = w.mServerGrant ∧
    (∀ address, (w.onNewConnection client).mClientGrants.contains address = true →
      address = client.peerAddress ∨ w.mClientGrants.contains address = true) ∧
    ∀ other, (w.onNewConnection client).grantOf other =
      if other.peerAddress = client.peerAddress then
        (firstGrant w.mServerGrant).getD (w.grantOf client)
      else w.grantOf other := by
  obtain ⟨hclients, hserver, hheld⟩ := granting_frame
    { w with m_clients := w.m_clients ++ [client] } client (firstGrant w.mServerGrant)
  exact ⟨hclients, hserver, hheld, fun other => grantOf_granting
    { w with m_clients := w.m_clients ++ [client] } client other _⟩

theorem socketDisconnected_spec (w : WShandler) (client : QWebSocket) :
    (∀ address, (w.socketDisconnected client).mClientGrants.contains address = true →
      address ≠ client.peerAddress ∧ w.mClientGrants.contains address = true) ∧
    ∀ other, (w.socketDisconnected client).grantOf other =
      if other.peerAddress = client.peerAddress then "" else w.grantOf other := by
  have hget : ∀ address, (w.socketDisconnected client).mClientGrants.get? address =
      if address = client.peerAddress then none else w.mClientGrants.get? address := fun address =>
    OrdMap.get?_erase _ _ _
  constructor
  · intro address h
    obtain ⟨v, hv⟩ := (OrdMap.contains_iff _ _).mp h
    rw [hget] at hv
    split at hv
    · cases hv
    · next hne => exact ⟨hne, (OrdMap.contains_iff _ _).mpr ⟨v, hv⟩⟩
  · intro other
    unfold grantOf
    rw [hget]
    split <;> rfl

/-- Whether the first grant of an address is full: the server's own, unless that is no level. -/
theorem firstGrant_eq_one_iff (serverGrant old : String)
    (hold : serverGrant ∉ ["0", "1", "2"] → old ≠ "1") :
    (firstGrant serverGrant).getD old = "1" ↔ serverGrant = "0" := by
  unfold firstGrant
  split
  · next h => simp [h]
  split
  · next h => simp [h]
  split
  · next h => simp [h]
  · next h0 h1 h2 =>
    have hne := hold (by simp [h0, h1, h2])
    simp [h0, hne]

/-- Two handlers that differ in the languages of the clients only. -/
structure SameGrants (w w' : WShandler) : Prop where
  clients : w'.m_clients = w.m_clients
  server : w'.mServerGrant = w.mServerGrant
  grants : w'.mClientGrants = w.mClientGrants

theorem sameGrants_setClientLanguage (w : WShandler) (client : QWebSocket) (language : String) :
    SameGrants w (w.setClientLanguage client language) := by
  unfold setClientLanguage
  split
  · exact ⟨rfl, rfl, rfl⟩
  · exact ⟨rfl, rfl, rfl⟩

theorem processLogin_st (w : WShandler) (client : QWebSocket) (event : ExtEvent)
    (answer : GrantsAnswer) (data : ServerData) :
    SameGrants (w.setGrant client
        (getGrants (QJsonValue.toStr ((Json.object event.data).field "user")) answer).1)
      (w.processLogin client event answer data).st := by
  unfold processLogin
  simp only
  split
  · exact sameGrants_setClientLanguage _ _ _
  · exact ⟨rfl, rfl, rfl⟩

theorem processDump_st (w : WShandler) (client : QWebSocket) (event : ExtEvent)
    (data : ServerData) : SameGrants w (w.processDump client event data).st := by
  unfold processDump
  simp only
  split
  · exact sameGrants_setClientLanguage _ _ _
  · exact ⟨rfl, rfl, rfl⟩

theorem processEvent_st (w : WShandler) (client : QWebSocket) (event : ExtEvent)
    (answer : GrantsAnswer) (data : ServerData) :
    SameGrants (w.granting client (eventReply event answer))
      (w.processEvent client event answer data).st := by
  have hnone : ¬(event.ev = .LO ∧ event.data.contains "user" = true ∧
      event.data.contains "pw" = true) → w.granting client (eventReply event answer) = w := by
    intro h
    unfold eventReply
    rw [if_neg h]
    rfl
  have hsame : SameGrants w w := ⟨rfl, rfl, rfl⟩
  by_cases hlogin : event.ev = .LO
  · have hprocess : w.processEvent client event answer data =
        if !event.data.contains "user" || !event.data.contains "pw" then
          .emit w (w.logToClient .Error "Invalid login data" [] "WS" client) ()
        else w.processLogin client event answer data := by
      unfold processEvent
      simp [hlogin]
    rw [hprocess]
    split
    · next hdata =>
      rw [hnone (by rintro ⟨-, hu, hp⟩; simp [hu, hp] at hdata)]
      exact hsame
    · next hdata =>
      have hreply : eventReply event answer = some
          (getGrants (QJsonValue.toStr ((Json.object event.data).field "user")) answer).1 :=
        if_pos ⟨hlogin, by simpa using hdata⟩
      rw [hreply]
      exact w.processLogin_st client event answer data
  · rw [hnone fun h => hlogin h.1]
    unfold processEvent
    rw [if_neg hlogin]
    split
    · exact hsame
    split
    · exact hsame
    split
    · split
      · exact hsame
      · exact sameGrants_setClientLanguage _ _ _
    split
    · exact w.processDump_st client event data
    · exact hsame

/-- The state that a text leaves: the grant of a log-in, and else what was there. -/
theorem processTextMessage_st (w : WShandler) (num : NumberFormat ℚ) (client : QWebSocket)
    (message : String) (answer : GrantsAnswer) (data : ServerData) :
    SameGrants ((w.setGrant client (w.grantOf client)).granting client
      (loginReply num message answer)) (w.processTextMessage num client message answer data).st := by
  unfold processTextMessage loginReply
  cases decode num message with
  | error e => exact ⟨rfl, rfl, rfl⟩
  | ok event => exact processEvent_st _ client event answer data

/-! ## What a text makes go out -/

/-- Nothing is forwarded: all that goes out goes to clients. -/
def Replies (evs : List WsOutput) : Prop := ∀ event, WsOutput.externalEvent event ∉ evs

theorem replies_cons_log (w : WShandler) (level : LogLevel) (message : String) (args : List String)
    (context : String) (client : QWebSocket) (evs : List WsOutput) (h : Replies evs) :
    Replies (w.logToClient level message args context client :: evs) := by
  intro event he
  rcases List.mem_cons.mp he with he | he
  · cases he
  · exact h event he

theorem replies_append (evs evs' : List WsOutput) (h : Replies evs) (h' : Replies evs') :
    Replies (evs ++ evs') := by
  intro event he
  rcases List.mem_append.mp he with he | he
  · exact h event he
  · exact h' event he

theorem replies_onLog (w : WShandler) (level : LogLevel) (message : String) (args : List String)
    (context : String) : Replies (w.onLog level message args context) := by
  intro event he
  obtain ⟨client, -, h⟩ := List.mem_map.mp he
  cases h

theorem replies_OnClientEvent (w : WShandler) (data : ServerData) (event : ExtEvent)
    (client : QWebSocket) (grant : String) : Replies (w.OnClientEvent data event client grant) := by
  intro event' he
  unfold OnClientEvent at he
  simp only at he
  split at he
  · cases List.mem_singleton.mp he
  · split at he
    · cases List.mem_singleton.mp he
    · cases he

theorem replies_processLogin (w : WShandler) (client : QWebSocket) (event : ExtEvent)
    (answer : GrantsAnswer) (data : ServerData) :
    Replies (w.processLogin client event answer data).evs := by
  unfold processLogin
  refine replies_append _ _ (replies_cons_log _ _ _ _ _ _ _ ?_) (replies_OnClientEvent _ _ _ _ _)
  intro event' he
  obtain ⟨e, -, he⟩ := List.mem_flatMap.mp he
  exact replies_onLog w .Error e.1 e.2 "DBManager" event' he

theorem replies_processDump (w : WShandler) (client : QWebSocket) (event : ExtEvent)
    (data : ServerData) : Replies (w.processDump client event data).evs := by
  unfold processDump
  simp only
  split
  · exact replies_cons_log _ _ _ _ _ _ _
      (replies_cons_log _ _ _ _ _ _ _ (replies_OnClientEvent _ _ _ _ _))
  · exact replies_cons_log _ _ _ _ _ _ _ (replies_OnClientEvent _ _ _ _ _)

end WShandler

/-- An event that is not about the client itself. -/
def ExtEvent.Updating (event : ExtEvent) : Prop := event.ev ∉ [.XX, .DU, .LO, .IL]

instance (event : ExtEvent) : Decidable event.Updating :=
  inferInstanceAs (Decidable (event.ev ∉ [.XX, .DU, .LO, .IL]))

namespace WShandler

/-- An event is forwarded if it updates and the grant of the address is full. -/
theorem processEvent_evs (w : WShandler) (client : QWebSocket) (event : ExtEvent)
    (answer : GrantsAnswer) (data : ServerData) :
    if event.Updating ∧ w.grantOf client = "1" then
      (w.processEvent client event answer data).evs = [.externalEvent event]
    else Replies (w.processEvent client event answer data).evs := by
  have hnil : Replies [] := fun _ h => (nomatch h)
  have hlog := fun (level : LogLevel) (text : String) (args : List String) =>
    replies_cons_log w level text args "WS" client [] hnil
  split
  · next h =>
    obtain ⟨hup, hgrant⟩ := h
    unfold ExtEvent.Updating at hup
    simp only [List.mem_cons, List.not_mem_nil, or_false, not_or] at hup
    unfold processEvent
    rw [if_neg hup.1, if_neg (fun h => h.1 hgrant), if_neg hup.2.2.1, if_neg hup.2.2.2,
      if_neg hup.2.1]
    rfl
  · next h =>
    unfold processEvent
    split
    · exact replies_OnClientEvent _ _ _ _ _
    split
    · exact hlog _ _ _
    split
    · split
      · exact hlog _ _ _
      · exact replies_processLogin _ _ _ _ _
    split
    · split
      · exact hlog _ _ _
      · exact replies_cons_log _ _ _ _ _ _ _ (replies_OnClientEvent _ _ _ _ _)
    split
    · exact replies_processDump _ _ _ _
    · next hxx hgrant hlo hil hdu =>
      refine absurd ⟨?_, ?_⟩ h
      · unfold ExtEvent.Updating
        simp [hxx, hlo, hil, hdu]
      · by_contra hne
        exact hgrant ⟨hne, hdu, hlo, hil⟩

/-- What goes out for a text that is an event. -/
theorem processTextMessage_evs (w : WShandler) (num : NumberFormat ℚ) (client : QWebSocket)
    (message : String) (answer : GrantsAnswer) (data : ServerData) (event : ExtEvent)
    (hev : decode num message = .ok event) :
    if event.Updating ∧ w.grantOf client = "1" then
      (w.processTextMessage num client message answer data).evs = [.externalEvent event]
    else Replies (w.processTextMessage num client message answer data).evs := by
  have h := processEvent_evs (w.setGrant client (w.grantOf client)) client event answer data
  rw [grantOf_setGrant, if_pos rfl] at h
  unfold processTextMessage
  simp only [hev]
  exact h

end WShandler

/-! ## Agreement, step by step -/

namespace Sessions

/-- A grant that is set, or dropped, for an address agrees with the rights afterwards if it does
for the connections from there; the others are not concerned. -/
theorem agrees_iff_of_address (s s' : Sessions) (client : QWebSocket) (grant : String)
    (h : s.Agrees) (hclients : ∀ other ∈ s'.handler.m_clients, other ≠ client →
      other ∈ s.handler.m_clients)
    (hgrant : ∀ other ∈ s'.handler.m_clients, s'.handler.grantOf other =
      if other.peerAddress = client.peerAddress then grant else s.handler.grantOf other)
    (hrights : ∀ other ∈ s'.handler.m_clients, other ≠ client →
      (s'.Rights other ↔ s.Rights other)) :
    s'.Agrees ↔ (client ∈ s'.handler.m_clients → (grant = "1" ↔ s'.Rights client)) ∧
      ∀ other ∈ s'.handler.m_clients, other ≠ client → other.peerAddress = client.peerAddress →
        (s.Rights other ↔ grant = "1") := by
  constructor
  · intro h'
    refine ⟨fun hc => ?_, fun other ho hne haddr => ?_⟩
    · rw [← h' client hc, hgrant client hc, if_pos rfl]
    · rw [← hrights other ho hne, ← h' other ho, hgrant other ho, if_pos haddr]
  · rintro ⟨hclient, hothers⟩ other ho
    rw [hgrant other ho]
    by_cases hne : other = client
    · subst hne
      rw [if_pos rfl]
      exact hclient ho
    · rw [hrights other ho hne]
      split
      · next haddr => exact (hothers other ho hne haddr).symm
      · exact h other (hclients other ho hne)

theorem agrees_connect_iff (client : QWebSocket) (s s' : Sessions) (hs : s.Connected)
    (h : s.Agrees) (hnew : client.id ∉ s.handler.m_clients.map QWebSocket.id)
    (hst : s'.handler = s.handler.onNewConnection client)
    (hreply : s'.lastReply = s.lastReply.erase client.id) :
    s'.Connected ∧ (s'.Agrees ↔
      ∀ other, Shares s.handler client other → (s.Rights other ↔ s.handler.mServerGrant = "0")) := by
  obtain ⟨hclients, hserver, hheld, hgrant⟩ := s.handler.onNewConnection_spec client
  rw [← hst] at hclients hserver hheld hgrant
  have hid : ∀ other ∈ s.handler.m_clients, other.id ≠ client.id := fun other ho heq =>
    hnew (heq ▸ List.mem_map_of_mem ho)
  have hmem : ∀ other ∈ s'.handler.m_clients, other ≠ client → other ∈ s.handler.m_clients := by
    intro other ho hne
    rw [hclients, List.mem_append, List.mem_singleton] at ho
    exact ho.resolve_right hne
  have hclient : client ∈ s'.handler.m_clients := by
    rw [hclients]
    exact List.mem_append_right _ (List.mem_singleton.mpr rfl)
  have hrights : ∀ other ∈ s'.handler.m_clients, other ≠ client →
      (s'.Rights other ↔ s.Rights other) := by
    intro other ho hne
    unfold Rights
    rw [hserver, hreply, OrdMap.get?_erase, if_neg (hid other (hmem other ho hne))]
  have hown : s'.Rights client ↔ s.handler.mServerGrant = "0" := by
    unfold Rights
    rw [hserver, hreply, OrdMap.get?_erase, if_pos rfl]
    simp
  constructor
  · constructor
    · rw [hclients, List.map_append, List.map_singleton]
      exact List.nodup_append.mpr ⟨hs.ids, List.nodup_singleton _, fun a ha b hb heq =>
        hnew (List.mem_singleton.mp hb ▸ heq ▸ ha)⟩
    · intro address haddr
      rcases hheld address haddr with heq | hold
      · exact ⟨client, hclient, heq.symm⟩
      · obtain ⟨other, ho, heq⟩ := hs.held address hold
        exact ⟨other, hclients ▸ List.mem_append_left _ ho, heq⟩
  · rw [agrees_iff_of_address s s' client _ h hmem (fun other _ => hgrant other) hrights, hown]
    constructor
    · rintro ⟨hc, hothers⟩ other ⟨ho, hne, haddr⟩
      rw [hothers other (hclients ▸ List.mem_append_left _ ho) hne haddr]
      exact hc hclient
    · intro hap
      have hfirst := WShandler.firstGrant_eq_one_iff s.handler.mServerGrant
        (s.handler.grantOf client) (by
          intro hlevel hone
          -- a grant that is there already is that of another connection from the address
          have hcon : s.handler.mClientGrants.contains client.peerAddress = true := by
            rw [OrdMap.contains_iff]
            unfold WShandler.grantOf at hone
            cases hget : s.handler.mClientGrants.get? client.peerAddress with
            | none =>
              rw [hget] at hone
              exact absurd hone (by decide)
            | some v => exact ⟨v, rfl⟩
          obtain ⟨other, ho, haddr⟩ := hs.held _ hcon
          have hne : other ≠ client := fun heq => hid other ho (heq ▸ rfl)
          rw [← s.handler.grantOf_congr client other haddr, h other ho,
            hap other ⟨ho, hne, haddr⟩] at hone
          exact hlevel (by simp [hone]))
      exact ⟨fun _ => hfirst, fun other ho hne haddr =>
        (hap other ⟨hmem other ho hne, hne, haddr⟩).trans hfirst.symm⟩

theorem agrees_disconnect_iff (client : QWebSocket) (s s' : Sessions) (hs : s.Connected)
    (h : s.Agrees) (hst : s'.handler = s.handler.socketDisconnected client)
    (hreply : s'.lastReply = s.lastReply) :
    s'.Connected ∧ (s'.Agrees ↔ ∀ other, Shares s.handler client other → ¬s.Rights other) := by
  obtain ⟨hheld, hgrant⟩ := s.handler.socketDisconnected_spec client
  have hclients : s'.handler.m_clients = s.handler.m_clients.filter (· ≠ client) := by
    rw [hst]
    rfl
  have hserver : s'.handler.mServerGrant = s.handler.mServerGrant := by
    rw [hst]
    rfl
  rw [← hst] at hheld hgrant
  have hmem : ∀ other, other ∈ s'.handler.m_clients ↔
      other ∈ s.handler.m_clients ∧ other ≠ client := by
    intro other
    rw [hclients, List.mem_filter, decide_eq_true_eq]
  have hrights : ∀ other, s'.Rights other ↔ s.Rights other := by
    intro other
    unfold Rights
    rw [hserver, hreply]
  constructor
  · constructor
    · rw [hclients]
      exact hs.ids.sublist (List.filter_sublist.map _)
    · intro address haddr
      obtain ⟨hne, hold⟩ := hheld address haddr
      obtain ⟨other, ho, heq⟩ := hs.held address hold
      exact ⟨other, (hmem other).mpr ⟨ho, fun hc => hne (by rw [← heq, hc])⟩, heq⟩
  · rw [agrees_iff_of_address s s' client "" h (fun other ho _ => ((hmem other).mp ho).1)
      (fun other _ => hgrant other) (fun other _ _ => hrights other)]
    constructor
    · rintro ⟨-, hothers⟩ other ⟨ho, hne, haddr⟩ hr
      exact absurd ((hothers other ((hmem other).mpr ⟨ho, hne⟩) hne haddr).mp hr) (by decide)
    · intro hap
      refine ⟨fun hc => absurd rfl ((hmem client).mp hc).2, fun other ho hne haddr => ?_⟩
      have hno := hap other ⟨((hmem other).mp ho).1, hne, haddr⟩
      exact ⟨fun hr => absurd hr hno, fun heq => absurd heq (by decide)⟩

theorem agrees_text_iff (client : QWebSocket) (reply : Option String) (s s' : Sessions)
    (hs : s.Connected) (h : s.Agrees) (hc : client ∈ s.handler.m_clients)
    (hst : WShandler.SameGrants
      ((s.handler.setGrant client (s.handler.grantOf client)).granting client reply) s'.handler)
    (hreply : s'.lastReply = told s.lastReply client reply) :
    s'.Connected ∧ (s'.Agrees ↔ ∀ grant, reply = some grant →
      (s.handler.mServerGrant = "0" → grant = "1") ∧
      ∀ other, Shares s.handler client other → (s.Rights other ↔ grant = "1")) := by
  obtain ⟨hclients₁, hserver₁, hheld₁⟩ := WShandler.granting_frame s.handler client
    (some (s.handler.grantOf client))
  obtain ⟨hclients₂, hserver₂, hheld₂⟩ := WShandler.granting_frame
    (s.handler.setGrant client (s.handler.grantOf client)) client reply
  have hclients : s'.handler.m_clients = s.handler.m_clients :=
    hst.clients.trans (hclients₂.trans hclients₁)
  have hserver : s'.handler.mServerGrant = s.handler.mServerGrant :=
    hst.server.trans (hserver₂.trans hserver₁)
  have hgrant : ∀ other, s'.handler.grantOf other =
      if other.peerAddress = client.peerAddress then reply.getD (s.handler.grantOf client)
      else s.handler.grantOf other := by
    intro other
    have hsame : s'.handler.grantOf other =
        ((s.handler.setGrant client (s.handler.grantOf client)).granting client reply).grantOf
          other := by
      show (s'.handler.mClientGrants.get? other.peerAddress).getD "" = _
      rw [hst.grants]
      rfl
    rw [hsame, WShandler.grantOf_granting, WShandler.grantOf_setGrant, WShandler.grantOf_setGrant,
      if_pos rfl]
    split <;> rfl
  constructor
  · refine ⟨hclients ▸ hs.ids, fun address haddr => ?_⟩
    rw [hst.grants] at haddr
    rw [hclients]
    rcases hheld₂ address haddr with heq | h₁
    · exact ⟨client, hc, heq.symm⟩
    · rcases hheld₁ address h₁ with heq | h₀
      · exact ⟨client, hc, heq.symm⟩
      · exact hs.held address h₀
  cases reply with
  | none =>
    -- nothing has changed
    refine ⟨fun _ _ h => (nomatch h), fun _ other ho => ?_⟩
    have hsame : s'.handler.grantOf other = s.handler.grantOf other := by
      rw [hgrant other]
      split
      · next haddr => exact (s.handler.grantOf_congr client other haddr).symm
      · rfl
    have hrights : s'.Rights other ↔ s.Rights other := by
      unfold Rights
      rw [hserver, hreply]
      rfl
    rw [hsame, hrights]
    exact h other (hclients ▸ ho)
  | some grant =>
    have hrights : ∀ other ∈ s'.handler.m_clients, other ≠ client →
        (s'.Rights other ↔ s.Rights other) := by
      intro other ho hne
      have hid : other.id ≠ client.id := fun heq =>
        hne (List.inj_on_of_nodup_map hs.ids (hclients ▸ ho) hc heq)
      unfold Rights
      rw [hserver, hreply, told, OrdMap.get?_insert_of_ne _ _ _ _ hid]
    have hown : s'.Rights client ↔ s.handler.mServerGrant = "0" ∨ grant = "1" := by
      unfold Rights
      rw [hserver, hreply, told, OrdMap.get?_insert_self, Option.some.injEq]
    rw [agrees_iff_of_address s s' client grant h (fun other ho _ => hclients ▸ ho)
      (fun other _ => hgrant other) hrights, hown, hclients]
    constructor
    · rintro ⟨hclient, hothers⟩ g hg
      obtain rfl : grant = g := Option.some.inj hg
      exact ⟨fun h0 => (hclient hc).mpr (.inl h0), fun other ⟨ho, hne, haddr⟩ =>
        hothers other ho hne haddr⟩
    · intro hap
      obtain ⟨hfull, hothers⟩ := hap grant rfl
      refine ⟨fun _ => ⟨.inr, ?_⟩, fun other ho hne haddr => hothers other ⟨ho, hne, haddr⟩⟩
      rintro (h0 | h1)
      · exact hfull h0
      · exact h1

/-- **A step keeps the grants in agreement exactly if it is apart.** -/
theorem agrees_step_iff (num : NumberFormat ℚ) (st : WsStep) (s : Sessions)
    (z : Emits Sessions WsOutput Unit) (hs : s.Connected) (h : s.Agrees)
    (hz : step num st s = some z) : z.st.Connected ∧ (z.st.Agrees ↔ st.Apart num s) := by
  obtain ⟨x, hx, rfl⟩ := Option.map_eq_some_iff.mp hz
  cases st with
  | connect client =>
    unfold WsStep.run at hx
    simp only at hx
    split at hx
    · cases hx
    · next hnew =>
      cases hx
      exact agrees_connect_iff client s _ hs h hnew rfl rfl
  | text client message answer data =>
    unfold WsStep.run at hx
    simp only at hx
    split at hx
    · next hc =>
      cases hx
      exact agrees_text_iff client (loginReply num message answer) s _ hs h hc
        (s.handler.processTextMessage_st num client message answer data) rfl
    · cases hx
  | disconnect client =>
    unfold WsStep.run at hx
    simp only at hx
    split at hx
    · cases hx
      exact agrees_disconnect_iff client s _ hs h rfl rfl
    · cases hx
  | _ =>
    cases hx
    exact ⟨hs, fun _ => trivial, fun _ => h⟩

/-- Along a run of steps that are apart the grants agree. -/
theorem agrees_run (num : NumberFormat ℚ) (run : List WsStep) (s : Sessions)
    (z : Emits Sessions WsOutput Unit) (hs : s.Connected) (h : s.Agrees)
    (hz : Emits.run (step num) run s = some z)
    (hrun : Emits.RunMeets (step num) (WsStep.Apart num) run s) :
    z.st.Connected ∧ z.st.Agrees := by
  induction run generalizing s z with
  | nil =>
    cases hz
    exact ⟨hs, h⟩
  | cons st run ih =>
    obtain ⟨x, y, hx, hy, rfl⟩ := Emits.run_cons_eq_some _ st run s z hz
    obtain ⟨hs', hagree⟩ := agrees_step_iff num st s x hs h hx
    exact ih x.st y hs' (hagree.mpr hrun.1) hy (hrun.2 x hx)

/-- The rights of a connection are its own. -/
theorem rights_step_iff (num : NumberFormat ℚ) (st : WsStep) (s : Sessions)
    (z : Emits Sessions WsOutput Unit) (hs : s.Connected) (hz : step num st s = some z)
    (client : QWebSocket) (hc : client ∈ s.handler.m_clients) (hne : st.client? ≠ some client) :
    z.st.Rights client ↔ s.Rights client := by
  obtain ⟨x, hx, rfl⟩ := Option.map_eq_some_iff.mp hz
  have hof : ∀ (hserver : x.st.mServerGrant = s.handler.mServerGrant)
      (_ : (record num st s.lastReply).get? client.id = s.lastReply.get? client.id),
      Rights ⟨x.st, record num st s.lastReply⟩ client ↔ s.Rights client := by
    intro hserver hreply
    unfold Rights
    simp only [hserver, hreply]
  cases st with
  | connect other =>
    unfold WsStep.run at hx
    simp only at hx
    split at hx
    · cases hx
    · next hnew =>
      cases hx
      obtain ⟨-, hserver, -⟩ := s.handler.onNewConnection_spec other
      have hid : client.id ≠ other.id := fun heq => hnew (heq ▸ List.mem_map_of_mem hc)
      refine hof hserver ?_
      show (s.lastReply.erase other.id).get? client.id = _
      rw [OrdMap.get?_erase, if_neg hid]
  | text other message answer data =>
    unfold WsStep.run at hx
    simp only at hx
    split at hx
    · next ho =>
      cases hx
      have hst := s.handler.processTextMessage_st num other message answer data
      obtain ⟨-, hserver, -⟩ := WShandler.granting_frame
        (s.handler.setGrant other (s.handler.grantOf other)) other (loginReply num message answer)
      have hid : client.id ≠ other.id := fun heq =>
        hne (congrArg some (List.inj_on_of_nodup_map hs.ids hc ho heq).symm)
      refine hof (hst.server.trans hserver) ?_
      show (told s.lastReply other (loginReply num message answer)).get? client.id = _
      cases loginReply num message answer with
      | none => rfl
      | some grant => exact OrdMap.get?_insert_of_ne _ _ _ _ hid
    · cases hx
  | disconnect other =>
    unfold WsStep.run at hx
    simp only at hx
    split at hx
    · cases hx
      exact hof rfl rfl
    · cases hx
  | _ =>
    cases hx
    exact hof rfl rfl

theorem connected_start (grant lng : String) : (start grant lng).Connected :=
  ⟨List.nodup_nil, fun _ h => absurd h (by simp [start, WShandler.start, OrdMap.contains])⟩

end Sessions

/-- **Updates are forwarded for those who have the right**, and what others do changes nothing
for a connection, along every run whose steps are apart. -/
theorem forwarded_iff_rights (num : NumberFormat ℚ) (grant lng : String) (run : List WsStep)
    (z : Emits Sessions WsOutput Unit)
    (hz : Emits.run (Sessions.step num) run (.start grant lng) = some z)
    (hrun : Emits.RunMeets (Sessions.step num) (WsStep.Apart num) run (.start grant lng))
    (client : QWebSocket) (hc : client ∈ z.st.handler.m_clients) :
    (∀ message answer data event x, decode num message = .ok event → event.Updating →
      (WsStep.text client message answer data).run num z.st.handler = some x →
      (z.st.Rights client ∧ x.evs = [.externalEvent event] ∨
        ¬z.st.Rights client ∧ WShandler.Replies x.evs)) ∧
    ∀ st y, Sessions.step num st z.st = some y → st.Apart num z.st → st.client? ≠ some client →
      client ∈ y.st.handler.m_clients →
      (y.st.handler.grantOf client = "1" ↔ z.st.handler.grantOf client = "1") := by
  obtain ⟨hs, hagrees⟩ := Sessions.agrees_run num run (.start grant lng) z
    (Sessions.connected_start grant lng) (fun _ h => (nomatch h)) hz hrun
  constructor
  · intro message answer data event x hev hup hx
    unfold WsStep.run at hx
    simp only [if_pos hc] at hx
    cases hx
    have hevs := z.st.handler.processTextMessage_evs num client message answer data event hev
    by_cases hr : z.st.Rights client
    · rw [if_pos ⟨hup, (hagrees client hc).mpr hr⟩] at hevs
      exact .inl ⟨hr, hevs⟩
    · rw [if_neg fun h => hr ((hagrees client hc).mp h.2)] at hevs
      exact .inr ⟨hr, hevs⟩
  · intro st y hy hap hne hcy
    obtain ⟨-, hagrees'⟩ := Sessions.agrees_step_iff num st z.st y hs hagrees hy
    rw [hagrees'.mpr hap client hcy, hagrees client hc]
    exact Sessions.rights_step_iff num st z.st y hs hy client hc hne

/-! ## Two connections -/

def sampleData : ServerData where
  grant := "1"
  mFoldersList := []
  mFilesList := []
  mSelectedFolder := ""
  modules := []
  logs _ := .arr []
  lng := "en"
  mControllerData := .empty
  lovs := .empty

/-- A client of a given number at an address. -/
def socket (id : ℕ) (peerAddress : String) : QWebSocket := ⟨id, peerAddress⟩

/-- A log-in that the database answers with a grant. -/
def loginStep (client : QWebSocket) (value : String) : WsStep :=
  .text client "\x7b\"LO\":\x7b\"user\":\"ADMIN\",\"pw\":\"admin\"\x7d\x7d" { value := value } sampleData

/-- A command to start the INDI server. -/
def startIndi : String := "\x7b\"YA\":\x7b\x7d\x7d"

/-- Whether a command is forwarded after a run, and whether its sender has the right. -/
def forwardsAfter (grant : String) (run : List WsStep) (client : QWebSocket) :
    Option (Bool × Bool) :=
  (Emits.run (Sessions.step integers) run (.start grant "en")).bind fun z =>
    ((WsStep.text client startIndi { value := "" } sampleData).run integers z.st.handler).map
      fun x => (x.evs.any fun e => match e with
        | .externalEvent _ => true
        | .send _ _ => false, decide (z.st.Rights client))

/-- Two clients at two addresses, one of them logged in. -/
def sampleLogins : List WsStep :=
  [.connect (socket 1 "10.0.0.7"), .connect (socket 2 "10.0.0.8"),
    loginStep (socket 1 "10.0.0.7") "1"]

theorem forwarded_iff_rights_sample :
    ∃ z, Emits.run (Sessions.step integers) sampleLogins (.start "1" "en") = some z ∧
      ∀ message answer data event x, decode integers message = .ok event → event.Updating →
        (WsStep.text (socket 2 "10.0.0.8") message answer data).run integers z.st.handler =
          some x →
        (z.st.Rights (socket 2 "10.0.0.8") ∧ x.evs = [.externalEvent event] ∨
          ¬z.st.Rights (socket 2 "10.0.0.8") ∧ WShandler.Replies x.evs) := by
  have hrun : ((Emits.run (Sessions.step integers) sampleLogins (.start "1" "en")).map fun z =>
      decide (socket 2 "10.0.0.8" ∈ z.st.handler.m_clients)) = some true := by decide +kernel
  obtain ⟨z, hz, hc⟩ := Option.map_eq_some_iff.mp hrun
  exact ⟨z, hz, (forwarded_iff_rights integers "1" "en" sampleLogins z hz (by decide +kernel)
    (socket 2 "10.0.0.8") (of_decide_eq_true hc)).1⟩

/-- A log-in makes way for a command of another connection from the address; a connection takes
the right from one that had it; a failed log-in takes what the server grants to all. -/
theorem forwarded_not_rights :
    forwardsAfter "1" [.connect (socket 1 "10.0.0.7"), .connect (socket 2 "10.0.0.7"),
      loginStep (socket 1 "10.0.0.7") "1"] (socket 2 "10.0.0.7") = some (true, false) ∧
    forwardsAfter "1" [.connect (socket 1 "10.0.0.7"), loginStep (socket 1 "10.0.0.7") "1",
      .connect (socket 2 "10.0.0.7")] (socket 1 "10.0.0.7") = some (false, true) ∧
    forwardsAfter "0" [.connect (socket 1 "10.0.0.7"), loginStep (socket 1 "10.0.0.7") ""]
      (socket 1 "10.0.0.7") = some (false, true) := by
  decide +kernel

end Ost
