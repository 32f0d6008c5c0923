import Soms.Chat.Server

/-!
# Channels are private to their members

When the requests of users for channels stay within the channels they are in.
-/

namespace Soms.Chat

open Txn

/-! ## What a user may see -/

/-- A channel has the same messages and marks in both servers. -/
structure SameChannel (c : ChannelId) (s t : Server) : Prop where
  content : SameContent c s.store t.store
  lastRead : t.lastRead c = s.lastRead c
  lastMsg : t.lastMsg c = s.lastMsg c

/-- The servers differ at most in the content of channels that the user is not in. -/
structure Alike (uid : UserId) (s s' : Server) : Prop where
  channels : s'.channels = s.channels
  connected : s'.connected = s.connected
  channelRows : s'.channelRows = s.channelRows
  users : s'.users = s.users
  joined : ∀ c, s.Member c uid → SameChannel c s s'
  sent : s'.sent uid = s.sent uid

/-- The request is served to members only, and neither its answer nor what it does
depends on a channel that the user is not in. -/
structure Private (s : Server) (uid : UserId) (r : Request) : Prop where
  member : ∀ a t, serve uid r s = (.ok a, t) →
    ∃ c row, s.channelOf r.ref = some (c, row) ∧ s.Member c uid
  answer : ∀ s', Alike uid s s' → (serve uid r s').1 = (serve uid r s).1
  effect : ∀ s', Alike uid s s' →
    Alike uid (s.after (.request uid r)) (s'.after (.request uid r))
  others : ∀ c, ¬ s.Member c uid → SameChannel c s (s.after (.request uid r))

/-! ## What a request does -/

/-- The checks besides that of the membership. -/
def Server.Accepts (s : Server) (uid : UserId) (row : ChatChannel) : Request → Prop
  | .send .. => s.restricted uid = false ∧ ¬ (row.name = "#announce" ∧ uid ≠ BANCHOBOT_ID)
  | _ => True

/-- The answer for a channel, and the server after it. -/
def Server.respond (s : Server) (uid : UserId) (c : ChannelId) (row : ChatChannel) :
    Request → Response × Server
  | .send _ content isAction uuid id now =>
    let m : ChatMessage := ⟨id, c, uid, content, now, isAction, uuid.filter (· ≠ "")⟩
    (.message m, { s with store := s.store.storeToRedis m }.sendMessageToChannel m
      (content.startsWith "!" && row.type == ChannelType.PUBLIC))
  | .get _ limit since faults =>
    (.messages (chronological (s.store.getMessages (fun uid => (s.users uid).isSome) faults c
      limit since)), s)
  | .markAsRead _ message => (.noContent, s.markAsRead c uid message)

variable {s s' t : Server} {uid : UserId} {r : Request} {c : ChannelId} {row : ChatChannel}

/-- The membership check never refuses. -/
theorem bind_requireMember {α : Type} {f : Unit → Act α} :
    (requireMember uid c >>= f) s = f () s :=
  bind_refuse_of_not (by simp [Coroutine.isFalse])

/-- A request that passes the other checks is served, whoever is in the channel. -/
theorem serve_accepted (hc : s.channelOf r.ref = some (c, row)) (haccepts : s.Accepts uid row r) :
    serve uid r s = (.ok (s.respond uid c row r).1, (s.respond uid c row r).2) := by
  cases r with
  | send ref content isAction uuid id now =>
    obtain ⟨hfree, hname⟩ := haccepts
    have hopen : ¬ s.restricted uid = true := by simp [hfree]
    refine (bind_refuse_of_not (s := s) (p := fun s => s.restricted uid = true) hopen).trans ?_
    refine (bind_require_of_some (g := fun s => Server.channelOf s ref) hc).trans ?_
    refine (bind_refuse_of_not (s := s)
      (p := fun _ => row.name = "#announce" ∧ uid ≠ BANCHOBOT_ID) hname).trans ?_
    exact bind_requireMember
  | get ref limit since faults =>
    refine (bind_require_of_some (g := fun s => Server.channelOf s ref) hc).trans ?_
    exact bind_requireMember
  | markAsRead ref message =>
    refine (bind_require_of_some (g := fun s => Server.channelOf s ref) hc).trans ?_
    exact bind_requireMember

/-- The error of a request that is refused. -/
def Server.refusal (s : Server) (uid : UserId) : Request → ErrorType
  | .send ref .. =>
    if s.restricted uid = true ∨ (s.channelOf ref).isSome then .messagingRestricted
    else .channelNotFound
  | _ => .channelNotFound

theorem serve_refused
    (hno : ∀ c row, s.channelOf r.ref = some (c, row) → ¬ s.Accepts uid row r) :
    serve uid r s = (.error (s.refusal uid r), s) := by
  cases r with
  | send ref content isAction uuid id now =>
    by_cases hfree : s.restricted uid = true
    · refine (bind_refuse_of (s := s) (p := fun s => s.restricted uid = true) hfree).trans ?_
      simp [Server.refusal, hfree]
    · refine (bind_refuse_of_not (s := s) (p := fun s => s.restricted uid = true) hfree).trans ?_
      cases hc : s.channelOf ref with
      | none =>
        refine (bind_require_of_none (g := fun s => Server.channelOf s ref) hc).trans ?_
        simp [Server.refusal, hfree, hc]
      | some x =>
        have hname : x.2.name = "#announce" ∧ uid ≠ BANCHOBOT_ID := by
          have hno := hno x.1 x.2 hc
          simpa [Server.Accepts, hfree] using hno
        refine (bind_require_of_some (g := fun s => Server.channelOf s ref) hc).trans ?_
        refine (bind_refuse_of (s := s)
          (p := fun _ => x.2.name = "#announce" ∧ uid ≠ BANCHOBOT_ID) hname).trans ?_
        simp [Server.refusal, hc]
  | get ref limit since faults =>
    have hc : s.channelOf ref = none :=
      Option.eq_none_iff_forall_ne_some.mpr fun x hx => hno x.1 x.2 hx trivial
    exact bind_require_of_none (g := fun s => Server.channelOf s ref) hc
  | markAsRead ref message =>
    have hc : s.channelOf ref = none :=
      Option.eq_none_iff_forall_ne_some.mpr fun x hx => hno x.1 x.2 hx trivial
    exact bind_require_of_none (g := fun s => Server.channelOf s ref) hc

/-! ## Requests of members -/

theorem SameChannel.refl (c : ChannelId) (s : Server) : SameChannel c s s := ⟨.refl .., rfl, rfl⟩

theorem SameChannel.trans {c : ChannelId} {s t u : Server} (h : SameChannel c s t)
    (h' : SameChannel c t u) : SameChannel c s u where
  content := ⟨h'.content.entry.trans h.content.entry, h'.content.recent.trans h.content.recent,
    h'.content.rows.trans h.content.rows⟩
  lastRead := h'.lastRead.trans h.lastRead
  lastMsg := h'.lastMsg.trans h.lastMsg

theorem Alike.member (h : Alike uid s s') (c : ChannelId) (u : UserId) :
    s'.Member c u ↔ s.Member c u := by
  unfold Server.Member Server.members
  rw [h.channels]

theorem Alike.channelOf (h : Alike uid s s') (ref : ChannelRef) :
    s'.channelOf ref = s.channelOf ref := by
  cases ref <;> simp only [Server.channelOf, Server.findName, h.channelRows]

theorem Alike.restricted (h : Alike uid s s') : s'.restricted = s.restricted := by
  funext u
  simp only [Server.restricted, h.users]

theorem Alike.accepts (h : Alike uid s s') (row : ChatChannel) (r : Request) :
    s'.Accepts uid row r ↔ s.Accepts uid row r := by
  cases r <;> simp only [Server.Accepts, h.restricted]

theorem Alike.markAsRead (h : Alike uid s s') (hin : s.Member c uid) (message : MessageId) :
    Alike uid (s.markAsRead c uid message) (s'.markAsRead c uid message) where
  channels := h.channels
  connected := h.connected
  channelRows := h.channelRows
  users := h.users
  joined c' hc' :=
    { content := (h.joined c' hc').content
      lastRead := update_congr (h.joined c' hc').lastRead fun _ => by rw [(h.joined c hin).lastRead]
      lastMsg := (h.joined c' hc').lastMsg }
  sent := h.sent

theorem Alike.store (h : Alike uid s s') (m : ChatMessage) :
    Alike uid { s with store := s.store.storeToRedis m }
      { s' with store := s'.store.storeToRedis m } where
  channels := h.channels
  connected := h.connected
  channelRows := h.channelRows
  users := h.users
  joined c' hc' :=
    { content := (h.joined c' hc').content.storeToRedis m
      lastRead := (h.joined c' hc').lastRead
      lastMsg := (h.joined c' hc').lastMsg }
  sent := h.sent

theorem Alike.sendEvent (h : Alike uid s s') (uids : List UserId) (m : ChatMessage) :
    Alike uid (s.sendEvent uids m) (s'.sendEvent uids m) where
  channels := h.channels
  connected := h.connected
  channelRows := h.channelRows
  users := h.users
  joined c' hc' := ⟨(h.joined c' hc').content, (h.joined c' hc').lastRead, (h.joined c' hc').lastMsg⟩
  sent := by simp only [Server.sendEvent, h.connected, h.sent]

theorem Alike.lastMsg (h : Alike uid s s') (c : ChannelId) (id : MessageId) :
    Alike uid { s with lastMsg := Function.update s.lastMsg c (some id) }
      { s' with lastMsg := Function.update s'.lastMsg c (some id) } where
  channels := h.channels
  connected := h.connected
  channelRows := h.channelRows
  users := h.users
  joined c' hc' :=
    { content := (h.joined c' hc').content
      lastRead := (h.joined c' hc').lastRead
      lastMsg := update_congr (h.joined c' hc').lastMsg fun _ => rfl }
  sent := h.sent

theorem Alike.sendMessageToChannel (h : Alike uid s s') {m : ChatMessage} (hsender : m.senderId = uid)
    (hin : s.Member m.channelId uid) (isBotCommand : Bool) :
    Alike uid (s.sendMessageToChannel m isBotCommand) (s'.sendMessageToChannel m isBotCommand) := by
  have hmembers : s'.members m.channelId = s.members m.channelId := by
    unfold Server.members
    rw [h.channels]
  have hevent := h.sendEvent (if isBotCommand then [m.senderId] else s.members m.channelId) m
  unfold Server.sendMessageToChannel
  dsimp only
  rw [hmembers]
  split
  · rw [hsender] at hevent ⊢
    exact (hevent.markAsRead hin m.messageId).lastMsg ..
  · exact hevent

/-- A message for one channel leaves the others alone. -/
theorem sameChannel_sendMessageToChannel {m : ChatMessage} (hne : c ≠ m.channelId)
    (isBotCommand : Bool) : SameChannel c s (s.sendMessageToChannel m isBotCommand) := by
  unfold Server.sendMessageToChannel
  dsimp only
  split
  · exact ⟨.refl .., Function.update_of_ne hne .., Function.update_of_ne hne ..⟩
  · exact ⟨.refl .., rfl, rfl⟩

/-- The answer to a member does not depend on other channels. -/
theorem Alike.answer (h : Alike uid s s') (hin : s.Member c uid) (row : ChatChannel) (r : Request) :
    (s'.respond uid c row r).1 = (s.respond uid c row r).1 := by
  cases r with
  | send | markAsRead => rfl
  | get ref limit since faults =>
    simp only [Server.respond, h.users, (h.joined c hin).content.getMessages]

theorem Alike.effect (h : Alike uid s s') (hin : s.Member c uid) (row : ChatChannel) (r : Request) :
    Alike uid (s.respond uid c row r).2 (s'.respond uid c row r).2 := by
  cases r with
  | send ref content isAction uuid id now =>
    let m : ChatMessage := ⟨id, c, uid, content, now, isAction, uuid.filter (· ≠ "")⟩
    have hin : Server.Member { s with store := s.store.storeToRedis m } m.channelId uid := hin
    exact (h.store m).sendMessageToChannel rfl hin _
  | get ref limit since faults => exact h
  | markAsRead ref message => exact h.markAsRead hin message

theorem sameChannel_respond {c' : ChannelId} (hne : c' ≠ c) (row : ChatChannel) (r : Request) :
    SameChannel c' s (s.respond uid c row r).2 := by
  cases r with
  | send ref content isAction uuid id now =>
    let m : ChatMessage := ⟨id, c, uid, content, now, isAction, uuid.filter (· ≠ "")⟩
    have hstored : SameChannel c' s { s with store := s.store.storeToRedis m } :=
      ⟨.storeToRedis_of_ne s.store hne, rfl, rfl⟩
    exact hstored.trans (sameChannel_sendMessageToChannel hne _)
  | get ref limit since faults => exact .refl ..
  | markAsRead ref message => exact ⟨.refl .., Function.update_of_ne hne .., rfl⟩

theorem after_accepted (hc : s.channelOf r.ref = some (c, row)) (haccepts : s.Accepts uid row r) :
    s.after (.request uid r) = (s.respond uid c row r).2 :=
  commit_eq (serve_accepted hc haccepts)

theorem after_refused (hno : ∀ c row, s.channelOf r.ref = some (c, row) → ¬ s.Accepts uid row r) :
    s.after (.request uid r) = s :=
  commit_error (congrArg Prod.fst (serve_refused hno))

/-- The request is for a channel that the user is in, or is refused for another reason. -/
def Entitled (s : Server) (uid : UserId) (r : Request) : Prop :=
  ∀ c row, s.channelOf r.ref = some (c, row) → s.Accepts uid row r → s.Member c uid

/-- **One request** is private exactly if it is for a channel that the user is in. -/
theorem private_iff : Private s uid r ↔ Entitled s uid r := by
  constructor
  · intro hprivate c row hc haccepts
    obtain ⟨c', row', hc', hin⟩ := hprivate.member _ _ (serve_accepted hc haccepts)
    obtain ⟨rfl, -⟩ := Prod.mk.inj (Option.some.inj (hc'.symm.trans hc))
    exact hin
  · intro hentitled
    by_cases hserved : ∃ c row, s.channelOf r.ref = some (c, row) ∧ s.Accepts uid row r
    · obtain ⟨c, row, hc, haccepts⟩ := hserved
      have hin := hentitled c row hc haccepts
      have hafter := after_accepted hc haccepts
      have hother : ∀ {s'}, Alike uid s s' →
          s'.channelOf r.ref = some (c, row) ∧ s'.Accepts uid row r := fun h =>
        ⟨(h.channelOf r.ref).trans hc, (h.accepts row r).mpr haccepts⟩
      refine ⟨fun _ _ _ => ⟨c, row, hc, hin⟩, fun s' h => ?_, fun s' h => ?_, fun c' hout => ?_⟩
      · rw [serve_accepted hc haccepts, serve_accepted (hother h).1 (hother h).2, h.answer hin row r]
      · rw [hafter, after_accepted (hother h).1 (hother h).2]
        exact h.effect hin row r
      · rw [hafter]
        refine sameChannel_respond ?_ row r
        rintro rfl
        exact hout hin
    · have hno : ∀ c row, s.channelOf r.ref = some (c, row) → ¬ s.Accepts uid row r :=
        fun c row hc haccepts => hserved ⟨c, row, hc, haccepts⟩
      have hother : ∀ {s'}, Alike uid s s' →
          ∀ c row, s'.channelOf r.ref = some (c, row) → ¬ s'.Accepts uid row r :=
        fun h c row hc haccepts => hno c row ((h.channelOf r.ref).symm.trans hc)
          ((h.accepts row r).mp haccepts)
      refine ⟨fun a t hok => ?_, fun s' h => ?_, fun s' h => ?_, fun c' _ => ?_⟩
      · rw [serve_refused hno] at hok
        simp at hok
      · rw [serve_refused hno, serve_refused (hother h)]
        refine congrArg Except.error ?_
        cases r <;> simp only [Server.refusal, h.restricted, h.channelOf]
      · rw [after_refused hno, after_refused (hother h)]
        exact h
      · rw [after_refused hno]
        exact .refl ..

/-! ## Runs -/

/-- An event of a run that is a request is private. -/
def RequestPrivate (past : List (Event × Server)) (e : Event) (_ : Server) : Prop :=
  ∀ uid r, e = .request uid r → Private (endState Server.empty past) uid r

def RequestEntitled (past : List (Event × Server)) (e : Event) (_ : Server) : Prop :=
  ∀ uid r, e = .request uid r → Entitled (endState Server.empty past) uid r

/-- The server takes its events one after another. -/
inductive Step : Server → Event → Server → Prop
  | mk (s : Server) (e : Event) : Step s e (s.after e)

/-- **Channels are private** in exactly the runs in which users only make requests for
channels that they are in, or that are refused for another reason. -/
theorem channels_private {h : List (Event × Server)}
    (hrun : Trace Step (fun _ _ => True) Server.empty h s) :
    Every RequestPrivate h ↔ Every RequestEntitled h := by
  refine hrun.every_iff (I := fun _ _ => True) trivial fun past s e t _ _ _ => ⟨?_, fun _ => trivial⟩
  constructor
  · exact fun hprivate uid r he => private_iff.mp (hprivate uid r he)
  · exact fun hentitled uid r he => private_iff.mpr (hentitled uid r he)

/-- The users 1 and 3 open a private channel, which is the first one.  The newest event
is first. -/
def privateChannel : List Event :=
  [.createNewPm 1 3 true "secret" false none 1 0, .setUser 4 false, .setUser 3 false,
    .setUser 1 false]

def channelRun (last : Event) : List (Event × Server) :=
  historyOf Server.after Server.empty (last :: privateChannel)

theorem trace_channelRun (last : Event) :
    Trace Step (fun _ _ => True) Server.empty (channelRun last)
      (endState Server.empty (channelRun last)) :=
  trace_historyOf Server.empty _ fun e _ s => .mk s e

/-- The channel of the worked runs, before their last event. -/
def openedChannel : Server := endState Server.empty (historyOf Server.after Server.empty privateChannel)

theorem channelOf_openedChannel :
    openedChannel.channelOf (.id 1) = some (1, ⟨"pm_1_3", .PM⟩) := by decide +kernel

/-- The request of a user who is in the channel. -/
theorem channels_private_member :
    Every RequestPrivate (channelRun (.request 1 (.get (.id 1) 50 0 {}))) := by
  refine (channels_private (trace_channelRun _)).mpr ⟨⟨⟨⟨⟨trivial, ?_⟩, ?_⟩, ?_⟩, ?_⟩, ?_⟩
  case refine_5 =>
    rintro uid r he c row hc -
    obtain ⟨rfl, rfl⟩ : 1 = uid ∧ Request.get (.id 1) 50 0 {} = r := by simpa using he
    obtain ⟨rfl, -⟩ : 1 = c ∧ _ :=
      Prod.mk.inj (Option.some.inj (channelOf_openedChannel.symm.trans hc))
    show Server.Member openedChannel 1 1
    decide +kernel
  all_goals
    rintro uid r he
    cases he

/-- A user who is not in the channel reads its messages. -/
theorem stranger_reads_channel :
    Trace Step (fun _ _ => True) Server.empty (channelRun (.request 4 (.get (.id 1) 50 0 {})))
        (endState Server.empty (channelRun (.request 4 (.get (.id 1) 50 0 {})))) ∧
      ¬ openedChannel.Member 1 4 ∧
      (serve 4 (.get (.id 1) 50 0 {}) openedChannel).1 =
        .ok (.messages [⟨1, 1, 1, "secret", 0, false, none⟩]) ∧
      ¬ Every RequestPrivate (channelRun (.request 4 (.get (.id 1) 50 0 {}))) := by
  have hout : ¬ openedChannel.Member 1 4 := by decide +kernel
  refine ⟨trace_channelRun _, hout, ?_, fun hall => ?_⟩
  · rw [serve_accepted (r := .get (.id 1) 50 0 {}) channelOf_openedChannel trivial]
    decide +kernel
  · have hentitled := private_iff.mp (hall.2 4 _ rfl)
    exact hout (hentitled 1 _ channelOf_openedChannel trivial)

end Soms.Chat
