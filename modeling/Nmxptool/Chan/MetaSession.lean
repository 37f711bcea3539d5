import Nmxptool.Chan.MetaMessages
import Nmxptool.Pds.Login
import Nmxptool.Wire.UntilReady

/-! # The channels of a server

`nmxp_getMetaChannelList` logs in at the DAP server, and asks for the channels, for the times of
their data, and for the networks. The answers come one by one, and what they say is put together in
one list of channels, while the loop over the networks walks along that list.

* `run_answer`: what holds after all messages of an answer.
* `infoLoop_ok`: the loop asks for each channel with the number 0 once, in the order of the list.
* `metaChannels`: the list that comes of it.
* `metaChanFree_spec`: `nmxp_meta_chan_free` does not return from it. -/

namespace Nmxptool.Chan.MetaSession

open Nmxptool.Lib.Bytes Nmxptool.Lib.LinkedList Nmxptool.Lib.Recv Nmxptool.Lib.Run
open Nmxptool.Wire.Model Nmxptool.Wire.Framing Nmxptool.Wire.Ready Nmxptool.Wire.Terminate
open Nmxptool.Wire.UntilReady
open Nmxptool.Pds.Login (LoginSetting dapLogin login_ready connectMessage textBytes Fits)
open Nmxptool.Chan.Match (NmxpDatatype getDataTypeFromKey)
open Nmxptool.Chan.ChannelList Nmxptool.Chan.MetaList Nmxptool.Chan.MetaMessages

def NMXP_MSG_CHANNELLISTREQUEST : Int32 := 209
def NMXP_MSG_PRECISLISTREQUEST : Int32 := 203
def NMXP_MSG_CHANNELINFOREQUEST : Int32 := 226
def NMXP_DATA_TIMESERIES : Int32 := 1

def getChannelNumberFromKey (key : Int32) : Int32 := key &&& 0x000f

/-! ### The requests -/

def sendChannelListRequest (host : Host) (o : Outlet) : ℤ × Outlet :=
  nmxpSendHeader host NMXP_MSG_CHANNELLISTREQUEST 0 o

/-- `NMXP_PRECISLISTREQUEST`, for all instruments and all types of channels. -/
def sendPrecisListRequest (host : Host) (o : Outlet) : ℤ × Outlet :=
  nmxpSendMessage host NMXP_MSG_PRECISLISTREQUEST
    (some (inMemory host (ntohl host (-1)) ++ (inMemory host (ntohl host NMXP_DATA_TIMESERIES) ++
      inMemory host (ntohl host (-1))))) 12 o

/-- `NMXP_CHANNELINFOREQUEST`. -/
def sendChannelInfoRequest (host : Host) (key : Int32) (o : Outlet) : ℤ × Outlet :=
  nmxpSendMessage host NMXP_MSG_CHANNELINFOREQUEST
    (some (inMemory host (ntohl host key) ++ inMemory host (ntohl host 0))) 8 o

theorem channelListRequest_ne : NMXP_MSG_CHANNELLISTREQUEST ≠ 0 := by decide
theorem precisListRequest_ne : NMXP_MSG_PRECISLISTREQUEST ≠ 0 := by decide
theorem channelInfoRequest_ne : NMXP_MSG_CHANNELINFOREQUEST ≠ 0 := by decide

def channelListRequest : Message :=
  ⟨NMXP_MSG_CHANNELLISTREQUEST, [], channelListRequest_ne, noBody_lt⟩

def precisListRequest : Message where
  type := NMXP_MSG_PRECISLISTREQUEST
  body := network32 (-1) ++ (network32 NMXP_DATA_TIMESERIES ++ network32 (-1))
  type_ne := precisListRequest_ne
  body_lt := by simp

def channelInfoRequest (key : Int32) : Message where
  type := NMXP_MSG_CHANNELINFOREQUEST
  body := network32 key ++ network32 0
  type_ne := channelInfoRequest_ne
  body_lt := by simp

/-! ### The functions -/

/-- What does not change. -/
structure MetaSetting where
  login : LoginSetting
  malloc : Malloc
  datatype : NmxpDatatype
  flagRequestChannelinfo : Bool

section Functions
variable (d : MetaSetting) (serve : List UInt8 → List UInt8)

/-- The body of the loop over the list, for a channel with a key. -/
def infoItem (key : Int32) (list : MetaChanList) (line : Line) :
    Except MetaFault ((MetaChanList × Line) × List MetaEvent) :=
  if getChannelNumberFromKey key = 0 then
    ask d.login.host NMXP_MAX_LENGTH_DATA_BUFFER (infoStep d.login.host d.malloc key) serve
      (sendChannelInfoRequest d.login.host key) list line
  else return ((list, line), [])

/-- `for(iter = chan_list; iter != NULL; iter = iter->next)`. A loop that goes through more cells
than there are does not end. -/
def infoLoop : ℕ → Option ℕ → MetaChanList → Line →
    Except MetaFault ((MetaChanList × Line) × List MetaEvent)
  | 0, _, _, _ => .error (.list .endless)
  | _ + 1, none, list, line => return ((list, line), [])
  | rounds + 1, some iter, list, line => do
    let c ← onList (load list.heap iter)
    let ((list, line), evs) ← infoItem d serve c.value.key list line
    let c ← onList (load list.heap iter)
    let (q, evs') ← infoLoop rounds c.next list line
    return (q, evs ++ evs')

/-- The networks, if they are wanted. -/
def requestNetworks (list : MetaChanList) (line : Line) :
    Except MetaFault ((MetaChanList × Line) × List MetaEvent) :=
  if d.flagRequestChannelinfo then infoLoop d serve (list.heap.length + 1) list.chanList list line
  else return ((list, line), [])

/-- What the function gives: the list that it returns, `*pchannelList`, and the connection. -/
structure MetaReply where
  chanList : MetaChanList
  pchannelList : Option (List UInt8)
  line : Line

/-- **DAP steps 5 to 8**, with the requests for the channels. -/
def requestChannels (line : Line) : Except MetaFault (MetaReply × List MetaEvent) := do
  let ((q, line), evs) ← ask d.login.host NMXP_MAX_LENGTH_DATA_BUFFER
    (listStep d.login.host d.malloc d.datatype) serve (sendChannelListRequest d.login.host)
    ⟨emptyList, none⟩ line
  let ((list, line), evs') ← ask d.login.host NMXP_MAX_LENGTH_DATA_BUFFER
    (precisStep d.login.host d.malloc) serve (sendPrecisListRequest d.login.host) q.list line
  let ((list, line), evs'') ← requestNetworks d serve list line
  let outlet := (nmxpSendTerminateSubscription d.login.host .normal (some bye) line.outlet).2
  return (⟨list, q.channelList, ⟨line.link, outlet⟩⟩, evs ++ (evs' ++ evs''))

/-- **`nmxp_getMetaChannelList`**, from the open socket on. It returns NULL, and does not set
`*pchannelList`, where the login fails. -/
def nmxpGetMetaChannelList (username password : Option Text) (line : Line) :
    Except MetaFault (Option MetaReply × List MetaEvent) :=
  match dapLogin d.login username password line.link line.outlet with
  | (.ready, link, outlet) => do
    let (reply, evs) ← requestChannels d serve ⟨link, outlet⟩
    return (some reply, evs)
  | (.outsideCrc32buf, _, _) => .error .outside
  | _ => return (none, [])

end Functions

/-! ### What is sent -/

/-- The Terminate at the end: three of the four bytes of its text. -/
def terminateMessage : Message :=
  ⟨NMXP_MSG_TERMINATESUBSCRIPTION, bye.bytes.take 3, by decide, by decide⟩

theorem sendChannelListRequest_eq (host : Host) (o : Outlet) :
    sendChannelListRequest host o = nmxpSendMessage host channelListRequest.type
      (some channelListRequest.body) channelListRequest.length o := by
  unfold nmxpSendMessage
  dsimp only
  split_ifs with h h'
  · exact absurd h' (by decide)
  · rfl
  · rfl

theorem sendPrecisListRequest_eq (host : Host) (o : Outlet) :
    sendPrecisListRequest host o = nmxpSendMessage host precisListRequest.type
      (some precisListRequest.body) precisListRequest.length o := by
  simp only [sendPrecisListRequest, inMemory, store_ntohl]
  rfl

theorem sendChannelInfoRequest_eq (host : Host) (key : Int32) (o : Outlet) :
    sendChannelInfoRequest host key o = nmxpSendMessage host (channelInfoRequest key).type
      (some (channelInfoRequest key).body) (channelInfoRequest key).length o := by
  have hlength : (channelInfoRequest key).length = 8 := by
    rw [Message.length, channelInfoRequest]
    simp
    rfl
  rw [hlength, sendChannelInfoRequest]
  simp only [inMemory, store_ntohl]
  rfl

theorem sendTerminate_eq (host : Host) (o : Outlet) :
    nmxpSendTerminateSubscription host .normal (some bye) o = nmxpSendMessage host
      terminateMessage.type (some terminateMessage.body) terminateMessage.length o := rfl

/-! ### The answers -/

/-- A message that carries something in its body. -/
structure Carries {α : Type} (body : α → List UInt8) (m : Message) (r : α) : Prop where
  body_eq : m.body = body r
  notReady : m.type ≠ NMXP_MSG_READY
  fits : m.Fits NMXP_MAX_LENGTH_DATA_BUFFER

/-- The messages of an answer, with what they carry. -/
structure Answer {α : Type} (body : α → List UInt8) where
  messages : List Message
  records : List α
  carries : List.Forall₂ (Carries body) messages records

/-- **A server**: what it sends for each of the requests, with a Ready behind. -/
structure MetaServer where
  serve : List UInt8 → List UInt8
  ready : Message
  lists : Answer listBody
  precis : Answer precisBody
  info : Int32 → Answer InfoRecord.body
  ready_type : ready.type = NMXP_MSG_READY
  ready_fits : ready.Fits NMXP_MAX_LENGTH_DATA_BUFFER
  serves_lists : serve channelListRequest.encode =
    (lists.messages ++ [ready]).flatMap Message.encode
  serves_precis : serve precisListRequest.encode =
    (precis.messages ++ [ready]).flatMap Message.encode
  serves_info : ∀ key, serve (channelInfoRequest key).encode =
    ((info key).messages ++ [ready]).flatMap Message.encode

section Answers
variable {σ ω ε α : Type} {step : σ → Received → Except ε (σ × List ω)} {body : α → List UInt8}

/-- **The messages of an answer**: what holds of the records so far, holds of all. -/
theorem run_answer (Inv : List α → σ → List ω → Prop)
    (hstep : ∀ done q evs m r, Inv done q evs → Carries body m r →
      ∃ q' o, step q m.received = .ok (q', o) ∧ Inv (done ++ [r]) q' (evs ++ o)) (a : Answer body)
    {q : σ} (hq : Inv [] q []) :
    ∃ q' evs, run step q (a.messages.map Message.received) = .ok (q', evs) ∧
      Inv a.records q' evs := by
  have hall : ∀ {ms : List Message} {rs : List α}, List.Forall₂ (Carries body) ms rs →
      ∀ {done : List α} {q : σ} {evs : List ω}, Inv done q evs →
        ∃ q' o, run step q (ms.map Message.received) = .ok (q', o) ∧
          Inv (done ++ rs) q' (evs ++ o) := by
    intro ms rs h
    induction h with
    | nil => exact fun {done q evs} hinv => ⟨q, [], rfl, by simpa using hinv⟩
    | cons hmr _ ih =>
      intro done q evs hinv
      obtain ⟨q₁, o₁, h₁, hinv₁⟩ := hstep done q evs _ _ hinv hmr
      obtain ⟨q₂, o₂, h₂, hinv₂⟩ := ih hinv₁
      exact ⟨q₂, o₁ ++ o₂, run_cons_eq_ok.mpr ⟨q₁, o₁, o₂, h₁, h₂, rfl⟩, by simpa using hinv₂⟩
  obtain ⟨q', evs, hrun, hinv⟩ := hall a.carries hq
  exact ⟨q', evs, hrun, by simpa using hinv⟩

/-- **A request of a few bytes, and its answer.** -/
theorem ask_answer (host : Host) {serve : List UInt8 → List UInt8}
    {request : Outlet → ℤ × Outlet} {sent : Message} (hsent : sent.body.length ≤ 24)
    (hrequest : ∀ o, request o = nmxpSendMessage host sent.type (some sent.body) sent.length o)
    {ready : Message} (a : Answer body)
    (hserve : serve sent.encode = (a.messages ++ [ready]).flatMap Message.encode)
    (hready : ready.type = NMXP_MSG_READY) (hfits : ready.Fits NMXP_MAX_LENGTH_DATA_BUFFER)
    {state state' : σ} {evs : List ω} {line : Line} (hline : line.Idle)
    (hrun : run step state (a.messages.map Message.received) = .ok (state', evs)) :
    ∃ line' : Line, ask host NMXP_MAX_LENGTH_DATA_BUFFER step serve request state line =
        .ok ((state', line'), evs) ∧
      line'.Idle ∧ line'.outlet.wire = line.outlet.wire ++ sent.encode := by
  have hmem : ∀ m ∈ a.messages, m.type ≠ NMXP_MSG_READY ∧ m.Fits NMXP_MAX_LENGTH_DATA_BUFFER :=
    (List.forall₂_and_left _ _ |>.mp
      (a.carries.imp fun m r h => ⟨⟨h.notReady, h.fits⟩, h⟩)).1
  refine ask_ready host hline (fun o ho => ?_) hserve (fun m hm => (hmem m hm).1) hready
    (fun m hm => ?_) hrun
  · rw [hrequest o]
    exact (sendMessage_writable host hsent ho).2
  · rcases List.mem_append.mp hm with hm | hm
    · exact (hmem m hm).2
    · rw [List.mem_singleton.mp hm]
      exact hfits

end Answers

/-! ### The three answers -/

section Steps
variable {d : MetaSetting}
  (hmem : ∀ n ≤ NMXP_MAX_LENGTH_DATA_BUFFER, d.malloc.alloc n ≠ none)

/-- The channels of the type that some lists announce. -/
def announced (datatype : NmxpDatatype) (lists : List (List ChanRecord)) : List ChanRecord :=
  lists.flatten.filter (OfTypeNumber datatype)

/-- What holds when some ChannelLists are read. -/
structure ListsRead (d : MetaSetting) (done : List (List ChanRecord)) (q : MetaState)
    (evs : List MetaEvent) : Prop where
  quiet : evs = []
  channels : ∃ items, Holds q.list items ∧
    (items.map Prod.snd).Perm ((announced d.datatype done).map itemOf)
  last : q.channelList = done.getLast?.map (listInHost d.login.host)
  length_lt : ∀ l ∈ done, l.length < 2 ^ 31

theorem listsRead_nil : ListsRead d [] ⟨emptyList, none⟩ [] :=
  ⟨rfl, ⟨[], ⟨rfl, List.Pairwise.nil⟩, List.Perm.nil⟩, rfl, by simp⟩

include hmem in
theorem ListsRead.step {done : List (List ChanRecord)} {q : MetaState} {evs : List MetaEvent}
    (h : ListsRead d done q evs) {m : Message} {l : List ChanRecord} (hm : Carries listBody m l) :
    ∃ q' o, listStep d.login.host d.malloc d.datatype q m.received = .ok (q', o) ∧
      ListsRead d (done ++ [l]) q' (evs ++ o) := by
  obtain ⟨items, hitems, hperm⟩ := h.channels
  obtain ⟨s', items', hstep, hs', hperm'⟩ :=
    listStep_ok hmem d.login.host d.datatype hm.body_eq hm.fits hitems
  refine ⟨_, _, hstep, ?_, ⟨items', hs', hperm'.trans ?_⟩, by simp, fun l' hl' => ?_⟩
  · rw [h.quiet]
    rfl
  · rw [announced, List.flatten_append, List.filter_append, List.map_append, List.flatten_singleton]
    exact hperm.append_right _
  · rcases List.mem_append.mp hl' with hl' | hl'
    · exact h.length_lt l' hl'
    · rw [List.mem_singleton.mp hl']
      exact length_of_fits hm.body_eq hm.fits

include hmem in
/-- **The channels**: those of the type are in the list, and the last ChannelList is kept. -/
theorem run_lists (a : Answer listBody) :
    ∃ q, run (listStep d.login.host d.malloc d.datatype) ⟨emptyList, none⟩
      (a.messages.map Message.received) = .ok (q, []) ∧ ListsRead d a.records q [] := by
  obtain ⟨q, evs, hrun, hread⟩ := run_answer (ListsRead d)
    (fun _ _ _ _ _ h hm => h.step hmem hm) a listsRead_nil
  obtain rfl := hread.quiet
  exact ⟨q, hrun, hread⟩

variable {s : MetaChanList} {items : Items}

/-- What is logged of the items of a PrecisList, where some keys are on the list. -/
def timesNotFound (known : List Int32) (l : List PrecisRecord) : List MetaEvent :=
  (l.filter (·.key ∉ known)).map fun r => .timesNotFound r.key r.name

/-- What is logged of the responses to a request. -/
def networkNotFound (known : List Int32) (asked : Int32) (l : List InfoRecord) : List MetaEvent :=
  (l.filter (·.key ∉ known)).map fun r => .networkNotFound asked r.key

include hmem in
/-- **The times.** -/
theorem run_precis (hs : Holds s items) (hnodup : (keysOf items).Nodup) (a : Answer precisBody) :
    ∃ s', run (precisStep d.login.host d.malloc) s (a.messages.map Message.received) =
        .ok (s', timesNotFound (keysOf items) a.records.flatten) ∧ s'.chanList = s.chanList ∧
      Holds s' (updated (fun v => a.records.flatten.foldl PrecisRecord.set v) items) := by
  obtain ⟨s', evs, hrun, rfl, hp, hs'⟩ :=
    run_answer (fun done s' evs => evs = timesNotFound (keysOf items) done.flatten ∧
      s'.chanList = s.chanList ∧
      Holds s' (updated (fun v => done.flatten.foldl PrecisRecord.set v) items))
      (fun done s' evs m l ⟨hevs, hp, hs'⟩ hm => by
        have hkeys := keysOf_updated (KeepsName.foldl keepsName_precis done.flatten) items
        obtain ⟨s'', hstep, hp', hs''⟩ :=
          precisStep_ok hmem d.login.host hm.body_eq hm.fits hs' (hkeys ▸ hnodup)
        refine ⟨s'', _, hstep, ?_, hp'.trans hp, ?_⟩
        · rw [hevs, hkeys]
          simp [timesNotFound]
        · rw [updated_updated] at hs''
          simpa using hs'') a
      ⟨rfl, rfl, by simpa [updated] using hs⟩
  exact ⟨s', hrun, hp, hs'⟩

include hmem in
/-- **The network** of a channel. -/
theorem run_info (hs : Holds s items) (hnodup : (keysOf items).Nodup) (asked : Int32)
    (a : Answer InfoRecord.body) :
    ∃ s', run (infoStep d.login.host d.malloc asked) s (a.messages.map Message.received) =
        .ok (s', networkNotFound (keysOf items) asked a.records) ∧ s'.chanList = s.chanList ∧
      Holds s' (updated (fun v => a.records.foldl InfoRecord.set v) items) := by
  obtain ⟨s', evs, hrun, rfl, hp, hs'⟩ :=
    run_answer (fun done s' evs => evs = networkNotFound (keysOf items) asked done ∧
      s'.chanList = s.chanList ∧
      Holds s' (updated (fun v => done.foldl InfoRecord.set v) items))
      (fun done s' evs m r ⟨hevs, hp, hs'⟩ hm => by
        have hkeys := keysOf_updated (KeepsName.foldl keepsName_info done) items
        obtain ⟨s'', hstep, hp', hs''⟩ :=
          infoStep_ok hmem d.login.host asked hm.body_eq hm.fits hs' (hkeys ▸ hnodup)
        refine ⟨s'', _, hstep, ?_, hp'.trans hp, ?_⟩
        · rw [hevs, hkeys]
          by_cases hr : r.key ∈ keysOf items <;> simp [networkNotFound, hr]
        · rw [updated_updated] at hs''
          simpa using hs'') a
      ⟨rfl, rfl, by simpa [updated] using hs⟩
  exact ⟨s', hrun, hp, hs'⟩

/-! ### The loop over the list -/

/-- The channels whose network is asked for. -/
def asked (keys : List Int32) : List Int32 :=
  keys.filter fun key => getChannelNumberFromKey key = 0

theorem asked_cons (key : Int32) (keys : List Int32) :
    asked (key :: keys) = asked [key] ++ asked keys := by
  rw [asked, asked, asked, ← List.filter_append, List.singleton_append]

/-- What the server answers. -/
def responses (server : MetaServer) (keys : List Int32) : List InfoRecord :=
  keys.flatMap fun key => (server.info key).records

def infoEvents (server : MetaServer) (known keys : List Int32) : List MetaEvent :=
  keys.flatMap fun key => networkNotFound known key (server.info key).records

theorem infoEvents_append (server : MetaServer) (known keys keys' : List Int32) :
    infoEvents server known (keys ++ keys') =
      infoEvents server known keys ++ infoEvents server known keys' := List.flatMap_append

/-- The cell of an item, and the list behind it. -/
theorem next_of_isList {heap : List (Cell NmxpMetaChan)} {p : Option ℕ} {l₁ l₂ : Items}
    {x : ℕ × NmxpMetaChan} (h : IsList heap p (l₁ ++ x :: l₂)) :
    ∃ next, load heap x.1 = .ok ⟨x.2, next⟩ ∧ IsList heap next l₂ := by
  obtain ⟨q, -, next, hcell, hrest⟩ := h.suffix
  exact ⟨next, load_of_getElem? hcell, hrest⟩

include hmem in
/-- One item. -/
theorem infoItem_ok (server : MetaServer) (hs : Holds s items) (hnodup : (keysOf items).Nodup)
    (key : Int32) {line : Line} (hline : line.Idle) :
    ∃ s' line', infoItem d server.serve key s line =
        .ok ((s', line'), infoEvents server (keysOf items) (asked [key])) ∧
      line'.Idle ∧ s'.chanList = s.chanList ∧
      line'.outlet.wire = line.outlet.wire ++
        (asked [key]).flatMap (fun key => (channelInfoRequest key).encode) ∧
      Holds s' (updated (fun v => (responses server (asked [key])).foldl InfoRecord.set v)
        items) := by
  by_cases h : getChannelNumberFromKey key = 0
  · have hasked : asked [key] = [key] := by simp [asked, h]
    obtain ⟨s', hrun, hp, hs'⟩ := run_info (d := d) hmem hs hnodup key (server.info key)
    obtain ⟨line', hask, hidle, hwire⟩ := ask_answer d.login.host
      (by simp [channelInfoRequest]) (sendChannelInfoRequest_eq d.login.host key)
      (server.info key) (server.serves_info key) server.ready_type server.ready_fits hline hrun
    refine ⟨s', line', ?_, hidle, hp, ?_, ?_⟩
    · rw [infoItem, if_pos h, hask, hasked, infoEvents, List.flatMap_singleton]
    · rw [hasked, List.flatMap_singleton, hwire]
    · rwa [hasked, responses, List.flatMap_singleton]
  · have hasked : asked [key] = [] := by simp [asked, h]
    refine ⟨s, line, ?_, hline, rfl, ?_, ?_⟩
    · rw [infoItem, if_neg h, hasked]
      rfl
    · rw [hasked, List.flatMap_nil, List.append_nil]
    · simpa [hasked, responses, updated] using hs

include hmem in
/-- **The loop** asks for the channels in the order of the list, though the cells are written
between. -/
theorem infoLoop_ok (server : MetaServer) : ∀ (rest front : Items) {F : NmxpMetaChan → NmxpMetaChan}
    {rounds : ℕ} {iter : Option ℕ} {s : MetaChanList} {line : Line}, KeepsName F →
    rest.length < rounds → (keysOf (front ++ rest)).Nodup →
    Holds s (updated F (front ++ rest)) → IsList s.heap iter (updated F rest) → line.Idle →
    ∃ s' line', infoLoop d server.serve rounds iter s line = .ok ((s', line'),
        infoEvents server (keysOf (front ++ rest)) (asked (keysOf rest))) ∧
      line'.Idle ∧ s'.chanList = s.chanList ∧
      line'.outlet.wire = line.outlet.wire ++
        (asked (keysOf rest)).flatMap (fun key => (channelInfoRequest key).encode) ∧
      Holds s' (updated (fun v =>
        (responses server (asked (keysOf rest))).foldl InfoRecord.set (F v)) (front ++ rest))
  | [], front, F, rounds + 1, iter, s, line, _, _, _, hs, hiter, hline => by
    obtain rfl : iter = none := hiter
    refine ⟨s, line, rfl, hline, rfl, ?_, ?_⟩
    · simp [asked, keysOf]
    · simpa [asked, keysOf, responses] using hs
  | x :: rest, front, F, rounds + 1, iter, s, line, hF, hrounds, hnodup, hs, hiter, hline => by
    obtain ⟨rfl, next, hcell, -⟩ := hiter
    set items := front ++ x :: rest with hitems
    have hkeys := keysOf_updated hF items
    have hkey : (F x.2).key = x.2.key := (hF x.2).1
    have hcons : asked (keysOf (x :: rest)) = asked [x.2.key] ++ asked (keysOf rest) :=
      asked_cons x.2.key (keysOf rest)
    obtain ⟨s₁, line₁, hitem, hline₁, hp₁, hwire₁, hs₁⟩ :=
      infoItem_ok hmem server hs (hkeys ▸ hnodup) x.2.key hline
    rw [updated_updated] at hs₁
    set G : NmxpMetaChan → NmxpMetaChan := fun v =>
      (responses server (asked [x.2.key])).foldl InfoRecord.set (F v) with hG
    have hGkeeps : KeepsName G := hF.comp (KeepsName.foldl keepsName_info _)
    obtain ⟨next₁, hload₁, hrest₁⟩ : ∃ next₁, load s₁.heap x.1 = .ok ⟨G x.2, next₁⟩ ∧
        IsList s₁.heap next₁ (updated G rest) := by
      have hlist := hs₁.list
      rw [hitems, updated, List.map_append, List.map_cons] at hlist
      exact next_of_isList hlist
    have hsplit : items = (front ++ [x]) ++ rest := by rw [hitems]; simp
    obtain ⟨s', line', hloop, hline', hp', hwire', hs'⟩ := infoLoop_ok server rest (front ++ [x])
      hGkeeps (Nat.lt_of_succ_lt_succ hrounds) (hsplit ▸ hnodup) (hsplit ▸ hs₁) hrest₁ hline₁
    rw [← hsplit] at hloop hs'
    refine ⟨s', line', ?_, hline', hp'.trans hp₁, ?_, ?_⟩
    · rw [infoLoop, load_of_getElem? hcell]
      simp only [onList, ok_bind, hkey, hitem, hload₁, hloop, hkeys, hcons]
      rw [infoEvents_append]
      rfl
    · rw [hwire', hwire₁, hcons, List.flatMap_append, List.append_assoc]
    · rw [hcons, responses, List.flatMap_append]
      simpa only [List.foldl_append, hG, responses] using hs'

end Steps

/-! ### The list that comes of it -/

/-- The last of some records with a key. -/
def lastWith {α : Type} (keyOf : α → Int32) (key : Int32) (l : List α) : Option α :=
  (l.filter fun r => keyOf r = key).getLast?

/-- **Setting fields again and again**: the last record with the key of the item decides. -/
theorem foldl_setIn {α : Type} (keyOf : α → Int32) (f : α → NmxpMetaChan → NmxpMetaChan)
    (hkey : ∀ r v, (f r v).key = v.key) (hover : ∀ r r' v, f r (f r' v) = f r v) (l : List α)
    (v : NmxpMetaChan) :
    l.foldl (fun v r => setIn (keyOf r) (f r) v) v =
      ((lastWith keyOf v.key l).map fun r => f r v).getD v := by
  induction l using List.reverseRecOn with
  | nil => rfl
  | append_singleton l r ih =>
    rw [List.foldl_append, ih, List.foldl_cons, List.foldl_nil, lastWith, lastWith,
      List.filter_append]
    by_cases h : keyOf r = v.key
    · rw [List.filter_cons_of_pos (by simpa using h), List.filter_nil, List.getLast?_append]
      cases (l.filter fun r => keyOf r = v.key).getLast? with
      | none => simp [setIn, h]
      | some r' => simp [setIn, h, hkey, hover]
    · rw [List.filter_cons_of_neg (by simpa using h), List.filter_nil, List.append_nil]
      cases (l.filter fun r => keyOf r = v.key).getLast? with
      | none => simp [setIn, Ne.symm h]
      | some r' => simp [setIn, Ne.symm h, hkey]

/-- **A channel as the answers describe it**: the last item and the last response decide. -/
def described (precis : List PrecisRecord) (infos : List InfoRecord) (r : ChanRecord) :
    NmxpMetaChan where
  key := r.key
  name := textOf r.name
  startTime := ((lastWith (·.key) r.key precis).map PrecisRecord.startTime).getD 0
  endTime := ((lastWith (·.key) r.key precis).map PrecisRecord.endTime).getD 0
  network := ((lastWith (·.key) r.key infos).map fun i => textOf i.network).getD []

theorem foldl_itemOf (precis : List PrecisRecord) (infos : List InfoRecord) (r : ChanRecord) :
    infos.foldl InfoRecord.set (precis.foldl PrecisRecord.set (itemOf r)) =
      described precis infos r := by
  have hprecis := foldl_setIn (fun p : PrecisRecord => p.key)
    (fun p v => { v with startTime := p.startTime, endTime := p.endTime }) (fun _ _ => rfl)
    (fun _ _ _ => rfl) precis (itemOf r)
  have hinfo := fun v => foldl_setIn (fun i : InfoRecord => i.key)
    (fun i v => { v with network := textOf i.network }) (fun _ _ => rfl) (fun _ _ _ => rfl) infos v
  have hsets : precis.foldl PrecisRecord.set (itemOf r) = _ := hprecis
  have hinfos : ∀ v, infos.foldl InfoRecord.set v = _ := hinfo
  rw [hsets, hinfos]
  have hkey : (itemOf r).key = r.key := rfl
  rw [hkey, described]
  cases lastWith (fun p : PrecisRecord => p.key) r.key precis <;>
    cases h : lastWith (fun i : InfoRecord => i.key) r.key infos <;> simp [itemOf, h]

/-- The keys that the loop asks for. -/
def wanted (d : MetaSetting) (keys : List Int32) : List Int32 :=
  if d.flagRequestChannelinfo then asked keys else []

/-- **What the function leaves.** -/
structure Described (d : MetaSetting) (server : MetaServer) (wire : List UInt8) (reply : MetaReply)
    (evs : List MetaEvent) (items : Items) : Prop where
  holds : Holds reply.chanList items
  channels : (items.map Prod.snd).Perm ((announced d.datatype server.lists.records).map
    (described server.precis.records.flatten (responses server (wanted d (keysOf items)))))
  pchannelList : ∀ l, server.lists.records.getLast? = some l →
    ∃ block, reply.pchannelList = some block ∧ Lists d.login.host block (l.map ChanRecord.entry)
  idle : reply.line.link.inbox = []
  wire : reply.line.outlet.wire = wire ++ ([channelListRequest, precisListRequest] ++
    ((wanted d (keysOf items)).map channelInfoRequest ++ [terminateMessage])).flatMap Message.encode
  evs : evs = timesNotFound (keysOf items) server.precis.records.flatten ++
    infoEvents server (keysOf items) (wanted d (keysOf items))

section Session
variable {d : MetaSetting}
  (hmem : ∀ n ≤ NMXP_MAX_LENGTH_DATA_BUFFER, d.malloc.alloc n ≠ none)

include hmem in
theorem requestNetworks_ok (server : MetaServer) {s : MetaChanList} {items : Items} {line : Line}
    (hs : Holds s items) (hnodup : (keysOf items).Nodup) (hline : line.Idle) :
    ∃ s' line', requestNetworks d server.serve s line = .ok ((s', line'),
        infoEvents server (keysOf items) (wanted d (keysOf items))) ∧ line'.Idle ∧
      line'.outlet.wire = line.outlet.wire ++
        (wanted d (keysOf items)).flatMap (fun key => (channelInfoRequest key).encode) ∧
      Holds s' (updated (fun v =>
        (responses server (wanted d (keysOf items))).foldl InfoRecord.set v) items) := by
  unfold requestNetworks wanted
  split_ifs
  · have hid : updated (fun v => v) items = items := by simp [updated]
    obtain ⟨s', line', hloop, hline', -, hwire, hs'⟩ := infoLoop_ok (d := d) hmem server items []
      (F := fun v => v) (fun _ => ⟨rfl, rfl⟩) (Nat.lt_succ_of_le hs.list.length_le) hnodup
      (by rwa [List.nil_append, hid]) (by rw [hid]; exact hs.list) hline
    exact ⟨s', line', hloop, hline', hwire, hs'⟩
  · exact ⟨s, line, rfl, hline, by simp, by simpa [responses, updated] using hs⟩

include hmem in
/-- **The three requests.** -/
theorem requestChannels_ok (server : MetaServer) {line : Line} (hline : line.Idle)
    (hnodup : ((announced d.datatype server.lists.records).map ChanRecord.key).Nodup) :
    ∃ reply evs items, requestChannels d server.serve line = .ok (reply, evs) ∧
      Described d server line.outlet.wire reply evs items := by
  obtain ⟨q, hlists, hread⟩ := run_lists hmem server.lists
  obtain ⟨line₁, hask₁, hline₁, hwire₁⟩ := ask_answer d.login.host (by decide)
    (sendChannelListRequest_eq d.login.host) server.lists server.serves_lists server.ready_type
    server.ready_fits hline hlists
  obtain ⟨items, hitems, hperm⟩ := hread.channels
  have hkeys : (keysOf items).Nodup := by
    have hmap := hperm.map NmxpMetaChan.key
    rw [List.map_map, List.map_map] at hmap
    exact hmap.nodup_iff.mpr hnodup
  obtain ⟨s₂, hprecis, -, hs₂⟩ := run_precis (d := d) hmem hitems hkeys server.precis
  obtain ⟨line₂, hask₂, hline₂, hwire₂⟩ := ask_answer d.login.host (by decide)
    (sendPrecisListRequest_eq d.login.host) server.precis server.serves_precis server.ready_type
    server.ready_fits hline₁ hprecis
  have hsame :=
    keysOf_updated (KeepsName.foldl keepsName_precis server.precis.records.flatten) items
  obtain ⟨s₃, line₃, hask₃, hline₃, hwire₃, hs₃⟩ :=
    requestNetworks_ok hmem server hs₂ (hsame ▸ hkeys) hline₂
  rw [updated_updated] at hs₃
  have hsame₃ := keysOf_updated (((KeepsName.foldl keepsName_precis
    server.precis.records.flatten)).comp (KeepsName.foldl keepsName_info (responses server
      (wanted d (keysOf (updated (fun v => server.precis.records.flatten.foldl PrecisRecord.set v)
        items)))))) items
  rw [hsame] at hask₃ hwire₃ hs₃ hsame₃
  obtain ⟨-, hwire₄, -⟩ := sendMessage_writable d.login.host (m := terminateMessage) (by decide)
    hline₃.writable
  have hrequest : requestChannels d server.serve line = .ok (⟨s₃, q.channelList, ⟨line₃.link,
      (nmxpSendTerminateSubscription d.login.host .normal (some bye) line₃.outlet).2⟩⟩,
      timesNotFound (keysOf items) server.precis.records.flatten ++
        infoEvents server (keysOf items) (wanted d (keysOf items))) := by
    unfold requestChannels
    simp only [hask₁, hask₂, hask₃, ok_bind]
    rfl
  refine ⟨_, _, _, hrequest, hs₃, ?_, fun l hl => ⟨listInHost d.login.host l, ?_,
    lists_inHost _ (hread.length_lt l (List.mem_of_getLast? hl))⟩, hline₃.idle, ?_, ?_⟩
  · have hchannels := hperm.map fun v => (responses server (wanted d (keysOf items))).foldl
      InfoRecord.set (server.precis.records.flatten.foldl PrecisRecord.set v)
    simp only [List.map_map, Function.comp_def, foldl_itemOf] at hchannels
    rw [hsame₃, updated, List.map_map]
    exact hchannels
  · rw [hread.last, hl]
    rfl
  · rw [hsame₃, sendTerminate_eq, hwire₄, hwire₃, hwire₂, hwire₁]
    simp [List.flatMap_map]
  · rw [hsame₃]

include hmem in
/-- **The channels of a server.** After the login the function asks for the channels, the times and
the networks, and returns the channels of the type in the order of their names, each as the answers
describe it; nothing is left on the connection. -/
theorem metaChannels (server : MetaServer) {username password : Option Text} (t : Int32)
    {m : Frame} (htype : m.type = NMXP_MSG_READY) (hbody : m.body = [])
    (hfit : Fits (textBytes username) (textBytes password) t) {s : Stream' RecvEvent}
    (hs : Flowing s) {o : Outlet} (ho : Writable o.schedule)
    (hnodup : ((announced d.datatype server.lists.records).map ChanRecord.key).Nodup) :
    ∃ reply evs items, nmxpGetMetaChannelList d server.serve username password
        ⟨⟨network32 t ++ m.encode, s⟩, o⟩ = .ok (some reply, evs) ∧
      Described d server (o.wire ++
        (connectMessage (textBytes username) (textBytes password) t).encode) reply evs items := by
  obtain ⟨s', o', hlogin, hs', ho', hwire⟩ :=
    login_ready d.login username password t htype hbody hfit hs ho
  have hidle : Line.Idle ⟨⟨[], s'⟩, o'⟩ := ⟨rfl, hs', ho'⟩
  obtain ⟨reply, evs, items, hrequest, hdescribed⟩ := requestChannels_ok hmem server hidle hnodup
  refine ⟨reply, evs, items, ?_, hwire ▸ hdescribed⟩
  unfold nmxpGetMetaChannelList
  rw [hlogin]
  simp only [hrequest, ok_bind]
  rfl

end Session

/-! ### Freeing the list -/

/-- `iter->next`, of a cell that is not freed; a fault leaves the cells that are freed so far. -/
def nextOf (heap : List (Cell NmxpMetaChan)) (freed : List ℕ) :
    Option ℕ → Except (Fault × List ℕ) (Option ℕ)
  | none => .error (.nullPointer, freed)
  | some a =>
    match heap[a]? with
    | some c => if a ∈ freed then .error (.badPointer, freed) else return c.next
    | none => .error (.badPointer, freed)

/-- `while(iter)` of `nmxp_meta_chan_free`. -/
def freeLoop (heap : List (Cell NmxpMetaChan)) :
    ℕ → List ℕ → Option ℕ → Option ℕ → Except (Fault × List ℕ) (List ℕ)
  | 0, freed, _, _ => .error (.endless, freed)
  | _ + 1, freed, none, _ => return freed
  | rounds + 1, freed, some iter, iterNext => do
    let freed := freed ++ [iter]
    let next ← nextOf heap freed iterNext
    freeLoop heap rounds freed iterNext next

/-- **`nmxp_meta_chan_free`**: the cells that are freed. -/
def nmxpMetaChanFree (s : MetaChanList) : Except (Fault × List ℕ) (List ℕ) :=
  match s.chanList with
  | none => return []
  | some iter => do
    let iterNext ← nextOf s.heap [] (some iter)
    freeLoop s.heap (s.heap.length + 1) [] (some iter) iterNext

theorem nextOf_of_isList {heap : List (Cell NmxpMetaChan)} {freed : List ℕ} {p : Option ℕ}
    {x : ℕ × NmxpMetaChan} {l : Items} (h : IsList heap p (x :: l)) (hfreed : x.1 ∉ freed) :
    ∃ next, nextOf heap freed p = .ok next ∧ IsList heap next l := by
  obtain ⟨rfl, next, hcell, hrest⟩ := h
  refine ⟨next, ?_, hrest⟩
  simp only [nextOf, hcell, if_neg hfreed]
  rfl

/-- The loop does not look whether there is a cell behind the last one. -/
theorem freeLoop_fails {heap : List (Cell NmxpMetaChan)} : ∀ {l : Items} {freed : List ℕ}
    {x : ℕ × NmxpMetaChan} {next : Option ℕ} {rounds : ℕ}, IsList heap next l →
    l.length < rounds → (freed ++ x.1 :: l.map Prod.fst).Nodup →
    freeLoop heap rounds freed (some x.1) next =
      .error (.nullPointer, freed ++ x.1 :: l.map Prod.fst)
  | [], freed, x, next, rounds + 1, hnext, _, _ => by
    obtain rfl : next = none := hnext
    rfl
  | y :: l, freed, x, next, rounds + 1, hnext, hrounds, hnodup => by
    have hsplit : freed ++ x.1 :: (y :: l).map Prod.fst =
        (freed ++ [x.1]) ++ y.1 :: l.map Prod.fst := by simp
    rw [hsplit] at hnodup ⊢
    have hy : y.1 ∉ freed ++ [x.1] := fun hmem =>
      (List.nodup_append.mp hnodup).2.2 _ hmem _ List.mem_cons_self rfl
    obtain ⟨next', hload, hrest⟩ := nextOf_of_isList hnext hy
    rw [freeLoop]
    simp only [hload, ok_bind]
    rw [hnext.1]
    exact freeLoop_fails hrest (Nat.lt_of_succ_lt_succ hrounds) hnodup

/-- **`nmxp_meta_chan_free` does not return from a list with channels.** It frees them all, each
once and in order, and follows the NULL behind the last. -/
theorem metaChanFree_spec {s : MetaChanList} {items : Items}
    (h : IsList s.heap s.chanList items) :
    nmxpMetaChanFree s =
      if items = [] then .ok [] else .error (.nullPointer, items.map Prod.fst) := by
  unfold nmxpMetaChanFree
  cases items with
  | nil =>
    have hnull : s.chanList = none := h
    rw [hnull]
    rfl
  | cons x items =>
    have hnodup := h.nodup
    have hrounds : items.length < s.heap.length + 1 :=
      (Nat.le_of_succ_le h.length_le).trans_lt (Nat.lt_succ_self _)
    obtain ⟨next, hload, hrest⟩ := nextOf_of_isList h (List.not_mem_nil (a := x.1))
    rw [if_neg (List.cons_ne_nil _ _), h.1]
    rw [h.1] at hload
    simp only [hload, ok_bind]
    exact freeLoop_fails hrest hrounds hnodup

theorem metaChanFree_spec_one : nmxpMetaChanFree ⟨[⟨itemOf oneRecord, none⟩], some 0⟩ =
    .error (.nullPointer, [0]) := by
  have hlist : IsList [⟨itemOf oneRecord, none⟩] (some 0) [(0, itemOf oneRecord)] :=
    ⟨rfl, none, rfl, rfl⟩
  exact metaChanFree_spec (s := ⟨[⟨itemOf oneRecord, none⟩], some 0⟩) hlist

/-! ### A server with two channels -/

def NMXP_MSG_PRECISLIST : Int32 := 253
def NMXP_MSG_CHANNELHEADER : Int32 := 256

/-- What a server sends for a request, by its type and its key. -/
def answering (lists precis : List Message) (info : Int32 → List Message) (sent : List UInt8) :
    List UInt8 :=
  ((if msgField .big sent 4 = NMXP_MSG_CHANNELLISTREQUEST then lists
    else if msgField .big sent 4 = NMXP_MSG_PRECISLISTREQUEST then precis
    else info (msgField .big sent 12)) ++ [readyMessage]).flatMap Message.encode

theorem answering_info (lists precis : List Message) (info : Int32 → List Message) (key : Int32) :
    answering lists precis info (channelInfoRequest key).encode =
      (info key ++ [readyMessage]).flatMap Message.encode := by
  have hencode : (channelInfoRequest key).encode = network32 NMX_SIGNATURE ++
      (network32 NMXP_MSG_CHANNELINFOREQUEST ++ (network32 (channelInfoRequest key).length ++
        (network32 key ++ network32 0))) := by
    simp only [Message.encode, Message.header, List.append_assoc]
    rfl
  have htype : msgField .big (channelInfoRequest key).encode 4 = NMXP_MSG_CHANNELINFOREQUEST := by
    rw [hencode]
    exact (msgField_append .big _ _ _ rfl).trans (load_network32 _)
  have hkey : msgField .big (channelInfoRequest key).encode 12 = key := by
    have hfront : (network32 NMX_SIGNATURE ++ (network32 NMXP_MSG_CHANNELINFOREQUEST ++
        network32 (channelInfoRequest key).length)).length = 12 := by simp
    have hread := msgField_append .big _ (network32 0) key hfront.symm
    simp only [List.append_assoc] at hread
    rw [hencode, hread, load_network32]
  rw [answering, htype, hkey, if_neg (by decide), if_neg (by decide)]

/-- A channel with the number 0, and its network. -/
def firstRecord : ChanRecord := ⟨0x100, [83, 84, 65, 46, 66, 72, 69], by decide, by decide⟩

def firstInfo : InfoRecord := ⟨firstRecord, [73, 86], by decide, by decide⟩

def firstPrecis : List PrecisRecord :=
  [⟨firstRecord, 10, 20⟩, ⟨oneRecord, 5, 6⟩, ⟨firstRecord, 30, 40⟩]

theorem precisList_ne : NMXP_MSG_PRECISLIST ≠ 0 := by decide
theorem channelHeader_ne : NMXP_MSG_CHANNELHEADER ≠ 0 := by decide

/-- The server sends the times of the first channel twice. -/
def twoChannels : MetaServer where
  serve := answering [listMessage [firstRecord, oneRecord] (by decide)]
    [⟨NMXP_MSG_PRECISLIST, precisBody firstPrecis, precisList_ne, by decide⟩]
    fun key => if key = 0x100 then
      [⟨NMXP_MSG_CHANNELHEADER, firstInfo.body, channelHeader_ne, by decide⟩] else []
  ready := readyMessage
  lists := ⟨[listMessage [firstRecord, oneRecord] (by decide)], [[firstRecord, oneRecord]],
    .cons ⟨rfl, by decide, by decide⟩ .nil⟩
  precis := ⟨[⟨NMXP_MSG_PRECISLIST, precisBody firstPrecis, precisList_ne, by decide⟩],
    [firstPrecis], .cons ⟨rfl, by decide, by decide⟩ .nil⟩
  info key := if key = 0x100 then
      ⟨[⟨NMXP_MSG_CHANNELHEADER, firstInfo.body, channelHeader_ne, by decide⟩], [firstInfo],
        .cons ⟨rfl, by decide, by decide⟩ .nil⟩
    else ⟨[], [], .nil⟩
  ready_type := readyMessage_type
  ready_fits := readyMessage_fits
  serves_lists := rfl
  serves_precis := rfl
  serves_info key := by
    rw [answering_info]
    split_ifs <;> rfl

/-- The channels of time series, with the networks. -/
def allWanted : MetaSetting :=
  ⟨⟨.little, 0, Vector.replicate 256 0⟩, zeroMalloc, .timeseries, true⟩

def loginReady : Frame := ⟨NMXP_MSG_READY, [], noBody_lt⟩

/-- The last times count, and the channel with the number 1 has no network. -/
theorem metaChannels_two : ∃ reply evs items,
    nmxpGetMetaChannelList allWanted twoChannels.serve none none
      ⟨⟨network32 1000 ++ loginReady.encode, Stream'.const (.chunk 7)⟩, freshOutlet⟩ =
        .ok (some reply, evs) ∧ Holds reply.chanList items ∧ (items.map Prod.snd).Perm
      [⟨0x100, "STA.BHE".toList, 30, 40, "IV".toList⟩, ⟨0x101, "STA.BHZ".toList, 5, 6, []⟩] := by
  have hmem : ∀ n ≤ NMXP_MAX_LENGTH_DATA_BUFFER, allWanted.malloc.alloc n ≠ none := fun n hn =>
    zeroMalloc_ne_none n (hn.trans (by decide))
  have hfit : Fits (textBytes none) (textBytes none) 1000 := by decide
  have hflow : Flowing (Stream'.const (.chunk 7)) := fun _ => ⟨7, rfl⟩
  have hopen : Writable freshOutlet.schedule := fun _ => ⟨100, rfl, by decide⟩
  have hready : loginReady.type = NMXP_MSG_READY := rfl
  obtain ⟨reply, evs, items, hrun, h⟩ :=
    metaChannels hmem twoChannels 1000 hready rfl hfit hflow hopen (by decide)
  have hkeys : (keysOf items).Perm [0x100, 0x101] := by
    have hmap := h.channels.map NmxpMetaChan.key
    rw [List.map_map, List.map_map] at hmap
    exact hmap
  have hasked : wanted allWanted (keysOf items) = [0x100] :=
    List.perm_singleton.mp (hkeys.filter fun key => getChannelNumberFromKey key = 0)
  have hchannels := h.channels
  rw [hasked] at hchannels
  exact ⟨reply, evs, items, hrun, h.holds, hchannels⟩

end Nmxptool.Chan.MetaSession
