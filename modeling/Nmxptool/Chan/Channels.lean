import Nmxptool.Data.Process

/-! # Channel lists

The list of subscribed channels, `NMXP_CHAN_LIST_NET`, with the functions that look a key up and
that split a name into its codes. -/

namespace Nmxptool.Chan.Channels

open Nmxptool.Data.Process

def NMXP_CHAN_MAX_SIZE_NAME : ℕ := 24
def NMXP_CHAN_MAX_SIZE_STR_PATTERN : ℕ := 20

/-- `NMXP_CHAN_KEY_NET`. The names in a list are put together by `%s.%s.%s`, and are not empty. -/
structure NmxpChanKeyNet where
  key : Int32
  name : CStr
  name_ne : name ≠ []
  deriving DecidableEq

/-- `NMXP_CHAN_LIST_NET`. -/
structure NmxpChanListNet where
  channel : List NmxpChanKeyNet
  deriving DecidableEq

/-- A list with one channel. -/
def oneChannel (key : Int32) : NmxpChanListNet :=
  ⟨[⟨key, ['N', '.', 'S', '.', 'C'], by decide⟩]⟩

/-- The field `number`. -/
def NmxpChanListNet.number (l : NmxpChanListNet) : ℕ := l.channel.length

/-- `nmxp_chan_lookupName`: the name of the last channel with the key, unless that is empty. -/
def nmxpChanLookupName (key : Int32) (channelList : NmxpChanListNet) : Option CStr :=
  let ret := channelList.channel.foldl
    (fun ret ch => if key = ch.key then strncpy ch.name NMXP_CHAN_MAX_SIZE_NAME else ret) []
  if ret = [] then none else some ret

/-- A key of the list has a name. -/
theorem nmxpChanLookupName_isSome {key : Int32} {channelList : NmxpChanListNet}
    (h : ∃ ch ∈ channelList.channel, ch.key = key) :
    ∃ name, nmxpChanLookupName key channelList = some name := by
  have hfold : ∀ (l : List NmxpChanKeyNet) (acc : CStr), (acc ≠ [] ∨ ∃ ch ∈ l, ch.key = key) →
      l.foldl (fun ret ch =>
        if key = ch.key then strncpy ch.name NMXP_CHAN_MAX_SIZE_NAME else ret) acc ≠ [] := by
    intro l
    induction l with
    | nil => exact fun acc h => h.resolve_right (by simp)
    | cons ch l ih =>
      intro acc h
      refine ih _ ?_
      by_cases hk : key = ch.key
      · left
        dsimp only
        rw [if_pos hk]
        exact fun hnil => ch.name_ne (by simpa [strncpy, NMXP_CHAN_MAX_SIZE_NAME] using hnil)
      · dsimp only
        rw [if_neg hk]
        refine h.imp id ?_
        rintro ⟨c, hc, rfl⟩
        rcases List.mem_cons.mp hc with rfl | hc
        · exact absurd rfl hk
        · exact ⟨c, hc, rfl⟩
  unfold nmxpChanLookupName
  exact ⟨_, if_neg (hfold _ _ (Or.inr h))⟩

/-- A key that is not in the list has no name. -/
theorem nmxpChanLookupName_eq_none {key : Int32} {channelList : NmxpChanListNet} :
    nmxpChanLookupName key channelList = none ↔ key ∉ channelList.channel.map (·.key) := by
  constructor
  · intro h hmem
    obtain ⟨ch, hch, hk⟩ := List.mem_map.mp hmem
    obtain ⟨name, hname⟩ := nmxpChanLookupName_isSome ⟨ch, hch, hk⟩
    exact absurd (h.symm.trans hname) (by simp)
  · intro h
    have hfold : ∀ (l : List NmxpChanKeyNet), (∀ ch ∈ l, key ≠ ch.key) → l.foldl (fun ret ch =>
        if key = ch.key then strncpy ch.name NMXP_CHAN_MAX_SIZE_NAME else ret) [] = [] := by
      intro l
      induction l with
      | nil => exact fun _ => rfl
      | cons ch l ih =>
        intro hl
        rw [List.foldl_cons, if_neg (hl ch (by simp))]
        exact ih fun c hc => hl c (List.mem_cons_of_mem _ hc)
    unfold nmxpChanLookupName
    rw [hfold _ fun ch hch he => h (List.mem_map.mpr ⟨ch, hch, he.symm⟩)]
    rfl

/-- A key that is in the list once has the name stored there. -/
theorem nmxpChanLookupName_of_nodup {channelList : NmxpChanListNet}
    (h : (channelList.channel.map (·.key)).Nodup) {ch : NmxpChanKeyNet}
    (hch : ch ∈ channelList.channel) :
    nmxpChanLookupName ch.key channelList =
      some (strncpy ch.name NMXP_CHAN_MAX_SIZE_NAME) := by
  have hfold : ∀ (l : List NmxpChanKeyNet) (acc : CStr), (l.map (·.key)).Nodup →
      (ch ∈ l ∨ ch.key ∉ l.map (·.key) ∧ acc = strncpy ch.name NMXP_CHAN_MAX_SIZE_NAME) →
      l.foldl (fun ret c => if ch.key = c.key then strncpy c.name NMXP_CHAN_MAX_SIZE_NAME
        else ret) acc = strncpy ch.name NMXP_CHAN_MAX_SIZE_NAME := by
    intro l
    induction l with
    | nil => exact fun acc _ h => h.elim (fun h => absurd h (by simp)) And.right
    | cons c l ih =>
      intro acc hnd h
      rw [List.map_cons, List.nodup_cons] at hnd
      refine ih _ hnd.2 ?_
      rcases h with h | ⟨h, rfl⟩
      · rcases List.mem_cons.mp h with rfl | h
        · exact Or.inr ⟨hnd.1, if_pos rfl⟩
        · exact Or.inl h
      · rw [List.map_cons, List.mem_cons, not_or] at h
        exact Or.inr ⟨h.2, if_neg h.1⟩
  have hne : strncpy ch.name NMXP_CHAN_MAX_SIZE_NAME ≠ [] :=
    fun hnil => ch.name_ne (by simpa [strncpy, NMXP_CHAN_MAX_SIZE_NAME] using hnil)
  unfold nmxpChanLookupName
  rw [hfold _ [] h (Or.inl hch)]
  exact if_neg hne

/-- `nmxp_chan_lookupKeyIndex`: the first position of the key, or `-1`. -/
def nmxpChanLookupKeyIndex (key : Int32) (channelList : NmxpChanListNet) : ℤ :=
  match channelList.channel.findIdx? (fun ch => key = ch.key) with
  | some i => i
  | none => -1

theorem nmxpChanLookupKeyIndex_eq_neg_one {key : Int32} {channelList : NmxpChanListNet} :
    nmxpChanLookupKeyIndex key channelList = -1 ↔ key ∉ channelList.channel.map (·.key) := by
  unfold nmxpChanLookupKeyIndex
  cases h : channelList.channel.findIdx? (fun ch => key = ch.key) with
  | none =>
    rw [List.findIdx?_eq_none_iff] at h
    refine iff_of_true rfl fun hmem => ?_
    obtain ⟨ch, hch, hk⟩ := List.mem_map.mp hmem
    exact absurd hk.symm (by simpa using h ch hch)
  | some i =>
    obtain ⟨hi, hk, -⟩ := List.findIdx?_eq_some_iff_getElem.mp h
    refine iff_of_false (by dsimp only; omega) fun hmem => hmem ?_
    exact List.mem_map.mpr ⟨_, List.getElem_mem hi, by simpa [eq_comm] using hk⟩

/-- An index that is not `-1` is in range, and the key stands there. -/
theorem nmxpChanLookupKeyIndex_spec {key : Int32} {channelList : NmxpChanListNet}
    (h : key ∈ channelList.channel.map (·.key)) :
    ∃ i, ∃ hi : i < channelList.number, nmxpChanLookupKeyIndex key channelList = i ∧
      (channelList.channel.get ⟨i, hi⟩).key = key := by
  unfold nmxpChanLookupKeyIndex
  cases hf : channelList.channel.findIdx? (fun ch => key = ch.key) with
  | none =>
    rw [List.findIdx?_eq_none_iff] at hf
    obtain ⟨ch, hch, hk⟩ := List.mem_map.mp h
    exact absurd hk.symm (by simpa using hf ch hch)
  | some i =>
    obtain ⟨hi, hk, -⟩ := List.findIdx?_eq_some_iff_getElem.mp hf
    exact ⟨i, hi, rfl, by simpa [eq_comm] using hk⟩

/-! ### The codes of a name -/

/-- The four codes that `nmxp_chan_cpy_sta_chan` fills in; an absent one is the empty string. -/
structure StaChanCodes where
  station : CStr := []
  channel : CStr := []
  network : CStr := []
  location : CStr := []
  deriving DecidableEq

/-- One code, in its array. -/
def code (s : CStr) : CStr := strncpy s NMXP_CHAN_MAX_SIZE_STR_PATTERN

/-- `nmxp_chan_cpy_sta_chan`: what it returns, and the codes. -/
def nmxpChanCpyStaChan (name : CStr) : Bool × StaChanCodes :=
  match name.splitOn '.' with
  | [net, sta, cha, loc] =>
    (true, { network := code net, station := code sta, channel := code cha, location := code loc })
  | [a, b, c] =>
    if b.length = 3 ∧ c.length = 2 then
      (true, { station := code a, channel := code b, location := code c })
    else if a.length = 2 ∧ c.length = 3 then
      (true, { network := code a, station := code b, channel := code c })
    else (true, {})
  | [sta, cha] => (true, { station := code sta, channel := code cha })
  | _ => (false, {})

/-- The codes of a packet: an absent network or location code takes its default. -/
def copyCodes {τ : Type} (codes : StaChanCodes) (networkCodeDefault locationCodeDefault : CStr)
    (pd : NmxpDataProcess τ) : NmxpDataProcess τ :=
  { pd with
    network := strncpy (if codes.network ≠ [] then codes.network else networkCodeDefault)
      NMXP_DATA_NETWORK_LENGTH
    station := if codes.station ≠ [] then strncpy codes.station NMXP_DATA_STATION_LENGTH
      else pd.station
    channel := if codes.channel ≠ [] then strncpy codes.channel NMXP_DATA_CHANNEL_LENGTH
      else pd.channel
    location := strncpy (if codes.location ≠ [] then codes.location else locationCodeDefault)
      NMXP_DATA_LOCATION_LENGTH }

end Nmxptool.Chan.Channels
