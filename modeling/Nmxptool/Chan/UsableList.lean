import Nmxptool.Chan.ChannelList

/-! # Replies that give a usable list

`nmxp_receiveChannelList` takes the count at the start of a body for what the body holds, whatever
the message was. The list may then count entries that were never received.

* `length_of_received`: what a message that was received leaves in the buffer.
* `getTypeWithin_isSome`: when `nmxp_chan_getType` stays below a bound on the entries.
* `usable_iff`: which replies of the server give a list that can be used. -/

namespace Nmxptool.Chan.UsableList

open Nmxptool.Lib.Block Nmxptool.Lib.Bytes Nmxptool.Lib.Recv
open Nmxptool.Wire.Model Nmxptool.Wire.Framing Nmxptool.Chan.Channels Nmxptool.Chan.Match
open Nmxptool.Chan.ChannelList

/-- How many entries lie inside a message of this length. -/
def entryBound (length : Int32) : ℤ := (length.toInt - 4) / 16

/-- `nmxp_chan_getType`, where the list that it reads and the list that it fills both end behind
their first `m` entries. -/
def getTypeWithin (host : Host) (malloc : Malloc) (m : ℕ) (list : List UInt8)
    (dataType : NmxpDatatype) : Option (List UInt8) := do
  let number ← readInt host (list.take (keyOff m)) 0
  let ret ← malloc.alloc SIZEOF_CHAN_LIST
  let ret ← writeInt host ret 0 0
  getTypeLoop host (list.take (keyOff m)) dataType number.toInt.toNat 0 (ret.take (keyOff m))

/-- **A reply that is used without checking**, for a message of the length: where the call returns
well, there is a list, it counts entries of the message only, and `nmxp_chan_getType` reads and
writes below that bound. -/
def Usable (host : Host) (malloc : Malloc) (dataType : NmxpDatatype) (length : Int32)
    (reply : Option ChannelListReply) : Prop :=
  ∃ r, reply = some r ∧
    (r.ret = NMXP_SOCKET_OK → ∃ list number, r.pchannelList = some list ∧
      readInt host list 0 = some number ∧
      (0 ≤ number.toInt ∧ number.toInt ≤ entryBound length ∧ number.toInt ≤ MAX_N_CHAN) ∧
      (∀ i < number.toInt.toNat, keyOff i + SIZEOF_CHAN_KEY ≤ length.toInt.toNat) ∧
      (getTypeWithin host malloc (entryBound length).toNat list dataType).isSome)

/-- What a message has to be like: it is as long as it counts. Where it counts all entries that lie
inside it, the last one has to have its name terminated in its array if it is of the type, so that
`strncpy` does not read behind the message; and one of them has to be of another type, since
`strncpy` writes 24 bytes into the 12 of the last name. -/
structure GoodReply (dataType : NmxpDatatype) (r : Received) : Prop where
  count_nonneg : 0 ≤ (countOf r.body).toInt
  count_le : (countOf r.body).toInt ≤ entryBound r.length
  terminated : (countOf r.body).toInt = entryBound r.length →
    ∀ e ∈ (entriesOf r.body (entryBound r.length).toNat).getLast?, OfType dataType e → 0 ∈ e.2
  room : (countOf r.body).toInt = entryBound r.length → 0 < (countOf r.body).toInt →
    ∃ e ∈ entriesOf r.body (entryBound r.length).toNat, ¬OfType dataType e

/-- What a call of `nmxp_recv_ctrl` that returns well gives. -/
theorem length_of_nmxpRecvCtrl {n : ℕ} {link : Link UInt8}
    (h : (nmxpRecvCtrl n link).ret = NMXP_SOCKET_OK) : (nmxpRecvCtrl n link).buffer.length = n := by
  unfold nmxpRecvCtrl at h ⊢
  dsimp only at h ⊢
  by_cases hlen : (recvLoop n n ⟨1, 0, [], link⟩).got.length = n
  · split_ifs <;> exact hlen
  · rw [if_pos (Or.inl hlen), if_pos (Or.inl hlen)] at h
    exact absurd h error_ne_ok

/-- A message that was received lies in the buffer. -/
theorem length_of_received {bufferLength : ℕ} {link : Link UInt8} {r : Received}
    {link' : Link UInt8} (hr : nmxpReceiveMessage host bufferLength link = (r, link'))
    (h : r.ret = NMXP_SOCKET_OK) :
    r.body.length = r.length.toInt.toNat ∧ r.length.toInt ≤ bufferLength := by
  have hbody : (nmxpReceiveHeader host link).1.body = [] := by
    unfold nmxpReceiveHeader
    dsimp only
    split_ifs <;> rfl
  unfold nmxpReceiveMessage at hr
  obtain ⟨hd, link1⟩ := nmxpReceiveHeader host link
  dsimp only at hr hbody
  split_ifs at hr with hok hbig hpos
  · obtain ⟨rfl, -⟩ := Prod.mk.inj hr
    exact absurd h error_ne_ok
  · obtain ⟨rfl, -⟩ := Prod.mk.inj hr
    dsimp only at h ⊢
    exact ⟨length_of_nmxpRecvCtrl h, not_lt.mp hbig⟩
  · obtain ⟨rfl, -⟩ := Prod.mk.inj hr
    rw [hbody]
    exact ⟨(Int.toNat_of_nonpos (not_lt.mp hpos)).symm, not_lt.mp hbig⟩
  · obtain ⟨rfl, -⟩ := Prod.mk.inj hr
    exact absurd h hok

/-- The entries of a list, in the part of the block that holds `m` entries. -/
theorem lists_take {l : List (Int32 × List UInt8)} {m : ℕ} (hl : Lists host b l)
    (hlm : l.length ≤ m) (hm : keyOff m ≤ b.length) : Lists host (b.take (keyOff m)) l := by
  refine ⟨?_, fun j hj => ?_, fun j hj => ?_⟩
  · rw [readInt, readAt_take (by unfold keyOff; omega) hm]
    exact hl.number
  · rw [readInt, readAt_take (by unfold keyOff; omega) hm]
    exact hl.key j hj
  · rw [readAt_take (by unfold keyOff nameOff NMXP_CHAN_KEY_NAME_SIZE; omega) hm]
    exact hl.name j hj

/-- Where `strncpy` stays inside the entries: the name is not the last one, or it ends in its
array. -/
theorem strncpySource_entry {l : List (Int32 × List UInt8)} {m j : ℕ} (hl : Lists host b l)
    (hb : b.length = keyOff m) (hlm : l.length ≤ m) (hj : j < l.length) :
    (strncpySource b (nameOff j) NMXP_CHAN_MAX_SIZE_NAME).isSome ↔ j + 1 < m ∨ 0 ∈ l[j].2 := by
  rw [strncpySource_isSome, hb]
  unfold keyOff nameOff NMXP_CHAN_MAX_SIZE_NAME
  by_cases hlast : j + 1 < m
  · simp only [hlast, true_or, iff_true]
    omega
  · have hname := hl.name j hj
    unfold nameOff NMXP_CHAN_KEY_NAME_SIZE at hname
    have hend : (b.drop (8 + 16 * j)).take 12 = b.drop (8 + 16 * j) :=
      List.take_of_length_le (by rw [List.length_drop, hb]; unfold keyOff; omega)
    rw [readAt_of_le (by rw [hb]; unfold keyOff; omega), hend] at hname
    rw [Option.some.inj hname]
    simp only [hlast, false_or]
    constructor
    · rintro (h | h | h)
      · omega
      · exact absurd h (by decide)
      · exact h
    · exact fun h => Or.inr (Or.inr h)

/-- With room for all entries of a list, nothing is cut off. -/
theorem getTypeWithin_of_le (malloc : Malloc) {m : ℕ} {list : List UInt8}
    (hlist : list.length ≤ keyOff m) (hm : MAX_N_CHAN ≤ m) (dataType : NmxpDatatype) :
    getTypeWithin host malloc m list dataType = nmxpChanGetType host malloc list dataType := by
  have hwhole {ret r : List UInt8} (hr : malloc.alloc SIZEOF_CHAN_LIST = some r)
      (h : writeInt host r 0 0 = some ret) : ret.take (keyOff m) = ret := by
    refine List.take_of_length_le ?_
    rw [length_of_writeInt h, malloc.length_alloc _ _ hr]
    unfold SIZEOF_CHAN_LIST SIZEOF_CHAN_KEY keyOff
    omega
  unfold getTypeWithin nmxpChanGetType
  rw [List.take_of_length_le hlist]
  refine congrArg _ (funext fun number => Option.bind_congr fun r hr => ?_)
  exact Option.bind_congr fun ret h => by rw [hwhole hr h]

/-- The channels that are copied all lie below the bound, where they are fewer than it. -/
theorem room_iff {dataType : NmxpDatatype} {l : List (Int32 × List UInt8)} {m : ℕ}
    (hlm : l.length ≤ m) :
    (∀ k < (l.filter (OfType dataType ·)).length, k + 1 < m) ↔
      (l.length = m → 0 < l.length → ∃ e ∈ l, ¬OfType dataType e) := by
  have hle := List.length_filter_le (OfType dataType ·) l
  constructor
  · intro h hlen hpos
    by_contra! hall
    rw [List.filter_eq_self.mpr fun e he => decide_eq_true (hall e he)] at h
    exact absurd (h (l.length - 1) (by omega)) (by omega)
  · intro h k hk
    by_cases hlen : l.length = m
    · have hlt := List.length_filter_lt_length_iff_exists.mpr
        ((h hlen (by omega)).imp fun e he => ⟨he.1, fun ht => he.2 (of_decide_eq_true ht)⟩)
      omega
    · omega

/-- The names that are copied are terminated below the bound, where the last one is. -/
theorem sources_iff {dataType : NmxpDatatype} {l : List (Int32 × List UInt8)} {m : ℕ}
    (hl : Lists host b l) (hb : b.length = keyOff m) (hlm : l.length ≤ m) :
    (∀ j (hj : j < l.length), 0 ≤ j → OfType dataType l[j] →
        (strncpySource b (nameOff j) NMXP_CHAN_MAX_SIZE_NAME).isSome) ↔
      (l.length = m → ∀ e ∈ l.getLast?, OfType dataType e → 0 ∈ e.2) := by
  constructor
  · intro h hlen e he htype
    rw [Option.mem_def, List.getLast?_eq_getElem?, List.getElem?_eq_some_iff] at he
    obtain ⟨hj, rfl⟩ := he
    have hsource := h _ hj (Nat.zero_le _) htype
    exact ((strncpySource_entry hl hb hlm hj).mp hsource).resolve_left (by omega)
  · intro h j hj _ htype
    rw [strncpySource_entry hl hb hlm hj]
    by_cases hjm : j + 1 < m
    · exact Or.inl hjm
    · refine Or.inr (h (by omega) l[j] ?_ htype)
      rw [Option.mem_def, List.getLast?_eq_getElem?, List.getElem?_eq_some_iff]
      exact ⟨by omega, by congr 1; omega⟩

/-- **When `nmxp_chan_getType` stays below the bound**: it depends on the entries only where there
are as many as the bound. -/
theorem getTypeWithin_isSome {malloc : Malloc} (hmem : malloc.alloc SIZEOF_CHAN_LIST ≠ none)
    (dataType : NmxpDatatype) {l : List (Int32 × List UInt8)} {m : ℕ} (hl : Lists host b l)
    (hm : keyOff m ≤ b.length) (hlm : l.length ≤ m) (hmax : m < MAX_N_CHAN) :
    (getTypeWithin host malloc m b dataType).isSome ↔
      (l.length = m → ∀ e ∈ l.getLast?, OfType dataType e → 0 ∈ e.2) ∧
        (l.length = m → 0 < l.length → ∃ e ∈ l, ¬OfType dataType e) := by
  have hl' := lists_take hl hlm hm
  obtain ⟨r, ret, hr, h0, hret, hempty⟩ := @alloc_list host _ hmem
  have hm' : keyOff m ≤ ret.length := by
    rw [hret]
    unfold SIZEOF_CHAN_LIST SIZEOF_CHAN_KEY keyOff
    omega
  have hn : (int32 l.length).toNatClampNeg = l.length :=
    toInt_toNat_int32 (by unfold MAX_N_CHAN at hmax; omega)
  have hrun : getTypeWithin host malloc m b dataType = getTypeLoop host (b.take (keyOff m))
      dataType l.length 0 (ret.take (keyOff m)) := by
    simp [getTypeWithin, hl'.number, hr, h0, hn]
  have hlen : (ret.take (keyOff m)).length = keyOff m := by
    rw [List.length_take, Nat.min_eq_left hm']
  rw [hrun, getTypeLoop_isSome hl' (hlm.trans_lt hmax) l.length 0 (by omega)
      (lists_take hempty (Nat.zero_le m) hm') le_rfl,
    sources_iff hl' (by rw [List.length_take, Nat.min_eq_left hm]) hlm, hlen, ← room_iff hlm,
    List.drop_zero]
  refine and_congr_right fun _ => forall₂_congr fun k _ => ?_
  unfold nameOff keyOff NMXP_CHAN_MAX_SIZE_NAME
  rw [List.length_nil]
  omega

/-- The loop does not write the count. -/
theorem readInt_convertKeys {left i : ℕ} (h : convertKeys host left i b = some b') :
    readInt host b' 0 = readInt host b 0 := by
  induction left generalizing i b with
  | zero => rw [Option.some.inj h]
  | succ left ih =>
    rw [convertKeys] at h
    obtain ⟨key, -, h⟩ := Option.bind_eq_some_iff.mp h
    obtain ⟨b1, h1, h⟩ := Option.bind_eq_some_iff.mp h
    rw [ih h, readInt_writeInt_other h1 (Or.inl (by unfold keyOff; omega))]

/-- A body of which a list becomes has a count, which the list shows. -/
theorem countOf_of_convertList {body block list : List UInt8} (hblock : block.length = body.length)
    (h : convertList host body body.length block = some list) :
    4 ≤ body.length ∧ readInt host list 0 = some (countOf body) := by
  by_cases h4 : 4 ≤ body.length
  · obtain ⟨b, -, hnumber, -, heq⟩ := convertList_eq host hblock h4
    rw [heq] at h
    exact ⟨h4, (readInt_convertKeys h).trans hnumber⟩
  · rw [convertList_short hblock (not_le.mp h4)] at h
    exact absurd h (by simp)

/-- The reply that becomes of a message for which there is a block. -/
theorem usable_block {malloc : Malloc} (hmem : malloc.alloc SIZEOF_CHAN_LIST ≠ none)
    (dataType : NmxpDatatype) {r : Received} {block : List UInt8}
    (hbody : (r.body.length : ℤ) = r.length.toInt)
    (hmax : r.body.length ≤ NMXP_MAX_LENGTH_DATA_BUFFER) (hblock : block.length = r.body.length) :
    Usable host malloc dataType r.length
        ((convertList host r.body r.body.length block).map fun list =>
          ⟨NMXP_SOCKET_OK, some list⟩) ↔
      GoodReply dataType r := by
  unfold NMXP_MAX_LENGTH_DATA_BUFFER at hmax
  have hbound : entryBound r.length = ((r.body.length : ℤ) - 4) / 16 := by rw [entryBound, hbody]
  constructor
  · rintro ⟨reply, hreply, huse⟩
    obtain ⟨list, hlist, rfl⟩ := Option.map_eq_some_iff.mp hreply
    obtain ⟨list', number, hlist', hnumber, ⟨hnonneg, hle, -⟩, -, htype⟩ := huse rfl
    obtain rfl := Option.some.inj hlist'
    obtain ⟨h4, hcount⟩ := countOf_of_convertList hblock hlist
    obtain rfl := Option.some.inj (hcount.symm.trans hnumber)
    suffices hgood : (countOf r.body).toInt = entryBound r.length →
        (∀ e ∈ (entriesOf r.body (entryBound r.length).toNat).getLast?,
          OfType dataType e → 0 ∈ e.2) ∧
        (0 < (countOf r.body).toInt →
          ∃ e ∈ entriesOf r.body (entryBound r.length).toNat, ¬OfType dataType e) from
      ⟨hnonneg, hle, fun heq => (hgood heq).1, fun heq => (hgood heq).2⟩
    intro heq
    obtain ⟨n, hn⟩ := Int.eq_ofNat_of_zero_le hnonneg
    obtain ⟨list', hlist', hlen, hlists⟩ := receive_channelList host hblock hn (by omega)
    obtain rfl := Option.some.inj (hlist'.symm.trans hlist)
    have hm : (entryBound r.length).toNat = n := by omega
    rw [hm] at htype ⊢
    have hkey : keyOff n ≤ list'.length := by rw [hlen]; unfold keyOff; omega
    obtain ⟨hlast, hroom⟩ := (getTypeWithin_isSome hmem dataType hlists hkey
      (length_entriesOf _ _).le (by unfold MAX_N_CHAN; omega)).mp htype
    refine ⟨hlast (length_entriesOf _ _), fun hpos => hroom (length_entriesOf _ _) ?_⟩
    rw [length_entriesOf]
    omega
  · rintro ⟨hnonneg, hle, hlast, hroom⟩
    obtain ⟨n, hn⟩ := Int.eq_ofNat_of_zero_le hnonneg
    obtain ⟨m, hm⟩ := Int.eq_ofNat_of_zero_le (hnonneg.trans hle)
    obtain ⟨list, hlist, hlen, hlists⟩ := receive_channelList host hblock hn (by omega)
    have hint : int32 n = countOf r.body := int32_of_toInt hn
    refine ⟨_, by rw [hlist]; rfl, fun _ => ⟨list, countOf r.body, rfl, ?_, ?_, ?_, ?_⟩⟩
    · rw [hlists.number, length_entriesOf, hint]
    · unfold MAX_N_CHAN
      exact ⟨hnonneg, hle, by omega⟩
    · intro i hi
      unfold keyOff SIZEOF_CHAN_KEY
      omega
    · rw [hm, Int.toNat_natCast] at hlast hroom ⊢
      have hkey : keyOff m ≤ list.length := by rw [hlen]; unfold keyOff; omega
      rw [getTypeWithin_isSome hmem dataType hlists hkey (by rw [length_entriesOf]; omega)
        (by unfold MAX_N_CHAN; omega), length_entriesOf]
      refine ⟨?_, ?_⟩
      · rintro rfl
        exact hlast hn
      · rintro rfl hpos
        exact hroom hn (by omega)

/-- A message of another type is returned as a list that is not there. -/
theorem not_usable_of_type {malloc : Malloc} {link : Link UInt8} {r : Received}
    {link' : Link UInt8}
    (hr : nmxpReceiveMessage host NMXP_MAX_LENGTH_DATA_BUFFER link = (r, link'))
    (hok : r.ret = NMXP_SOCKET_OK) (htype : r.type ≠ NMXP_MSG_CHANNELLIST)
    (dataType : NmxpDatatype) :
    ¬Usable host malloc dataType r.length (nmxpReceiveChannelList host malloc link) := by
  unfold nmxpReceiveChannelList
  rw [hr]
  simp [hok, htype, Usable]

/-- **Which replies are usable**: a message that is received has to be a channel list for which
there is no block, or which is as long as it counts and leaves `strncpy` room behind the last name
that is copied. -/
theorem usable_iff (host : Host) {malloc : Malloc} (hmem : malloc.alloc SIZEOF_CHAN_LIST ≠ none)
    (dataType : NmxpDatatype) (link : Link UInt8) {r : Received} {link' : Link UInt8}
    (hr : nmxpReceiveMessage host NMXP_MAX_LENGTH_DATA_BUFFER link = (r, link')) :
    Usable host malloc dataType r.length (nmxpReceiveChannelList host malloc link) ↔
      (r.ret = NMXP_SOCKET_OK → r.type = NMXP_MSG_CHANNELLIST ∧
        (malloc.alloc (sizeT r.length) = none ∨ GoodReply dataType r)) := by
  by_cases hok : r.ret = NMXP_SOCKET_OK
  · obtain ⟨hlen, hmax⟩ := length_of_received hr hok
    by_cases htype : r.type = NMXP_MSG_CHANNELLIST
    · unfold nmxpReceiveChannelList
      rw [hr]
      cases hblock : malloc.alloc (sizeT r.length) with
      | none =>
        simp [hok, htype, hblock, Usable, error_ne_ok]
      | some block =>
        have hnonneg : 0 ≤ r.length.toInt := by
          by_contra hneg
          have hhuge : 2 ^ 63 ≤ sizeT r.length := by
            have := r.length.le_toInt
            unfold sizeT
            omega
          rw [malloc.alloc_huge _ hhuge] at hblock
          exact absurd hblock (by simp)
        have hbody : (r.body.length : ℤ) = r.length.toInt := by omega
        have hsize : sizeT r.length = r.body.length := sizeT_of_toInt hbody.symm
        rw [hsize] at hblock
        have hblock' := malloc.length_alloc _ block hblock
        have huse := @usable_block host malloc hmem dataType r block hbody (by omega) hblock'
        rw [Option.map_eq_bind] at huse
        simpa [hok, htype, hsize, hblock] using huse
    · exact iff_of_false (not_usable_of_type hr hok htype dataType) fun h => htype (h hok).1
  · simp [nmxpReceiveChannelList, hr, hok, Usable]

/-- An error message of the server, without a text. -/
def errorMessage : Message := ⟨190, [], by decide, by decide⟩

/-- An error message is returned as a list that is not there. -/
theorem usable_errorMessage : ¬∀ (host : Host) (malloc : Malloc),
    malloc.alloc SIZEOF_CHAN_LIST ≠ none → ∀ (dataType : NmxpDatatype) (link : Link UInt8)
      (r : Received) (link' : Link UInt8),
      nmxpReceiveMessage host NMXP_MAX_LENGTH_DATA_BUFFER link = (r, link') →
        Usable host malloc dataType r.length (nmxpReceiveChannelList host malloc link) := by
  intro hclaim
  have hflow : Flowing (Stream'.const (.chunk 12)) := fun _ => ⟨12, rfl⟩
  obtain ⟨s', hr, -⟩ : ∃ s', nmxpReceiveMessage .little NMXP_MAX_LENGTH_DATA_BUFFER
      ⟨errorMessage.encode ++ [], Stream'.const (.chunk 12)⟩ = (errorMessage.received, ⟨[], s'⟩) ∧
      Flowing s' := receiveMessage_flowing hflow (by decide)
  exact not_usable_of_type hr rfl (by decide) .timeseries
    (hclaim .little zeroMalloc (zeroMalloc_ne_none _ le_rfl) .timeseries _ _ _ hr)

/-- The list of one channel can be searched for another type than the channel's. For its own type
`strncpy` writes behind the one entry that there is. -/
theorem usable_iff_one : ∃ r link',
    nmxpReceiveMessage .little NMXP_MAX_LENGTH_DATA_BUFFER
      ⟨(listMessage [oneRecord] (by decide)).encode ++ [], Stream'.const (.chunk 1)⟩ =
        (r, link') ∧
    Usable .little zeroMalloc .soh r.length (nmxpReceiveChannelList .little zeroMalloc
      ⟨(listMessage [oneRecord] (by decide)).encode ++ [], Stream'.const (.chunk 1)⟩) ∧
    ¬Usable .little zeroMalloc .timeseries r.length (nmxpReceiveChannelList .little zeroMalloc
      ⟨(listMessage [oneRecord] (by decide)).encode ++ [], Stream'.const (.chunk 1)⟩) := by
  have hflow : Flowing (Stream'.const (.chunk 1)) := fun _ => ⟨1, rfl⟩
  have hone : [oneRecord].length ≤ BUFFERED_CHANNELS := by decide
  obtain ⟨s', hr⟩ := @receiveMessage_list .little [oneRecord] (by decide) [] _ hflow hone
  refine ⟨_, _, hr, ?_, ?_⟩
  · rw [usable_iff .little (zeroMalloc_ne_none _ le_rfl) .soh _ hr]
    exact fun _ => ⟨rfl, Or.inr ⟨by decide, by decide, by decide, by decide⟩⟩
  · rw [usable_iff .little (zeroMalloc_ne_none _ le_rfl) .timeseries _ hr]
    intro h
    obtain hnone | hgood := (h rfl).2
    · exact absurd hnone (by decide)
    · exact absurd (hgood.room (by decide) (by decide)) (by decide)

end Nmxptool.Chan.UsableList
