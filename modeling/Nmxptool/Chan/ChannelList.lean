import Nmxptool.Chan.Match
import Nmxptool.Lib.Block
import Nmxptool.Wire.Framing

/-! # The channel list of the server

`nmxp_receiveChannelList` copies the body of a message into a block of its length and converts the
integers where they lie, as many as the count at the start of the body says. `nmxp_chan_getType`
picks the channels of one type.

* `receive_channelList`: what a body that holds as many entries as it counts becomes.
* `getType_channelList`: what is picked from it.
* `roundTrip_iff`: which lists survive the wire. -/

namespace Nmxptool.Chan.ChannelList

open Nmxptool.Lib.Block Nmxptool.Lib.Bytes Nmxptool.Lib.Recv
open Nmxptool.Wire.Model Nmxptool.Wire.Framing Nmxptool.Chan.Channels Nmxptool.Chan.Match

def NMXP_MSG_CHANNELLIST : Int32 := 150
def NMXP_MAX_LENGTH_DATA_BUFFER : ℕ := 4092 * 4
def MAX_N_CHAN : ℕ := 2000

/-- `sizeof(NMXP_CHAN_KEY)`. -/
def SIZEOF_CHAN_KEY : ℕ := 16

/-- `sizeof(NMXP_CHAN_LIST)`. -/
def SIZEOF_CHAN_LIST : ℕ := 4 + SIZEOF_CHAN_KEY * MAX_N_CHAN

/-- Where `channel[i].key` lies in a list. -/
def keyOff (i : ℕ) : ℕ := 4 + 16 * i

/-- Where `channel[i].name` lies in a list. -/
def nameOff (i : ℕ) : ℕ := 8 + 16 * i

/-- What the code relies on of `malloc`: a block has the size asked for, and no block is larger than
half of the address space. -/
structure Malloc where
  alloc : ℕ → Option (List UInt8)
  length_alloc : ∀ n b, alloc n = some b → b.length = n
  alloc_huge : ∀ n, 2 ^ 63 ≤ n → alloc n = none

/-- An `int32_t` as a `size_t`. -/
def sizeT (v : Int32) : ℕ := (v.toInt % 2 ^ 64).toNat

theorem sizeT_of_toInt {v : Int32} {n : ℕ} (h : v.toInt = n) : sizeT v = n := by
  have := v.toInt_lt
  rw [sizeT, h, Int.emod_eq_of_lt (by omega) (by omega), Int.toNat_natCast]

/-! ### Integers of a block -/

def readInt (host : Host) (b : List UInt8) (off : ℕ) : Option Int32 :=
  (readAt b off 4).map fun bs => int32 (load host bs)

def writeInt (host : Host) (b : List UInt8) (off : ℕ) (v : Int32) : Option (List UInt8) :=
  writeAt b off (inMemory host v)

/-! ### Receiving the list -/

/-- The loop of `nmxp_receiveChannelList` that converts the keys, with `left` of them to go. -/
def convertKeys (host : Host) : ℕ → ℕ → List UInt8 → Option (List UInt8)
  | 0, _, list => some list
  | left + 1, i, list => do
    let key ← readInt host list (keyOff i)
    let list ← writeInt host list (keyOff i) (ntohl host key)
    convertKeys host left (i + 1) list

/-- The list that becomes of a received body: `memmove`, and the conversions. -/
def convertList (host : Host) (body : List UInt8) (length : ℕ) (list : List UInt8) :
    Option (List UInt8) := do
  let buffer := body ++ List.replicate (NMXP_MAX_LENGTH_DATA_BUFFER - body.length) 0
  let bytes ← readAt buffer 0 length
  let list ← writeAt list 0 bytes
  let number ← readInt host list 0
  let list ← writeInt host list 0 (ntohl host number)
  convertKeys host (ntohl host number).toInt.toNat 0 list

/-- What `nmxp_receiveChannelList` gives: its return value and `*pchannelList`. -/
structure ChannelListReply where
  ret : ℤ
  pchannelList : Option (List UInt8)

/-- **`nmxp_receiveChannelList`**; it is `none` where memory outside a block is accessed. -/
def nmxpReceiveChannelList (host : Host) (malloc : Malloc) (link : Link UInt8) :
    Option ChannelListReply :=
  let r := (nmxpReceiveMessage host NMXP_MAX_LENGTH_DATA_BUFFER link).1
  if r.ret = NMXP_SOCKET_OK then
    if r.type ≠ NMXP_MSG_CHANNELLIST then some ⟨NMXP_SOCKET_OK, none⟩
    else
      match malloc.alloc (sizeT r.length) with
      | some list => do
        let list ← convertList host r.body (sizeT r.length) list
        some ⟨NMXP_SOCKET_OK, some list⟩
      | none => some ⟨NMXP_SOCKET_ERROR, none⟩
  else some ⟨r.ret, none⟩

/-! ### Picking a type -/

/-- The body of the loop of `nmxp_chan_getType`. -/
def getTypeStep (host : Host) (list : List UInt8) (dataType : NmxpDatatype) (i : ℕ)
    (ret : List UInt8) : Option (List UInt8) := do
  let key ← readInt host list (keyOff i)
  if getDataTypeFromKey key = dataType.number then
    let number ← readInt host ret 0
    let ret ← writeInt host ret (keyOff number.toInt.toNat) key
    let name ← strncpySource list (nameOff i) NMXP_CHAN_MAX_SIZE_NAME
    let ret ← writeAt ret (nameOff number.toInt.toNat) name
    writeInt host ret 0 (number + 1)
  else some ret

/-- The loop of `nmxp_chan_getType`, with `left` channels to go. -/
def getTypeLoop (host : Host) (list : List UInt8) (dataType : NmxpDatatype) :
    ℕ → ℕ → List UInt8 → Option (List UInt8)
  | 0, _, ret => some ret
  | left + 1, i, ret => do
    let ret ← getTypeStep host list dataType i ret
    getTypeLoop host list dataType left (i + 1) ret

/-- **`nmxp_chan_getType`**; it is `none` where memory outside a block is accessed. -/
def nmxpChanGetType (host : Host) (malloc : Malloc) (list : List UInt8) (dataType : NmxpDatatype) :
    Option (List UInt8) := do
  let number ← readInt host list 0
  let ret ← malloc.alloc SIZEOF_CHAN_LIST
  let ret ← writeInt host ret 0 0
  getTypeLoop host list dataType number.toInt.toNat 0 ret

/-! ### What a list holds -/

/-- The block holds a list: the count, and the entries with their keys and the bytes of their
names. -/
structure Lists (host : Host) (b : List UInt8) (l : List (Int32 × List UInt8)) : Prop where
  number : readInt host b 0 = some (int32 l.length)
  key : ∀ j (h : j < l.length), readInt host b (keyOff j) = some l[j].1
  name : ∀ j (h : j < l.length), readAt b (nameOff j) NMXP_CHAN_KEY_NAME_SIZE = some l[j].2

variable {host : Host} {b b' : List UInt8} {off off' : ℕ} {v : Int32}

theorem readInt_of_le (h : off + 4 ≤ b.length) :
    readInt host b off = some (msgField host b off) := by
  rw [readInt, readAt_of_le h]
  rfl

theorem exists_writeInt (host : Host) (v : Int32) (h : off + 4 ≤ b.length) :
    ∃ b', writeInt host b off v = some b' :=
  exists_writeAt (by rw [inMemory, length_store]; exact h)

theorem length_of_writeInt (h : writeInt host b off v = some b') : b'.length = b.length :=
  length_of_writeAt h

theorem readInt_writeInt_same (h : writeInt host b off v = some b') :
    readInt host b' off = some v := by
  have hread := readAt_writeAt_same h
  rw [inMemory, length_store] at hread
  rw [readInt, hread, Option.map_some, load_store, Nat.mod_eq_of_lt (nat32_lt v), int32_nat32]

theorem readAt_writeInt_other {n : ℕ} (h : writeInt host b off v = some b')
    (hdisj : off' + n ≤ off ∨ off + 4 ≤ off') : readAt b' off' n = readAt b off' n :=
  readAt_writeAt_other h (by rw [inMemory, length_store]; exact hdisj)

theorem readInt_writeInt_other (h : writeInt host b off v = some b')
    (hdisj : off' + 4 ≤ off ∨ off + 4 ≤ off') : readInt host b' off' = readInt host b off' := by
  rw [readInt, readAt_writeInt_other h hdisj, readInt]

theorem readInt_writeAt_other {bs : List UInt8} (h : writeAt b off bs = some b')
    (hdisj : off' + 4 ≤ off ∨ off + bs.length ≤ off') :
    readInt host b' off' = readInt host b off' := by
  rw [readInt, readAt_writeAt_other h hdisj, readInt]

/-- A field in network order, converted. -/
theorem ntohl_msgField_big (h : off + 4 ≤ b.length) :
    ntohl host (msgField host b off) = msgField .big b off := by
  unfold msgField
  exact ntohl_load host (by rw [List.length_take, List.length_drop]; omega)

/-! ### Converting -/

/-- What the loop does to the block: the keys are converted, and nothing else is written. -/
theorem convertKeys_spec (host : Host) (left i : ℕ)
    (hin : ∀ j, i ≤ j → j < i + left → keyOff j + 4 ≤ b.length) :
    ∃ b', convertKeys host left i b = some b' ∧ b'.length = b.length ∧
      (∀ j, i ≤ j → j < i + left → readInt host b' (keyOff j) = some (msgField .big b (keyOff j))) ∧
      ∀ off' n, (∀ j, i ≤ j → j < i + left → off' + n ≤ keyOff j ∨ keyOff j + 4 ≤ off') →
        readAt b' off' n = readAt b off' n := by
  induction left generalizing i b with
  | zero => exact ⟨b, rfl, rfl, fun j h1 h2 => absurd h2 (by omega), fun _ _ _ => rfl⟩
  | succ left ih =>
    have hi := hin i le_rfl (by omega)
    obtain ⟨b1, h1⟩ := exists_writeInt host (ntohl host (msgField host b (keyOff i))) hi
    have hlen1 := length_of_writeInt h1
    obtain ⟨b2, h2, hlen2, hkeys, hframe⟩ := ih (b := b1) (i + 1) fun j hj hlt => by
      rw [hlen1]
      exact hin j (by omega) (by omega)
    refine ⟨b2, ?_, hlen2.trans hlen1, fun j hj hlt => ?_, fun off' n hoff => ?_⟩
    · simp [convertKeys, readInt_of_le hi, h1, h2]
    · rcases Nat.eq_or_lt_of_le hj with rfl | hlt'
      · have hsame : readInt host b2 (keyOff i) = readInt host b1 (keyOff i) := by
          unfold readInt
          rw [hframe _ _ fun k hk _ => Or.inl (by unfold keyOff; omega)]
        rw [hsame, readInt_writeInt_same h1, ntohl_msgField_big hi]
      · rw [hkeys j hlt' (by omega)]
        have hother : readAt b1 (keyOff j) 4 = readAt b (keyOff j) 4 :=
          readAt_writeInt_other h1 (Or.inr (by unfold keyOff; omega))
        have hj4 := hin j hj hlt
        rw [readAt_of_le (by omega), readAt_of_le hj4] at hother
        unfold msgField
        rw [Option.some.inj hother]
    · rw [hframe off' n fun k hk hk2 => hoff k (by omega) (by omega)]
      exact readAt_writeInt_other h1 (hoff i le_rfl (by omega))

/-- The entries that a body in network order holds. -/
def entriesOf (body : List UInt8) (n : ℕ) : List (Int32 × List UInt8) :=
  (List.range n).map fun j =>
    (msgField .big body (keyOff j), (body.drop (nameOff j)).take NMXP_CHAN_KEY_NAME_SIZE)

/-- The count of a body. -/
def countOf (body : List UInt8) : Int32 := msgField .big body 0

theorem length_entriesOf (body : List UInt8) (n : ℕ) : (entriesOf body n).length = n := by
  simp [entriesOf]

/-- `memmove` fills the block with the body. -/
theorem convertList_memmove {body list : List UInt8} (hlist : list.length = body.length) :
    convertList host body body.length list = (do
      let number ← readInt host body 0
      let list ← writeInt host body 0 (ntohl host number)
      convertKeys host (ntohl host number).toInt.toNat 0 list) := by
  have hread : readAt ([] ++ (body ++ List.replicate
      (NMXP_MAX_LENGTH_DATA_BUFFER - body.length) 0)) 0 body.length = some body :=
    readAt_append rfl rfl
  rw [List.nil_append] at hread
  have hwrite : writeAt list 0 body = some body := by
    rw [writeAt, if_pos (by omega), List.drop_of_length_le (by omega)]
    simp
  simp [convertList, hread, hwrite]

/-- The conversion of the count, and what is left to the loop. -/
theorem convertList_eq (host : Host) {body list : List UInt8} (hlist : list.length = body.length)
    (h4 : 4 ≤ body.length) :
    ∃ b, b.length = body.length ∧ readInt host b 0 = some (countOf body) ∧
      (∀ off n, 4 ≤ off → readAt b off n = readAt body off n) ∧
      convertList host body body.length list =
        convertKeys host (countOf body).toInt.toNat 0 b := by
  obtain ⟨b, hb⟩ : ∃ b, writeInt host body 0 (countOf body) = some b :=
    exists_writeInt host _ (by omega)
  have h0 : readInt host body 0 = some (msgField host body 0) := readInt_of_le (by omega)
  have hcount : ntohl host (msgField host body 0) = countOf body := ntohl_msgField_big (by omega)
  refine ⟨b, length_of_writeInt hb, readInt_writeInt_same hb,
    fun off n hoff => readAt_writeInt_other hb (Or.inr hoff), ?_⟩
  rw [convertList_memmove hlist]
  simp [h0, hcount, hb]

/-- A body without a count. -/
theorem convertList_short {body list : List UInt8} (hlist : list.length = body.length)
    (h4 : body.length < 4) : convertList host body body.length list = none := by
  have hnone : readInt host body 0 = none := by
    rw [readInt, readAt, if_neg (by omega)]
    rfl
  rw [convertList_memmove hlist]
  simp [hnone]

/-- **What a body becomes** that holds as many entries as it counts. -/
theorem receive_channelList (host : Host) {body list : List UInt8} {n : ℕ}
    (hlist : list.length = body.length) (hcount : (countOf body).toInt = n)
    (hn : 4 + 16 * n ≤ body.length) :
    ∃ b, convertList host body body.length list = some b ∧ b.length = body.length ∧
      Lists host b (entriesOf body n) := by
  obtain ⟨b1, hlen1, hnum1, hframe1, heq⟩ := convertList_eq host hlist (by omega)
  obtain ⟨b2, h2, hlen2, hkeys, hframe2⟩ := @convertKeys_spec b1 host n 0
    fun j _ hj => by rw [hlen1]; unfold keyOff; omega
  rw [hcount, Int.toNat_natCast, h2] at heq
  have hint : int32 n = countOf body := int32_of_toInt hcount
  refine ⟨b2, heq, hlen2.trans hlen1, ?_, fun j hj => ?_, fun j hj => ?_⟩
  · rw [length_entriesOf, hint, ← hnum1, readInt, readInt,
      hframe2 0 4 fun j _ _ => Or.inl (by unfold keyOff; omega)]
  · rw [length_entriesOf] at hj
    have hsame := hframe1 (keyOff j) 4 (by unfold keyOff; omega)
    rw [readAt_of_le (by rw [hlen1]; unfold keyOff; omega),
      readAt_of_le (by unfold keyOff; omega)] at hsame
    rw [hkeys j (Nat.zero_le j) (by omega)]
    simp only [entriesOf, List.getElem_map, List.getElem_range]
    unfold msgField
    rw [Option.some.inj hsame]
  · rw [length_entriesOf] at hj
    rw [hframe2 _ _ fun k _ _ => by unfold keyOff nameOff NMXP_CHAN_KEY_NAME_SIZE; omega,
      hframe1 _ _ (by unfold nameOff; omega),
      readAt_of_le (by unfold nameOff NMXP_CHAN_KEY_NAME_SIZE; omega)]
    simp [entriesOf]

/-! ### Picking -/

/-- What `nmxp_chan_getType` looks at in an entry. -/
def OfType (dataType : NmxpDatatype) (e : Int32 × List UInt8) : Prop :=
  getDataTypeFromKey e.1 = dataType.number

instance (dataType : NmxpDatatype) : DecidablePred (OfType dataType) :=
  fun _ => inferInstanceAs (Decidable (_ = _))

/-- An entry as it is copied: the name has the size of its array. -/
def cut (e : Int32 × List UInt8) : Int32 × List UInt8 := (e.1, e.2.take NMXP_CHAN_KEY_NAME_SIZE)

/-- What `nmxp_chan_getType` copies from a list: the keys, and for the entries of the type the bytes
that `strncpy` gives. -/
structure Copies (host : Host) (b : List UInt8) (dataType : NmxpDatatype)
    (l : List (Int32 × List UInt8)) : Prop where
  key : ∀ j (h : j < l.length), readInt host b (keyOff j) = some l[j].1
  name : ∀ j (h : j < l.length), OfType dataType l[j] →
    strncpySource b (nameOff j) NMXP_CHAN_MAX_SIZE_NAME = some l[j].2

theorem int32_succ (n : ℕ) : int32 (n + 1) = int32 n + 1 := by
  unfold int32
  rw [UInt32.ofNat_add]
  rfl

/-- An entry is added to a list with room for it: `strncpy` writes over the entry behind it. -/
theorem lists_add {ret : List UInt8} {acc : List (Int32 × List UInt8)} (key : Int32)
    {name : List UInt8} (hacc : Lists host ret acc)
    (hroom : nameOff acc.length + NMXP_CHAN_MAX_SIZE_NAME ≤ ret.length)
    (hname : name.length = NMXP_CHAN_MAX_SIZE_NAME) :
    ∃ r1 r2 r3, writeInt host ret (keyOff acc.length) key = some r1 ∧
      writeAt r1 (nameOff acc.length) name = some r2 ∧
      writeInt host r2 0 (int32 acc.length + 1) = some r3 ∧ r3.length = ret.length ∧
      Lists host r3 (acc ++ [cut (key, name)]) := by
  obtain ⟨r1, h1⟩ : ∃ r1, writeInt host ret (keyOff acc.length) key = some r1 :=
    exists_writeInt host key (by unfold keyOff nameOff at *; omega)
  have hlen1 := length_of_writeInt h1
  obtain ⟨r2, h2⟩ : ∃ r2, writeAt r1 (nameOff acc.length) name = some r2 :=
    exists_writeAt (by rw [hlen1, hname]; exact hroom)
  have hlen2 := length_of_writeAt h2
  obtain ⟨r3, h3⟩ : ∃ r3, writeInt host r2 0 (int32 acc.length + 1) = some r3 :=
    exists_writeInt host _ (by unfold nameOff at hroom; omega)
  have hlen3 := length_of_writeInt h3
  refine ⟨r1, r2, r3, h1, h2, h3, by omega, ?_, fun j hj => ?_, fun j hj => ?_⟩
  · rw [readInt_writeInt_same h3, List.length_append, List.length_singleton, int32_succ]
  · rw [readInt_writeInt_other h3 (Or.inr (by unfold keyOff; omega))]
    rw [List.length_append, List.length_singleton] at hj
    rcases Nat.lt_succ_iff_lt_or_eq.mp hj with hlt | rfl
    · rw [readInt_writeAt_other h2 (Or.inl (by unfold keyOff nameOff; omega)),
        readInt_writeInt_other h1 (Or.inl (by unfold keyOff; omega)), hacc.key j hlt,
        List.getElem_append_left hlt]
    · rw [readInt_writeAt_other h2 (Or.inl (by unfold keyOff nameOff; omega)),
        readInt_writeInt_same h1]
      simp [cut]
  · rw [readAt_writeInt_other h3 (Or.inr (by unfold nameOff; omega))]
    rw [List.length_append, List.length_singleton] at hj
    rcases Nat.lt_succ_iff_lt_or_eq.mp hj with hlt | rfl
    · rw [readAt_writeAt_other h2
          (Or.inl (by unfold nameOff NMXP_CHAN_KEY_NAME_SIZE; omega)),
        readAt_writeInt_other h1
          (Or.inl (by unfold nameOff keyOff NMXP_CHAN_KEY_NAME_SIZE; omega)),
        hacc.name j hlt, List.getElem_append_left hlt]
    · have hsame := readAt_writeAt_same h2
      rw [hname] at hsame
      rw [readAt_of_le_of_readAt hsame (by decide)]
      simp [cut]

theorem toInt_toNat_int32 {n : ℕ} (h : n < 2 ^ 31) : (int32 n).toInt.toNat = n := by
  rw [toInt_int32_of_lt h, Int.toNat_natCast]

section

variable {dataType : NmxpDatatype} {ret : List UInt8} {acc : List (Int32 × List UInt8)} {i : ℕ}
  {key : Int32}

theorem getTypeStep_other (hkey : readInt host b (keyOff i) = some key)
    (htype : getDataTypeFromKey key ≠ dataType.number) :
    getTypeStep host b dataType i ret = some ret := by
  simp [getTypeStep, hkey, htype]

/-- A channel of the type is added. -/
theorem getTypeStep_ofType {name : List UInt8} (hkey : readInt host b (keyOff i) = some key)
    (htype : getDataTypeFromKey key = dataType.number)
    (hname : strncpySource b (nameOff i) NMXP_CHAN_MAX_SIZE_NAME = some name)
    (hacc : Lists host ret acc)
    (hroom : nameOff acc.length + NMXP_CHAN_MAX_SIZE_NAME ≤ ret.length)
    (hmax : acc.length < MAX_N_CHAN) :
    ∃ ret', getTypeStep host b dataType i ret = some ret' ∧ ret'.length = ret.length ∧
      Lists host ret' (acc ++ [cut (key, name)]) := by
  obtain ⟨r1, r2, r3, h1, h2, h3, hlen, hlists⟩ :=
    lists_add key hacc hroom (length_of_strncpySource hname)
  refine ⟨r3, ?_, hlen, hlists⟩
  have hn : (int32 acc.length).toNatClampNeg = acc.length :=
    toInt_toNat_int32 (by unfold MAX_N_CHAN at hmax; omega)
  simp [getTypeStep, hkey, htype, hacc.number, hn, h1, hname, h2, h3]

/-- **Where a step stays inside both lists**: `strncpy` does in the one it reads, and the 24 bytes
that it writes lie inside the other. -/
theorem getTypeStep_isSome (hkey : readInt host b (keyOff i) = some key)
    (htype : getDataTypeFromKey key = dataType.number) (hacc : Lists host ret acc)
    (hmax : acc.length < MAX_N_CHAN) :
    (getTypeStep host b dataType i ret).isSome ↔
      (strncpySource b (nameOff i) NMXP_CHAN_MAX_SIZE_NAME).isSome ∧
        nameOff acc.length + NMXP_CHAN_MAX_SIZE_NAME ≤ ret.length := by
  constructor
  · intro h
    have hn : (int32 acc.length).toNatClampNeg = acc.length :=
      toInt_toNat_int32 (by unfold MAX_N_CHAN at hmax; omega)
    obtain ⟨r3, h⟩ := Option.isSome_iff_exists.mp h
    rw [getTypeStep, hkey, Option.bind_eq_bind, Option.bind_some, if_pos htype, hacc.number,
      Option.bind_eq_bind, Option.bind_some] at h
    obtain ⟨r1, h1, h⟩ := Option.bind_eq_some_iff.mp h
    obtain ⟨name, hname, h⟩ := Option.bind_eq_some_iff.mp h
    obtain ⟨r2, h2, -⟩ := Option.bind_eq_some_iff.mp h
    refine ⟨by rw [hname]; rfl, ?_⟩
    have hle := le_of_writeAt h2
    rw [length_of_strncpySource hname, length_of_writeInt h1] at hle
    simpa [hn] using hle
  · rintro ⟨hsource, hroom⟩
    obtain ⟨name, hname⟩ := Option.isSome_iff_exists.mp hsource
    obtain ⟨r, hr, -⟩ := getTypeStep_ofType hkey htype hname hacc hroom hmax
    rw [hr]
    rfl

end

/-- The loop adds the channels of the type, in order. -/
theorem getTypeLoop_spec {dataType : NmxpDatatype} {l : List (Int32 × List UInt8)}
    (hl : Copies host b dataType l) (hmax : l.length < MAX_N_CHAN) (left i : ℕ)
    (hi : i + left = l.length) {ret : List UInt8} {acc : List (Int32 × List UInt8)}
    (hacc : Lists host ret acc) (hlen : ret.length = SIZEOF_CHAN_LIST) (hle : acc.length ≤ i) :
    ∃ ret', getTypeLoop host b dataType left i ret = some ret' ∧
      Lists host ret' (acc ++ ((l.drop i).filter (OfType dataType ·)).map cut) := by
  induction left generalizing i ret acc with
  | zero =>
    refine ⟨ret, rfl, ?_⟩
    rw [List.drop_of_length_le (by omega)]
    simpa using hacc
  | succ left ih =>
    have hlt : i < l.length := by omega
    rw [List.drop_eq_getElem_cons hlt]
    by_cases htype : OfType dataType l[i]
    · obtain ⟨r, hr, hrlen, hrlists⟩ := getTypeStep_ofType (hl.key i hlt) htype
        (hl.name i hlt htype) hacc
        (by rw [hlen]; unfold nameOff SIZEOF_CHAN_LIST SIZEOF_CHAN_KEY NMXP_CHAN_MAX_SIZE_NAME
              MAX_N_CHAN at *; omega) (by omega)
      obtain ⟨ret', hret, hlists⟩ := ih (i + 1) (by omega) hrlists (hrlen.trans hlen)
        (by rw [List.length_append, List.length_singleton]; omega)
      refine ⟨ret', by simp [getTypeLoop, hr, hret], ?_⟩
      rw [List.filter_cons_of_pos (p := (OfType dataType ·)) (decide_eq_true htype), List.map_cons]
      rwa [List.append_assoc] at hlists
    · obtain ⟨ret', hret, hlists⟩ := ih (i + 1) (by omega) hacc hlen (by omega)
      refine ⟨ret', by simp [getTypeLoop, getTypeStep_other (hl.key i hlt) htype, hret], ?_⟩
      rwa [List.filter_cons_of_neg (p := (OfType dataType ·))
        fun h => htype (of_decide_eq_true h)]

/-- **Where the loop stays inside both lists**: each name that is copied ends in time, and there is
room for what `strncpy` writes. -/
theorem getTypeLoop_isSome {dataType : NmxpDatatype} {l : List (Int32 × List UInt8)}
    (hl : Lists host b l) (hmax : l.length < MAX_N_CHAN) (left i : ℕ) (hi : i + left = l.length)
    {ret : List UInt8} {acc : List (Int32 × List UInt8)} (hacc : Lists host ret acc)
    (hle : acc.length ≤ i) :
    (getTypeLoop host b dataType left i ret).isSome ↔
      (∀ j (hj : j < l.length), i ≤ j → OfType dataType l[j] →
        (strncpySource b (nameOff j) NMXP_CHAN_MAX_SIZE_NAME).isSome) ∧
      ∀ k < ((l.drop i).filter (OfType dataType ·)).length,
        nameOff (acc.length + k) + NMXP_CHAN_MAX_SIZE_NAME ≤ ret.length := by
  induction left generalizing i ret acc with
  | zero =>
    rw [List.drop_of_length_le (by omega)]
    refine iff_of_true rfl ⟨fun j hj hij => absurd hij (by omega), fun k hk => absurd hk ?_⟩
    simp
  | succ left ih =>
    have hlt : i < l.length := by omega
    have hfrom (h : OfType dataType l[i] →
          (strncpySource b (nameOff i) NMXP_CHAN_MAX_SIZE_NAME).isSome) :
        (∀ j (hj : j < l.length), i ≤ j → OfType dataType l[j] →
          (strncpySource b (nameOff j) NMXP_CHAN_MAX_SIZE_NAME).isSome) ↔
        ∀ j (hj : j < l.length), i + 1 ≤ j → OfType dataType l[j] →
          (strncpySource b (nameOff j) NMXP_CHAN_MAX_SIZE_NAME).isSome := by
      refine ⟨fun hall j hj hij => hall j hj (by omega), fun hall j hj hij => ?_⟩
      rcases Nat.eq_or_lt_of_le hij with rfl | hlt
      · exact h
      · exact hall j hj hlt
    rw [getTypeLoop, List.drop_eq_getElem_cons hlt]
    by_cases htype : OfType dataType l[i]
    · rw [List.filter_cons_of_pos (p := (OfType dataType ·)) (decide_eq_true htype),
        List.length_cons]
      have hstep := getTypeStep_isSome (hl.key i hlt) htype hacc (by omega)
      by_cases hin : (strncpySource b (nameOff i) NMXP_CHAN_MAX_SIZE_NAME).isSome ∧
          nameOff acc.length + NMXP_CHAN_MAX_SIZE_NAME ≤ ret.length
      · obtain ⟨name, hname⟩ := Option.isSome_iff_exists.mp hin.1
        obtain ⟨r, hr, hrlen, hrlists⟩ :=
          getTypeStep_ofType (hl.key i hlt) htype hname hacc hin.2 (by omega)
        rw [hr, Option.bind_eq_bind, Option.bind_some, hfrom fun _ => hin.1,
          ih (i + 1) (by omega) hrlists (by rw [List.length_append, List.length_singleton]; omega),
          hrlen, List.length_append, List.length_singleton]
        refine and_congr_right fun _ => ⟨fun h k hk => ?_, fun h k hk => ?_⟩
        · cases k with
          | zero => exact hin.2
          | succ k =>
            rw [← Nat.add_assoc, Nat.add_right_comm]
            exact h k (by omega)
        · rw [Nat.add_right_comm, Nat.add_assoc]
          exact h (k + 1) (by omega)
      · rw [Option.not_isSome_iff_eq_none.mp (mt hstep.mp hin)]
        refine iff_of_false (by simp) fun h => hin ⟨h.1 i hlt le_rfl htype, ?_⟩
        exact h.2 0 (Nat.succ_pos _)
    · rw [List.filter_cons_of_neg (p := (OfType dataType ·)) fun h => htype (of_decide_eq_true h),
        getTypeStep_other (hl.key i hlt) htype, Option.bind_eq_bind, Option.bind_some,
        hfrom fun h => absurd h htype]
      exact ih (i + 1) (by omega) hacc (by omega)

/-- The list that is filled, as it is before the loop. -/
theorem alloc_list {malloc : Malloc} (hmem : malloc.alloc SIZEOF_CHAN_LIST ≠ none) :
    ∃ r ret, malloc.alloc SIZEOF_CHAN_LIST = some r ∧ writeInt host r 0 0 = some ret ∧
      ret.length = SIZEOF_CHAN_LIST ∧ Lists host ret [] := by
  obtain ⟨r, hr⟩ := Option.ne_none_iff_exists'.mp hmem
  have hlen := malloc.length_alloc _ r hr
  obtain ⟨r0, h0⟩ : ∃ r0, writeInt host r 0 0 = some r0 :=
    exists_writeInt host 0 (by rw [hlen]; decide)
  exact ⟨r, r0, hr, h0, (length_of_writeInt h0).trans hlen, ⟨readInt_writeInt_same h0,
    fun j hj => absurd hj j.not_lt_zero, fun j hj => absurd hj j.not_lt_zero⟩⟩

/-- What `nmxp_chan_getType` does before its loop. -/
theorem nmxpChanGetType_loop {malloc : Malloc} (hmem : malloc.alloc SIZEOF_CHAN_LIST ≠ none)
    (dataType : NmxpDatatype) {n : ℕ} (hnumber : readInt host b 0 = some (int32 n))
    (hmax : n < MAX_N_CHAN) :
    ∃ ret, ret.length = SIZEOF_CHAN_LIST ∧ Lists host ret [] ∧
      nmxpChanGetType host malloc b dataType = getTypeLoop host b dataType n 0 ret := by
  obtain ⟨r, ret, hr, h0, hlen, hempty⟩ := @alloc_list host _ hmem
  have hn : (int32 n).toNatClampNeg = n :=
    toInt_toNat_int32 (by unfold MAX_N_CHAN at hmax; omega)
  exact ⟨ret, hlen, hempty, by simp [nmxpChanGetType, hnumber, hr, h0, hn]⟩

/-- **What is picked**: the channels of the type, in order. -/
theorem getType_channelList {malloc : Malloc} (hmem : malloc.alloc SIZEOF_CHAN_LIST ≠ none)
    {dataType : NmxpDatatype} {l : List (Int32 × List UInt8)}
    (hnumber : readInt host b 0 = some (int32 l.length)) (hl : Copies host b dataType l)
    (hmax : l.length < MAX_N_CHAN) :
    ∃ ret, nmxpChanGetType host malloc b dataType = some ret ∧
      Lists host ret ((l.filter (OfType dataType ·)).map cut) := by
  obtain ⟨r, hlen, hempty, hloop⟩ := nmxpChanGetType_loop hmem dataType hnumber hmax
  obtain ⟨ret, hret, hlists⟩ := getTypeLoop_spec hl hmax l.length 0 (by omega) hempty hlen le_rfl
  exact ⟨ret, hloop.trans hret, by simpa using hlists⟩

/-! ### The round trip -/

/-- A channel of the server, its name NUL-terminated in its array. -/
structure ChanRecord where
  key : Int32
  name : List UInt8
  name_lt : name.length < NMXP_CHAN_KEY_NAME_SIZE
  no_nul : 0 ∉ name

namespace ChanRecord

/-- The name in an array of `n` bytes. -/
def inArray (r : ChanRecord) (n : ℕ) : List UInt8 := r.name ++ List.replicate (n - r.name.length) 0

def entry (r : ChanRecord) : Int32 × List UInt8 := (r.key, r.inArray NMXP_CHAN_KEY_NAME_SIZE)

/-- The record on the wire. -/
def bytes (r : ChanRecord) : List UInt8 := network32 r.key ++ r.inArray NMXP_CHAN_KEY_NAME_SIZE

theorem length_inArray (r : ChanRecord) {n : ℕ} (h : NMXP_CHAN_KEY_NAME_SIZE ≤ n) :
    (r.inArray n).length = n := by
  have := r.name_lt
  rw [inArray, List.length_append, List.length_replicate]
  omega

@[simp] theorem length_bytes (r : ChanRecord) : r.bytes.length = SIZEOF_CHAN_KEY := by
  rw [bytes, List.length_append, length_network32, r.length_inArray le_rfl]
  rfl

theorem take_inArray (r : ChanRecord) {n : ℕ} (h : NMXP_CHAN_KEY_NAME_SIZE ≤ n) :
    (r.inArray n).take NMXP_CHAN_KEY_NAME_SIZE = r.inArray NMXP_CHAN_KEY_NAME_SIZE := by
  have := r.name_lt
  unfold inArray
  rw [List.take_append, List.take_of_length_le (by omega), List.take_replicate]
  congr 2
  omega

end ChanRecord

/-- The body of the message. -/
def listBody (l : List ChanRecord) : List UInt8 :=
  network32 (int32 l.length) ++ l.flatMap ChanRecord.bytes

theorem length_flatMap_bytes (l : List ChanRecord) :
    (l.flatMap ChanRecord.bytes).length = SIZEOF_CHAN_KEY * l.length := by
  induction l with
  | nil => rfl
  | cons r l ih =>
    rw [List.flatMap_cons, List.length_append, ih, ChanRecord.length_bytes, List.length_cons]
    ring

theorem length_listBody (l : List ChanRecord) :
    (listBody l).length = 4 + SIZEOF_CHAN_KEY * l.length := by
  rw [listBody, List.length_append, length_network32, length_flatMap_bytes]

/-- Where a record lies in the body. -/
theorem listBody_at {l : List ChanRecord} {j : ℕ} (hj : j < l.length) :
    ∃ pre post, pre.length = keyOff j ∧
      listBody l = pre ++ (network32 l[j].key ++
        (l[j].inArray NMXP_CHAN_KEY_NAME_SIZE ++ post)) := by
  refine ⟨network32 (int32 l.length) ++ (l.take j).flatMap ChanRecord.bytes,
    (l.drop (j + 1)).flatMap ChanRecord.bytes, ?_, ?_⟩
  · rw [List.length_append, length_network32, length_flatMap_bytes, List.length_take,
      Nat.min_eq_left hj.le]
    rfl
  · have hsplit : l.take j ++ l[j] :: l.drop (j + 1) = l := by
      rw [← List.drop_eq_getElem_cons hj, List.take_append_drop]
    calc listBody l
        = network32 (int32 l.length) ++
          (l.take j ++ l[j] :: l.drop (j + 1)).flatMap ChanRecord.bytes := by
            rw [hsplit]
            rfl
      _ = _ := by
        rw [List.flatMap_append, List.flatMap_cons]
        simp only [ChanRecord.bytes, List.append_assoc]

theorem entriesOf_listBody (l : List ChanRecord) :
    entriesOf (listBody l) l.length = l.map ChanRecord.entry := by
  refine List.ext_getElem (by simp [entriesOf]) fun j hj hj' => ?_
  rw [List.length_map] at hj'
  obtain ⟨pre, post, hpre, hbody⟩ := listBody_at hj'
  have hkey : msgField .big (listBody l) (keyOff j) = l[j].key := by
    rw [hbody, msgField_append .big _ _ _ hpre.symm, load_network32]
  have hname : ((listBody l).drop (nameOff j)).take NMXP_CHAN_KEY_NAME_SIZE =
      l[j].inArray NMXP_CHAN_KEY_NAME_SIZE := by
    have hoff : (pre ++ network32 l[j].key).length = nameOff j := by
      rw [List.length_append, length_network32, hpre]
      unfold keyOff nameOff
      omega
    rw [hbody, ← List.append_assoc, List.drop_left' hoff,
      List.take_left' (l[j].length_inArray le_rfl)]
  simp only [entriesOf, List.getElem_map, List.getElem_range, hkey, hname, ChanRecord.entry]

theorem countOf_listBody (l : List ChanRecord) : countOf (listBody l) = int32 l.length :=
  (msgField_append .big [] _ _ rfl).trans (load_network32 _)

/-- The list as one message. -/
def listMessage (l : List ChanRecord) (h : l.length ≤ MAX_N_CHAN) : Message where
  type := NMXP_MSG_CHANNELLIST
  body := listBody l
  type_ne := by decide
  body_lt := by
    rw [length_listBody]
    unfold SIZEOF_CHAN_KEY MAX_N_CHAN at *
    omega

/-- How many records the buffer has room for. -/
def BUFFERED_CHANNELS : ℕ := (NMXP_MAX_LENGTH_DATA_BUFFER - 4) / SIZEOF_CHAN_KEY

/-- **A list survives the wire**: it is received as it was sent, and each type is picked from it. -/
def RoundTrips (host : Host) (malloc : Malloc) (l : List ChanRecord) (link : Link UInt8) : Prop :=
  ∃ list, nmxpReceiveChannelList host malloc link = some ⟨NMXP_SOCKET_OK, some list⟩ ∧
    Lists host list (l.map ChanRecord.entry) ∧
    ∀ dataType : NmxpDatatype, ∃ ret, nmxpChanGetType host malloc list dataType = some ret ∧
      Lists host ret
        ((l.filter fun r => getDataTypeFromKey r.key = dataType.number).map ChanRecord.entry)

/-- A list in memory, as `nmxp_chan_getType` copies it. -/
theorem copies_of_lists {l : List ChanRecord} (h : Lists host b (l.map ChanRecord.entry))
    (dataType : NmxpDatatype) :
    Copies host b dataType (l.map fun r => (r.key, r.inArray NMXP_CHAN_MAX_SIZE_NAME)) := by
  refine ⟨fun j hj => ?_, fun j hj _ => ?_⟩
  · rw [List.length_map] at hj
    rw [h.key j (by rwa [List.length_map]), List.getElem_map, List.getElem_map]
    rfl
  · rw [List.length_map] at hj
    have hname := h.name j (by rwa [List.length_map])
    rw [List.getElem_map] at hname ⊢
    have hlt := l[j].name_lt
    obtain ⟨k, hk⟩ : ∃ k, NMXP_CHAN_KEY_NAME_SIZE - l[j].name.length = k + 1 :=
      ⟨NMXP_CHAN_KEY_NAME_SIZE - l[j].name.length - 1, by omega⟩
    rw [ChanRecord.entry, ChanRecord.inArray, hk] at hname
    exact strncpySource_array hname l[j].no_nul
      (by unfold NMXP_CHAN_KEY_NAME_SIZE NMXP_CHAN_MAX_SIZE_NAME at *; omega)

/-- The cut of what is copied. -/
theorem picked_eq (l : List ChanRecord) (dataType : NmxpDatatype) :
    ((l.map fun r => (r.key, r.inArray NMXP_CHAN_MAX_SIZE_NAME)).filter
      (OfType dataType ·)).map cut =
      (l.filter fun r => getDataTypeFromKey r.key = dataType.number).map ChanRecord.entry := by
  rw [List.filter_map, List.map_map]
  refine List.map_congr_left fun r _ => ?_
  simp only [Function.comp_apply, cut, ChanRecord.entry]
  rw [r.take_inArray (by decide)]

section

variable {l : List ChanRecord} {hl : l.length ≤ MAX_N_CHAN} {malloc : Malloc} {rest : List UInt8}
  {s : Stream' RecvEvent}

theorem fits_iff :
    (listMessage l hl).Fits NMXP_MAX_LENGTH_DATA_BUFFER ↔ l.length ≤ BUFFERED_CHANNELS := by
  have hbody : (listMessage l hl).body.length = 4 + 16 * l.length := length_listBody l
  unfold Message.Fits
  rw [hbody]
  unfold BUFFERED_CHANNELS NMXP_MAX_LENGTH_DATA_BUFFER SIZEOF_CHAN_KEY
  omega

/-- A list that the buffer has no room for is refused. -/
theorem not_roundTrips (hs : Flowing s) (h : BUFFERED_CHANNELS < l.length) :
    ¬RoundTrips host malloc l ⟨(listMessage l hl).encode ++ rest, s⟩ := by
  obtain ⟨s1, h1, -⟩ := hs.arrive HEADER_SIZE
  rintro ⟨list, hlist, -⟩
  rw [nmxpReceiveChannelList, receiveMessage_reject h1 fun hfit => (fits_iff.mp hfit).not_gt h]
    at hlist
  simp [error_ne_ok] at hlist

/-- A list that the buffer has room for is received. -/
theorem receiveMessage_list (hs : Flowing s) (h : l.length ≤ BUFFERED_CHANNELS) :
    ∃ s', nmxpReceiveMessage host NMXP_MAX_LENGTH_DATA_BUFFER
      ⟨(listMessage l hl).encode ++ rest, s⟩ = ((listMessage l hl).received, ⟨rest, s'⟩) := by
  obtain ⟨s', hr, -⟩ : ∃ s', nmxpReceiveMessage host NMXP_MAX_LENGTH_DATA_BUFFER
      ⟨(listMessage l hl).encode ++ rest, s⟩ = ((listMessage l hl).received, ⟨rest, s'⟩) ∧
      Flowing s' := receiveMessage_flowing hs (fits_iff.mpr h)
  exact ⟨s', hr⟩

theorem roundTrips (hmem : ∀ n ≤ SIZEOF_CHAN_LIST, malloc.alloc n ≠ none) (hs : Flowing s)
    (h : l.length ≤ BUFFERED_CHANNELS) :
    RoundTrips host malloc l ⟨(listMessage l hl).encode ++ rest, s⟩ := by
  obtain ⟨s', hr⟩ := @receiveMessage_list host l hl rest s hs h
  have hsize : sizeT (listMessage l hl).length = (listBody l).length :=
    sizeT_of_toInt (Message.toInt_length _)
  have hmax := hl
  unfold MAX_N_CHAN at hmax
  obtain ⟨block, hblock⟩ := Option.ne_none_iff_exists'.mp (hmem (listBody l).length (by
    rw [length_listBody]
    unfold SIZEOF_CHAN_LIST SIZEOF_CHAN_KEY MAX_N_CHAN
    omega))
  obtain ⟨list, hlist, -, hlists⟩ := receive_channelList host (n := l.length)
    (malloc.length_alloc _ block hblock)
    (by rw [countOf_listBody, toInt_int32_of_lt (by omega)])
    (length_listBody l).ge
  rw [entriesOf_listBody] at hlists
  refine ⟨list, ?_, hlists, fun dataType => ?_⟩
  · rw [nmxpReceiveChannelList, hr]
    simp only [Message.received, hsize, hblock]
    simp [listMessage, hlist]
  · have hnumber := hlists.number
    rw [List.length_map] at hnumber
    unfold BUFFERED_CHANNELS NMXP_MAX_LENGTH_DATA_BUFFER SIZEOF_CHAN_KEY at h
    obtain ⟨ret, hret, hpicked⟩ := getType_channelList (hmem _ le_rfl)
      (by rw [List.length_map]; exact hnumber) (copies_of_lists hlists dataType)
      (by rw [List.length_map]; unfold MAX_N_CHAN; omega)
    rw [picked_eq] at hpicked
    exact ⟨ret, hret, hpicked⟩

end

/-- **Which lists survive the wire**: those that fit the buffer of the receiver. -/
theorem roundTrip_iff (host : Host) {malloc : Malloc}
    (hmem : ∀ n ≤ SIZEOF_CHAN_LIST, malloc.alloc n ≠ none) {l : List ChanRecord}
    (hl : l.length ≤ MAX_N_CHAN) {s : Stream' RecvEvent} (hs : Flowing s) (rest : List UInt8) :
    RoundTrips host malloc l ⟨(listMessage l hl).encode ++ rest, s⟩ ↔
      l.length ≤ BUFFERED_CHANNELS := by
  refine ⟨fun h => ?_, roundTrips hmem hs⟩
  by_contra hno
  exact not_roundTrips hs (not_le.mp hno) h

/-- A `malloc` that gives blocks of zeros, as long as there is memory. -/
def zeroMalloc : Malloc where
  alloc n := if n < 2 ^ 31 then some (List.replicate n 0) else none
  length_alloc n b h := by
    split_ifs at h
    rw [← Option.some.inj h, List.length_replicate]
  alloc_huge n h := if_neg (by omega)

theorem zeroMalloc_ne_none : ∀ n ≤ SIZEOF_CHAN_LIST, zeroMalloc.alloc n ≠ none := by
  intro n hn
  unfold SIZEOF_CHAN_LIST SIZEOF_CHAN_KEY MAX_N_CHAN at hn
  have hlt : n < 2 ^ 31 := by omega
  simp only [zeroMalloc, if_pos hlt]
  exact Option.some_ne_none _

/-- The channel `BHZ` of a station, a time series. -/
def oneRecord : ChanRecord := ⟨0x101, [83, 84, 65, 46, 66, 72, 90], by decide, by decide⟩

/-- One channel more than the buffer has room for. -/
theorem roundTrip_lost : ¬∀ (host : Host) (malloc : Malloc),
    (∀ n ≤ SIZEOF_CHAN_LIST, malloc.alloc n ≠ none) →
      ∀ (l : List ChanRecord) (hl : l.length ≤ MAX_N_CHAN) (s : Stream' RecvEvent), Flowing s →
        ∀ rest, RoundTrips host malloc l ⟨(listMessage l hl).encode ++ rest, s⟩ := by
  intro hclaim
  have hlen : (List.replicate 1023 oneRecord).length = 1023 := List.length_replicate
  have hflow : Flowing (Stream'.const (.chunk 1)) := fun _ => ⟨1, rfl⟩
  refine not_roundTrips hflow ?_ (hclaim .little zeroMalloc zeroMalloc_ne_none
    (List.replicate 1023 oneRecord) (by rw [hlen]; decide) _ hflow [])
  rw [hlen]
  decide

theorem roundTrip_iff_one :
    RoundTrips .little zeroMalloc [oneRecord]
      ⟨(listMessage [oneRecord] (by decide)).encode ++ [], Stream'.const (.chunk 1)⟩ :=
  (roundTrip_iff .little zeroMalloc_ne_none (by decide) (fun _ => ⟨1, rfl⟩) []).mpr (by decide)

end Nmxptool.Chan.ChannelList
