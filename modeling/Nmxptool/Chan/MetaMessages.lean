import Nmxptool.Chan.ChannelList
import Nmxptool.Chan.MetaList

/-! # The messages about the channels

`nmxp_getMetaChannelList` copies the body of each message into a block of its length, converts the
integers where they lie, and carries what it finds over to the list of channels: `ChannelList` says
which channels there are, `PrecisList` from when to when there is data, `ChannelInfoResponse` to
which network a channel belongs. The type of a message is not checked, apart from Ready.

* `announceLoop_ok`: the channels of the type are added, and the block is left as the later
  functions read it (`lists_inHost`).
* `precisLoop_ok`, `infoStep_ok`: the fields are set of the channels that are on the list; the
  others are logged. -/

namespace Nmxptool.Chan.MetaMessages

open Nmxptool.Data.Process Nmxptool.Lib.Block Nmxptool.Lib.Bytes Nmxptool.Lib.LinkedList
open Nmxptool.Lib.Run Nmxptool.Wire.Model Nmxptool.Wire.Framing
open Nmxptool.Chan.Match (NmxpDatatype getDataTypeFromKey NMXP_CHAN_KEY_NAME_SIZE)
open Nmxptool.Chan.ChannelList Nmxptool.Chan.MetaList

/-- `sizeof(NMXP_CHAN_PRECISITEM)`. -/
def SIZEOF_CHAN_PRECISITEM : ℕ := 24

/-- Where `channel[i].key` lies in a list of precis items. -/
def itemOff (i : ℕ) : ℕ := 4 + 24 * i

/-! ### The functions -/

/-- Memory outside a block is accessed, or a function of the list has no result. -/
inductive MetaFault
  | outside
  | list (fault : Fault)

def inBlock {α : Type} : Option α → Except MetaFault α
  | some a => .ok a
  | none => .error .outside

def onList {α : Type} : Except Fault α → Except MetaFault α
  | .ok a => .ok a
  | .error e => .error (.list e)

/-- What is logged as an error. -/
inductive MetaEvent
  | allocationFailed
  | timesNotFound (key : Int32) (name : List UInt8)
  | networkNotFound (asked key : Int32)
  deriving DecidableEq

/-- `chan_list` and `channelList`. -/
structure MetaState where
  list : MetaChanList
  channelList : Option (List UInt8)

/-- `NMXP_MEM_MALLOC(length)`, and `memmove` from the buffer. -/
def arrived (malloc : Malloc) (r : Received) : Except MetaFault (Option (List UInt8)) :=
  match malloc.alloc (sizeT r.length) with
  | none => return none
  | some block => do
    let buffer := r.body ++ List.replicate (NMXP_MAX_LENGTH_DATA_BUFFER - r.body.length) 0
    let bytes ← inBlock (readAt buffer 0 (sizeT r.length))
    let block ← inBlock (writeAt block 0 bytes)
    return some block

/-- `x = ntohl(x)` for an integer of a block. -/
def convertAt (host : Host) (block : List UInt8) (off : ℕ) : Option (Int32 × List UInt8) := do
  let v ← readInt host block off
  let block ← writeInt host block off (ntohl host v)
  return (ntohl host v, block)

/-- Bytes as a string, up to a NUL. -/
def textOf (bs : List UInt8) : CStr := (bs.takeWhile (· ≠ 0)).map fun b => Char.ofNat b.toNat

/-- A string of a block as `%s` prints it, up to a NUL. -/
def textAt (block : List UInt8) (off : ℕ) : Option (List UInt8) :=
  if 0 ∈ block.drop off then some ((block.drop off).takeWhile (· ≠ 0)) else none

/-- The loop over a ChannelList, with `left` channels to go. -/
def announceLoop (host : Host) (datatype : NmxpDatatype) :
    ℕ → ℕ → List UInt8 → MetaChanList → Except MetaFault (List UInt8 × MetaChanList)
  | 0, _, block, list => return (block, list)
  | left + 1, i, block, list => do
    let (key, block) ← inBlock (convertAt host block (keyOff i))
    if getDataTypeFromKey key = datatype.number then do
      let name ← inBlock (strncpySource block (nameOff i) NAME_SIZE)
      let (list, _) ← onList (nmxpMetaChanAdd list key (some (textOf name)) 0 0 none .name)
      announceLoop host datatype left (i + 1) block list
    else announceLoop host datatype left (i + 1) block list

/-- **A message in answer to the request for the channels.** -/
def listStep (host : Host) (malloc : Malloc) (datatype : NmxpDatatype) (q : MetaState)
    (r : Received) : Except MetaFault (MetaState × List MetaEvent) := do
  match ← arrived malloc r with
  | some block => do
    let (number, block) ← inBlock (convertAt host block 0)
    let (block, list) ← announceLoop host datatype number.toInt.toNat 0 block q.list
    return (⟨list, some block⟩, [])
  | none => return ({ q with channelList := none }, [.allocationFailed])

/-- The loop over a PrecisList, with `left` items to go. -/
def precisLoop (host : Host) :
    ℕ → ℕ → List UInt8 → MetaChanList → Except MetaFault (MetaChanList × List MetaEvent)
  | 0, _, _, list => return (list, [])
  | left + 1, i, block, list => do
    let (key, block) ← inBlock (convertAt host block (itemOff i))
    let (startTime, block) ← inBlock (convertAt host block (itemOff i + 16))
    let (endTime, block) ← inBlock (convertAt host block (itemOff i + 20))
    let (list, item) ← onList (nmxpMetaChanSetTimes list key startTime endTime)
    let evs ← match item with
      | some _ => pure []
      | none => do
        let name ← inBlock (textAt block (itemOff i + 4))
        pure [.timesNotFound key name]
    let (list, evs') ← precisLoop host left (i + 1) block list
    return (list, evs ++ evs')

/-- **A message in answer to the request for the times.** -/
def precisStep (host : Host) (malloc : Malloc) (list : MetaChanList) (r : Received) :
    Except MetaFault (MetaChanList × List MetaEvent) := do
  match ← arrived malloc r with
  | some block => do
    let (number, block) ← inBlock (convertAt host block 0)
    precisLoop host number.toInt.toNat 0 block list
  | none => return (list, [.allocationFailed])

/-- **A message in answer to the request for the network** of the channel `asked`. -/
def infoStep (host : Host) (malloc : Malloc) (asked : Int32) (list : MetaChanList)
    (r : Received) : Except MetaFault (MetaChanList × List MetaEvent) := do
  match ← arrived malloc r with
  | some block => do
    let (key, block) ← inBlock (convertAt host block 0)
    match ← onList (nmxpMetaChanSearchKey list key) with
    | some _ => do
      let network ← inBlock (strncpySource block 16 NAME_SIZE)
      let (list, _) ← onList (nmxpMetaChanSetNetwork list key (textOf network))
      return (list, [])
    | none => return (list, [.networkNotFound asked key])
  | none => return (list, [.allocationFailed])

/-! ### What the messages hold -/

/-- An item of a PrecisList. -/
structure PrecisRecord extends ChanRecord where
  startTime : Int32
  endTime : Int32

/-- A ChannelInfoResponse. -/
structure InfoRecord extends ChanRecord where
  network : List UInt8
  network_lt : network.length < NAME_SIZE
  network_no_nul : 0 ∉ network

@[simp] theorem length_nameArray (r : ChanRecord) : (r.inArray NAME_SIZE).length = NAME_SIZE :=
  r.length_inArray le_rfl

namespace PrecisRecord

def bytes (r : PrecisRecord) : List UInt8 :=
  network32 r.key ++ (r.inArray NAME_SIZE ++ (network32 r.startTime ++ network32 r.endTime))

@[simp] theorem length_bytes (r : PrecisRecord) : r.bytes.length = SIZEOF_CHAN_PRECISITEM := by
  simp only [bytes, List.length_append, length_network32, length_nameArray]
  rfl

end PrecisRecord

/-- The body of a PrecisList. -/
def precisBody (l : List PrecisRecord) : List UInt8 :=
  network32 (int32 l.length) ++ l.flatMap PrecisRecord.bytes

/-- The body of a ChannelInfoResponse. -/
def InfoRecord.body (r : InfoRecord) : List UInt8 :=
  network32 r.key ++ (r.inArray NAME_SIZE ++
    (r.network ++ List.replicate (NAME_SIZE - r.network.length) 0))

theorem length_precisBody (l : List PrecisRecord) :
    (precisBody l).length = 4 + SIZEOF_CHAN_PRECISITEM * l.length := by
  have hitems : (l.flatMap PrecisRecord.bytes).length = SIZEOF_CHAN_PRECISITEM * l.length := by
    induction l with
    | nil => rfl
    | cons r l ih =>
      rw [List.flatMap_cons, List.length_append, ih, PrecisRecord.length_bytes, List.length_cons]
      ring
  rw [precisBody, List.length_append, length_network32, hitems]

/-- A channel as it is added. -/
def itemOf (r : ChanRecord) : NmxpMetaChan := ⟨r.key, textOf r.name, 0, 0, []⟩

/-- Fields of the item with a key are set. -/
def setIn (key : Int32) (f : NmxpMetaChan → NmxpMetaChan) (v : NmxpMetaChan) : NmxpMetaChan :=
  if v.key = key then f v else v

/-- What a precis item does to the items. -/
def PrecisRecord.set (v : NmxpMetaChan) (r : PrecisRecord) : NmxpMetaChan :=
  setIn r.key (fun v => { v with startTime := r.startTime, endTime := r.endTime }) v

/-- What a ChannelInfoResponse does to the items. -/
def InfoRecord.set (v : NmxpMetaChan) (r : InfoRecord) : NmxpMetaChan :=
  setIn r.key (fun v => { v with network := textOf r.network }) v

/-! ### Blocks -/

section Blocks
variable {front : List UInt8} {off : ℕ}

/-- **An integer is converted** where it lies. -/
theorem convertAt_append (host : Host) (v : Int32) (tail : List UInt8) (h : front.length = off) :
    convertAt host (front ++ (network32 v ++ tail)) off =
      some (v, front ++ (inMemory host v ++ tail)) := by
  have hread : readInt host (front ++ (network32 v ++ tail)) off =
      some (int32 (load host (network32 v))) := by
    rw [readInt, readAt_append h (length_network32 v)]
    rfl
  have hv : ntohl host (int32 (load host (network32 v))) = v := ntohl_network32 host v
  have hlen : (inMemory host v).length = (network32 v).length := by
    rw [inMemory, length_store, length_network32]
  have hwrite : writeInt host (front ++ (network32 v ++ tail)) off v =
      some (front ++ (inMemory host v ++ tail)) := by
    rw [writeInt, writeAt_append h, if_pos (by rw [hlen, List.length_append]; omega), hlen,
      List.drop_left, List.append_assoc]
  unfold convertAt
  rw [hread]
  simp only [Option.bind_eq_bind, Option.bind_some, hv, hwrite]
  rfl

theorem convertAt_front (host : Host) (v : Int32) (tail : List UInt8) :
    convertAt host (network32 v ++ tail) 0 = some (v, inMemory host v ++ tail) :=
  convertAt_append host v tail (rfl : ([] : List UInt8).length = 0)

/-- A text ends at the first NUL. -/
theorem takeWhile_append_of_no_nul {text rest : List UInt8} (hno : 0 ∉ text)
    (hrest : rest.takeWhile (· ≠ 0) = []) : (text ++ rest).takeWhile (· ≠ 0) = text := by
  have hall : ∀ x ∈ text, decide (x ≠ 0) = true := by
    intro x hx
    refine decide_eq_true fun h0 => ?_
    rw [h0] at hx
    exact hno hx
  rw [List.takeWhile_append_of_pos hall, hrest, List.append_nil]

/-- What lies in an array with NULs behind it. -/
theorem textAt_append {text : List UInt8} (n : ℕ) (tail : List UInt8) (h : front.length = off)
    (hno : 0 ∉ text) :
    textAt (front ++ ((text ++ List.replicate (n + 1) 0) ++ tail)) off = some text := by
  have hdrop : (front ++ ((text ++ List.replicate (n + 1) 0) ++ tail)).drop off =
      text ++ 0 :: (List.replicate n 0 ++ tail) := by
    rw [← h, List.drop_left, List.replicate_succ, List.append_assoc, List.cons_append]
  rw [textAt, hdrop, if_pos (by simp), takeWhile_append_of_no_nul hno (by simp)]

/-- The text of an array, with NULs behind it or not. -/
theorem textOf_padded {text : List UInt8} (n : ℕ) (hno : 0 ∉ text) :
    textOf (text ++ List.replicate n 0) = textOf text := by
  unfold textOf
  rw [takeWhile_of_no_nul hno, takeWhile_append_of_no_nul hno (by cases n <;> rfl)]

theorem short_textOf {text : List UInt8} (h : text.length < NAME_SIZE) : Short (textOf text) := by
  rw [Short, textOf, List.length_map]
  exact (List.takeWhile_prefix _).length_le.trans_lt h

/-- `strncpy` from an array that lies in the block. -/
theorem strncpySource_append {text : List UInt8} (tail : List UInt8) (h : front.length = off)
    (hno : 0 ∉ text) (hlt : text.length < NAME_SIZE) :
    strncpySource (front ++ ((text ++ List.replicate (NAME_SIZE - text.length) 0) ++ tail)) off
      NAME_SIZE = some (text ++ List.replicate (NAME_SIZE - text.length) 0) := by
  obtain ⟨n, hn⟩ : ∃ n, NAME_SIZE - text.length = n + 1 := ⟨NAME_SIZE - text.length - 1, by omega⟩
  refine strncpySource_array (m := NAME_SIZE) (k := n) ?_ hno hlt
  rw [← hn]
  exact readAt_append h (by rw [List.length_append, List.length_replicate]; omega)

end Blocks

/-! ### The list of channels -/

abbrev Items := List (ℕ × NmxpMetaChan)

/-- A list in the order of the names. -/
structure Holds (s : MetaChanList) (items : Items) : Prop where
  list : IsList s.heap s.chanList items
  sorted : Sorted .name items

def keysOf (items : Items) : List Int32 := items.map fun x => x.2.key

/-- The items with other fields, in the same places. -/
def updated (f : NmxpMetaChan → NmxpMetaChan) (items : Items) : Items :=
  items.map fun x => (x.1, f x.2)

/-- The key and the name stay. -/
def KeepsName (f : NmxpMetaChan → NmxpMetaChan) : Prop :=
  ∀ v, (f v).key = v.key ∧ (f v).name = v.name

section Lists
variable {s : MetaChanList} {items : Items} {f g : NmxpMetaChan → NmxpMetaChan}

theorem KeepsName.setIn (h : KeepsName f) (key : Int32) : KeepsName (setIn key f) := by
  intro v
  unfold MetaMessages.setIn
  split_ifs
  · exact h v
  · exact ⟨rfl, rfl⟩

theorem KeepsName.comp (hf : KeepsName f) (hg : KeepsName g) : KeepsName fun v => g (f v) :=
  fun v => ⟨(hg (f v)).1.trans (hf v).1, (hg (f v)).2.trans (hf v).2⟩

theorem KeepsName.foldl {α : Type} {set : NmxpMetaChan → α → NmxpMetaChan}
    (h : ∀ r, KeepsName fun v => set v r) : ∀ l : List α, KeepsName fun v => l.foldl set v
  | [], _ => ⟨rfl, rfl⟩
  | r :: l, v => (h r).comp (KeepsName.foldl h l) v

theorem keysOf_updated (hf : KeepsName f) (items : Items) :
    keysOf (updated f items) = keysOf items := by
  simp [keysOf, updated, Function.comp_def, fun v => (hf v).1]

theorem updated_updated (f g : NmxpMetaChan → NmxpMetaChan) (items : Items) :
    updated g (updated f items) = updated (fun v => g (f v)) items := by
  simp [updated, Function.comp_def]

/-- A channel is added. -/
theorem add_ok (h : Holds s items) (key : Int32) {name : CStr} (hshort : Short name) :
    ∃ s' p items', nmxpMetaChanAdd s key (some name) 0 0 none .name = .ok (s', p) ∧
      Holds s' items' ∧
      (items'.map Prod.snd).Perm (items.map Prod.snd ++ [⟨key, name, 0, 0, []⟩]) := by
  have hcall : (Call.add key (some name) 0 0 none).Short :=
    ⟨fun t ht => Option.some.inj ht ▸ hshort, fun t ht => nomatch ht⟩
  obtain ⟨s', p, items', hstep, hlist, hsorted, hspec, -⟩ := step_spec h.list h.sorted hcall
  obtain ⟨⟨s₁, p₁⟩, hadd, heq⟩ := bind_eq_ok.mp hstep
  obtain ⟨rfl, hp⟩ := Prod.mk.inj (Except.ok.inj heq)
  obtain ⟨l₁, a, l₂, rfl, -, rfl⟩ := hspec
  refine ⟨s₁, p₁, _, hadd, ⟨hlist, hsorted⟩, ?_⟩
  simp only [List.map_append, List.map_cons, List.append_assoc]
  exact List.Perm.append_left _ (List.perm_append_singleton _ _).symm

/-- The pointer to a list. -/
theorem pointer_eq {heap : List (Cell NmxpMetaChan)} {p : Option ℕ} (h : IsList heap p items) :
    p = (items.map Prod.fst).head? := by
  cases items with
  | nil => exact h
  | cons x items => exact h.1

/-- No item has the key. -/
theorem updated_absent {key : Int32} (h : key ∉ keysOf items) :
    updated (setIn key f) items = items := by
  have hne : ∀ x ∈ items, x.2.key ≠ key := fun x hx hkey => h (List.mem_map.mpr ⟨x, hx, hkey⟩)
  calc updated (setIn key f) items = items.map id :=
        List.map_congr_left fun x hx => by simp [setIn, hne x hx]
    _ = items := List.map_id items

/-- Where the keys are different, fields are set in one item, or in none. -/
theorem updated_of_fieldsSet {key : Int32} {p : Option ℕ} {items' : Items}
    (h : FieldsSet key f items p items') (hnodup : (keysOf items).Nodup) :
    items' = updated (setIn key f) items ∧ (p = none ↔ key ∉ keysOf items) := by
  have habsent {l : Items} (hl : ∀ x ∈ l, x.2.key ≠ key) : key ∉ keysOf l := by
    intro hmem
    obtain ⟨x, hx, hkey⟩ := List.mem_map.mp hmem
    exact hl x hx hkey
  cases h with
  | absent h => exact ⟨(updated_absent (habsent h)).symm, iff_of_true rfl (habsent h)⟩
  | first l₁ a item l₂ hitems hl₁ hkey =>
    subst hitems
    have hl₂ : key ∉ keysOf l₂ := by
      rw [keysOf, List.map_append, List.map_cons, hkey] at hnodup
      exact (List.nodup_cons.mp (List.nodup_append.mp hnodup).2.1).1
    refine ⟨?_, iff_of_false (by simp) fun hno => hno ?_⟩
    · rw [updated, List.map_append, List.map_cons, ← updated, ← updated,
        updated_absent (habsent hl₁), updated_absent hl₂]
      simp [setIn, hkey]
    · exact List.mem_map.mpr ⟨(a, item), by simp, hkey⟩

/-- **Fields are set** in the item with a key, where the keys are different. -/
theorem set_ok (h : Holds s items) (hnodup : (keysOf items).Nodup) (key : Int32)
    (hf : KeepsName f) :
    ∃ s' p, setFields s key f = .ok (s', p) ∧ s'.chanList = s.chanList ∧
      Holds s' (updated (setIn key f) items) ∧ (p = none ↔ key ∉ keysOf items) := by
  obtain ⟨s', p, items', hset, hlist, hfields⟩ := setFields_spec h.list key f
  have hsorted := sorted_of_identities (hfields.keeps hf) h.sorted
  obtain ⟨rfl, hp⟩ := updated_of_fieldsSet hfields hnodup
  refine ⟨s', p, hset, ?_, ⟨hlist, hsorted⟩, hp⟩
  rw [pointer_eq hlist, pointer_eq h.list, updated, List.map_map]
  rfl

end Lists

/-! ### The messages -/

section Messages
variable {malloc : Malloc}
  (hmem : ∀ n ≤ NMXP_MAX_LENGTH_DATA_BUFFER, malloc.alloc n ≠ none)

include hmem in
/-- The block gets the body of the message. -/
theorem arrived_ok {m : Message} (hfit : m.Fits NMXP_MAX_LENGTH_DATA_BUFFER) :
    arrived malloc m.received = .ok (some m.body) := by
  have hsize : sizeT m.length = m.body.length := sizeT_of_toInt m.toInt_length
  obtain ⟨block, hblock⟩ := Option.ne_none_iff_exists'.mp (hmem m.body.length hfit)
  have hlen := malloc.length_alloc _ block hblock
  have hread : readAt ([] ++ (m.body ++ List.replicate
      (NMXP_MAX_LENGTH_DATA_BUFFER - m.body.length) 0)) 0 m.body.length = some m.body :=
    readAt_append rfl rfl
  rw [List.nil_append] at hread
  have hwrite : writeAt block 0 m.body = some m.body := by
    rw [writeAt, if_pos (by omega), List.drop_of_length_le (by omega)]
    simp
  unfold arrived
  simp only [Message.received, hsize, hblock, hread, hwrite, inBlock, ok_bind]
  rfl

/-- A record of a ChannelList, converted. -/
def inHost (host : Host) (r : ChanRecord) : List UInt8 :=
  inMemory host r.key ++ r.inArray NAME_SIZE

def OfTypeNumber (datatype : NmxpDatatype) (r : ChanRecord) : Bool :=
  getDataTypeFromKey r.key = datatype.number

/-- **The loop over a ChannelList** adds the channels of the type, and converts each key. -/
theorem announceLoop_ok (host : Host) (datatype : NmxpDatatype) (tail : List UInt8) :
    ∀ (l : List ChanRecord) (i : ℕ) (front : List UInt8) {s : MetaChanList} {items : Items},
      front.length = keyOff i → Holds s items → ∃ s' items',
        announceLoop host datatype l.length i (front ++ (l.flatMap ChanRecord.bytes ++ tail)) s =
          .ok (front ++ (l.flatMap (inHost host) ++ tail), s') ∧ Holds s' items' ∧
        (items'.map Prod.snd).Perm
          (items.map Prod.snd ++ (l.filter (OfTypeNumber datatype)).map itemOf)
  | [], i, front, s, items, _, hs => ⟨s, items, rfl, hs, by simp⟩
  | r :: l, i, front, s, items, hfront, hs => by
    have hblock : front ++ ((r :: l).flatMap ChanRecord.bytes ++ tail) =
        front ++ (network32 r.key ++
          (r.inArray NAME_SIZE ++ (l.flatMap ChanRecord.bytes ++ tail))) := by
      simp only [List.flatMap_cons, ChanRecord.bytes, List.append_assoc]
      rfl
    have hkey : (inMemory host r.key).length = 4 := by rw [inMemory, length_store]
    have hoff : (front ++ inMemory host r.key).length = nameOff i := by
      rw [List.length_append, hfront, hkey]
      unfold keyOff nameOff
      omega
    have hname := strncpySource_append (l.flatMap ChanRecord.bytes ++ tail) hoff r.no_nul r.name_lt
    rw [List.append_assoc, ← ChanRecord.inArray] at hname
    have hnext : (front ++ inHost host r).length = keyOff (i + 1) := by
      rw [List.length_append, inHost, List.length_append, hfront, hkey, length_nameArray]
      unfold keyOff NAME_SIZE
      omega
    have hrest : front ++ (inMemory host r.key ++
        (r.inArray NAME_SIZE ++ (l.flatMap ChanRecord.bytes ++ tail))) =
        (front ++ inHost host r) ++ (l.flatMap ChanRecord.bytes ++ tail) := by
      simp only [inHost, List.append_assoc]
    rw [List.length_cons, announceLoop, hblock, convertAt_append host r.key _ hfront]
    simp only [inBlock, ok_bind, hname, List.filter_cons, OfTypeNumber, decide_eq_true_eq]
    have htext : textOf (r.inArray NAME_SIZE) = textOf r.name := textOf_padded _ r.no_nul
    by_cases htype : getDataTypeFromKey r.key = datatype.number
    · obtain ⟨s₁, p, items₁, hadd, hs₁, hperm₁⟩ := add_ok hs r.key (short_textOf r.name_lt)
      obtain ⟨s', items', hloop, hs', hperm⟩ := announceLoop_ok host datatype tail l _ _ hnext hs₁
      refine ⟨s', items', ?_, hs', hperm.trans ?_⟩
      · rw [if_pos htype, htext, hadd, hrest]
        simp only [onList, ok_bind]
        rw [hloop, List.flatMap_cons, List.append_assoc, List.append_assoc]
      · rw [if_pos htype, List.map_cons, ← List.singleton_append, ← List.append_assoc]
        exact hperm₁.append_right _
    · obtain ⟨s', items', hloop, hs', hperm⟩ := announceLoop_ok host datatype tail l _ _ hnext hs
      refine ⟨s', items', ?_, hs', ?_⟩
      · rw [if_neg htype, hrest, hloop]
        simp only [List.flatMap_cons, List.append_assoc]
      · rw [if_neg htype]
        exact hperm

/-- A converted ChannelList. -/
def listInHost (host : Host) (l : List ChanRecord) : List UInt8 :=
  inMemory host (int32 l.length) ++ l.flatMap (inHost host)

theorem convertKeys_succ (host : Host) (left i : ℕ) (b : List UInt8) :
    convertKeys host (left + 1) i b =
      (convertAt host b (keyOff i)).bind fun x => convertKeys host left (i + 1) x.2 := by
  rw [convertKeys, convertAt]
  cases readInt host b (keyOff i) with
  | none => rfl
  | some v => cases h : writeInt host b (keyOff i) (ntohl host v) <;> simp [h]

theorem convertKeys_append (host : Host) (tail : List UInt8) :
    ∀ (l : List ChanRecord) (i : ℕ) (front : List UInt8), front.length = keyOff i →
      convertKeys host l.length i (front ++ (l.flatMap ChanRecord.bytes ++ tail)) =
        some (front ++ (l.flatMap (inHost host) ++ tail))
  | [], _, _, _ => rfl
  | r :: l, i, front, hfront => by
    have hblock : front ++ ((r :: l).flatMap ChanRecord.bytes ++ tail) =
        front ++ (network32 r.key ++
          (r.inArray NAME_SIZE ++ (l.flatMap ChanRecord.bytes ++ tail))) := by
      simp only [List.flatMap_cons, ChanRecord.bytes, List.append_assoc]
      rfl
    have hnext : (front ++ inHost host r).length = keyOff (i + 1) := by
      simp only [List.length_append, inHost, hfront, inMemory, length_store, length_nameArray]
      unfold keyOff NAME_SIZE
      omega
    have hloop := convertKeys_append host tail l _ _ hnext
    rw [List.append_assoc, inHost, List.append_assoc] at hloop
    rw [List.length_cons, convertKeys_succ, hblock, convertAt_append host r.key _ hfront,
      Option.bind_some, hloop]
    simp only [List.flatMap_cons, inHost, List.append_assoc]

/-- **The converted list** is one as the functions of the channel lists read it. -/
theorem lists_inHost (host : Host) {l : List ChanRecord} (hl : l.length < 2 ^ 31) :
    Lists host (listInHost host l) (l.map ChanRecord.entry) := by
  obtain ⟨b, hb, -, hlists⟩ := receive_channelList host
    (rfl : (listBody l).length = (listBody l).length)
    (by rw [countOf_listBody, toInt_int32_of_lt hl]) (length_listBody l).ge
  have hnumber := convertAt_front host (int32 l.length) (l.flatMap ChanRecord.bytes)
  have hkeys := convertKeys_append host [] l 0 (inMemory host (int32 l.length))
    (by rw [inMemory, length_store]; rfl)
  rw [List.append_nil, List.append_nil] at hkeys
  have hconvert : convertList host (listBody l) (listBody l).length (listBody l) =
      (convertAt host (listBody l) 0).bind fun x =>
        convertKeys host x.1.toInt.toNat 0 x.2 := by
    rw [convertList_memmove rfl]
    unfold convertAt
    cases readInt host (listBody l) 0 with
    | none => rfl
    | some v => cases h : writeInt host (listBody l) 0 (ntohl host v) <;> simp [h]
  rw [← listBody] at hnumber
  rw [hconvert, hnumber, Option.bind_some, toInt_toNat_int32 hl, hkeys] at hb
  rw [← entriesOf_listBody]
  rwa [← Option.some.inj hb] at hlists

/-- How long a list in a message can be. -/
theorem length_of_fits {l : List ChanRecord} {m : Message} (hm : m.body = listBody l)
    (hfit : m.Fits NMXP_MAX_LENGTH_DATA_BUFFER) : l.length < 2 ^ 31 := by
  unfold Message.Fits at hfit
  rw [hm, length_listBody] at hfit
  unfold SIZEOF_CHAN_KEY NMXP_MAX_LENGTH_DATA_BUFFER at hfit
  omega

include hmem in
/-- **A ChannelList.** -/
theorem listStep_ok (host : Host) (datatype : NmxpDatatype) {l : List ChanRecord} {m : Message}
    (hm : m.body = listBody l) (hfit : m.Fits NMXP_MAX_LENGTH_DATA_BUFFER) {q : MetaState}
    {items : Items} (hq : Holds q.list items) :
    ∃ s' items', listStep host malloc datatype q m.received =
        .ok (⟨s', some (listInHost host l)⟩, []) ∧ Holds s' items' ∧
      (items'.map Prod.snd).Perm
        (items.map Prod.snd ++ (l.filter (OfTypeNumber datatype)).map itemOf) := by
  have hl := length_of_fits hm hfit
  have hnumber := convertAt_front host (int32 l.length) (l.flatMap ChanRecord.bytes)
  rw [← listBody, ← hm] at hnumber
  obtain ⟨s', items', hloop, hs', hperm⟩ := announceLoop_ok host datatype [] l 0
    (inMemory host (int32 l.length)) (by rw [inMemory, length_store]; rfl) hq
  rw [List.append_nil, List.append_nil] at hloop
  refine ⟨s', items', ?_, hs', hperm⟩
  unfold listStep
  simp only [arrived_ok hmem hfit, ok_bind, hnumber, inBlock, toInt_toNat_int32 hl, hloop]
  rfl

theorem keepsName_precis (r : PrecisRecord) : KeepsName fun v => PrecisRecord.set v r :=
  KeepsName.setIn (f := fun v => { v with startTime := r.startTime, endTime := r.endTime })
    (fun _ => ⟨rfl, rfl⟩) r.key

theorem keepsName_info (r : InfoRecord) : KeepsName fun v => InfoRecord.set v r :=
  KeepsName.setIn (f := fun v => { v with network := textOf r.network })
    (fun _ => ⟨rfl, rfl⟩) r.key

/-- A precis item, converted. -/
def PrecisRecord.inHost (host : Host) (r : PrecisRecord) : List UInt8 :=
  inMemory host r.key ++ (r.inArray NAME_SIZE ++
    (inMemory host r.startTime ++ inMemory host r.endTime))

/-- One item of a PrecisList. -/
theorem precisItem (host : Host) (r : PrecisRecord) (rest : List UInt8) {i : ℕ}
    {front : List UInt8} (hfront : front.length = itemOff i) :
    convertAt host (front ++ (r.bytes ++ rest)) (itemOff i) = some (r.key,
        front ++ (inMemory host r.key ++
          (r.inArray NAME_SIZE ++ (network32 r.startTime ++ (network32 r.endTime ++ rest))))) ∧
      convertAt host (front ++ (inMemory host r.key ++
          (r.inArray NAME_SIZE ++ (network32 r.startTime ++ (network32 r.endTime ++ rest)))))
        (itemOff i + 16) = some (r.startTime, front ++ (inMemory host r.key ++
          (r.inArray NAME_SIZE ++ (inMemory host r.startTime ++
            (network32 r.endTime ++ rest))))) ∧
      convertAt host (front ++ (inMemory host r.key ++
          (r.inArray NAME_SIZE ++ (inMemory host r.startTime ++ (network32 r.endTime ++ rest)))))
        (itemOff i + 20) = some (r.endTime, front ++ (r.inHost host ++ rest)) ∧
      textAt (front ++ (r.inHost host ++ rest)) (itemOff i + 4) = some r.name := by
  have hkey : (inMemory host r.key).length = 4 := by rw [inMemory, length_store]
  have htime : (inMemory host r.startTime).length = 4 := by rw [inMemory, length_store]
  have hkeyRead := convertAt_append host r.key (r.inArray NAME_SIZE ++
    (network32 r.startTime ++ (network32 r.endTime ++ rest))) hfront
  have hoff : (front ++ (inMemory host r.key ++ r.inArray NAME_SIZE)).length = itemOff i + 16 := by
    simp only [List.length_append, hfront, hkey, length_nameArray]
    rfl
  have hstart := convertAt_append host r.startTime (network32 r.endTime ++ rest) hoff
  have hoff' : (front ++ (inMemory host r.key ++
      (r.inArray NAME_SIZE ++ inMemory host r.startTime))).length = itemOff i + 20 := by
    simp only [List.length_append, hfront, hkey, htime, length_nameArray]
    rfl
  have hend := convertAt_append host r.endTime rest hoff'
  have hfour : (front ++ inMemory host r.key).length = itemOff i + 4 := by
    rw [List.length_append, hfront, hkey]
  obtain ⟨n, hn⟩ : ∃ n, NAME_SIZE - r.name.length = n + 1 :=
    Nat.exists_eq_succ_of_ne_zero (Nat.sub_ne_zero_of_lt r.name_lt)
  have hname := textAt_append n (inMemory host r.startTime ++ (inMemory host r.endTime ++ rest))
    hfour r.no_nul
  rw [← hn, ← ChanRecord.inArray] at hname
  simp only [List.append_assoc] at hstart hend hname
  simp only [PrecisRecord.bytes, PrecisRecord.inHost, List.append_assoc]
  exact ⟨hkeyRead, hstart, hend, hname⟩

/-- **The loop over a PrecisList** sets the times of the channels that are on the list, and logs the
others. -/
theorem precisLoop_ok (host : Host) (tail : List UInt8) :
    ∀ (l : List PrecisRecord) (i : ℕ) (front : List UInt8) {s : MetaChanList} {items : Items},
      front.length = itemOff i → Holds s items → (keysOf items).Nodup → ∃ s',
        precisLoop host l.length i (front ++ (l.flatMap PrecisRecord.bytes ++ tail)) s =
          .ok (s', (l.filter (·.key ∉ keysOf items)).map fun r => .timesNotFound r.key r.name) ∧
        s'.chanList = s.chanList ∧ Holds s' (updated (fun v => l.foldl PrecisRecord.set v) items)
  | [], i, front, s, items, _, hs, _ => by
    exact ⟨s, rfl, rfl, by simpa [updated] using hs⟩
  | r :: l, i, front, s, items, hfront, hs, hnodup => by
    obtain ⟨hkey, hstart, hend, hname⟩ :=
      precisItem host r (l.flatMap PrecisRecord.bytes ++ tail) hfront
    obtain ⟨s₁, p, hset, hp₁, hs₁, hfound⟩ : ∃ s₁ p,
        nmxpMetaChanSetTimes s r.key r.startTime r.endTime = .ok (s₁, p) ∧
        s₁.chanList = s.chanList ∧ Holds s₁ (updated (fun v => PrecisRecord.set v r) items) ∧
        (p = none ↔ r.key ∉ keysOf items) := set_ok hs hnodup r.key fun _ => ⟨rfl, rfl⟩
    have hkeys := keysOf_updated (keepsName_precis r) items
    have hnext : (front ++ r.inHost host).length = itemOff (i + 1) := by
      simp only [List.length_append, PrecisRecord.inHost, hfront, inMemory, length_store,
        length_nameArray]
      unfold itemOff NAME_SIZE
      omega
    obtain ⟨s', hloop, hp', hs'⟩ := precisLoop_ok host tail l _ _ hnext hs₁ (hkeys ▸ hnodup)
    rw [List.append_assoc, hkeys] at hloop
    refine ⟨s', ?_, hp'.trans hp₁, ?_⟩
    · rw [List.length_cons, precisLoop, List.flatMap_cons, List.append_assoc]
      simp only [hkey, inBlock, ok_bind, hstart, hend, hset, onList, hloop]
      cases p with
      | none =>
        have hno : r.key ∉ keysOf items := hfound.mp rfl
        simp only [hname, ok_bind, pure_eq_ok, List.filter_cons, hno, not_false_eq_true,
          decide_true, if_true, List.map_cons]
        rfl
      | some a =>
        have hyes : r.key ∈ keysOf items := by
          by_contra hno
          exact absurd (hfound.mpr hno) (by simp)
        simp [hyes]
    · rwa [updated_updated] at hs'

include hmem in
/-- **A PrecisList.** -/
theorem precisStep_ok (host : Host) {l : List PrecisRecord} {m : Message}
    (hm : m.body = precisBody l) (hfit : m.Fits NMXP_MAX_LENGTH_DATA_BUFFER)
    {s : MetaChanList} {items : Items} (hs : Holds s items) (hnodup : (keysOf items).Nodup) :
    ∃ s', precisStep host malloc s m.received = .ok (s',
        (l.filter (·.key ∉ keysOf items)).map fun r => .timesNotFound r.key r.name) ∧
      s'.chanList = s.chanList ∧
      Holds s' (updated (fun v => l.foldl PrecisRecord.set v) items) := by
  have hl : l.length < 2 ^ 31 := by
    unfold Message.Fits at hfit
    rw [hm, length_precisBody] at hfit
    unfold SIZEOF_CHAN_PRECISITEM NMXP_MAX_LENGTH_DATA_BUFFER at hfit
    omega
  have hnumber := convertAt_front host (int32 l.length) (l.flatMap PrecisRecord.bytes)
  rw [← precisBody, ← hm] at hnumber
  obtain ⟨s', hloop, hp, hs'⟩ := precisLoop_ok host [] l 0
    (inMemory host (int32 l.length)) (by rw [inMemory, length_store]; rfl) hs hnodup
  rw [List.append_nil] at hloop
  refine ⟨s', ?_, hp, hs'⟩
  unfold precisStep
  simp only [arrived_ok hmem hfit, ok_bind, hnumber, inBlock, toInt_toNat_int32 hl, hloop]

theorem firstWith_eq_none {key : Int32} {items : Items} :
    firstWith key items = none ↔ key ∉ keysOf items := by
  simp [firstWith, keysOf]

include hmem in
/-- **A ChannelInfoResponse.** -/
theorem infoStep_ok (host : Host) (asked : Int32) {r : InfoRecord} {m : Message}
    (hm : m.body = r.body) (hfit : m.Fits NMXP_MAX_LENGTH_DATA_BUFFER)
    {s : MetaChanList} {items : Items} (hs : Holds s items) (hnodup : (keysOf items).Nodup) :
    ∃ s', infoStep host malloc asked s m.received =
        .ok (s', if r.key ∈ keysOf items then [] else [.networkNotFound asked r.key]) ∧
      s'.chanList = s.chanList ∧ Holds s' (updated (fun v => InfoRecord.set v r) items) := by
  have hkey := convertAt_front host r.key (r.inArray NAME_SIZE ++
    (r.network ++ List.replicate (NAME_SIZE - r.network.length) 0))
  rw [← InfoRecord.body, ← hm] at hkey
  have hfront : (inMemory host r.key ++ r.inArray NAME_SIZE).length = 16 := by
    rw [List.length_append, inMemory, length_store, length_nameArray]
    rfl
  have hnetwork := strncpySource_append [] hfront r.network_no_nul r.network_lt
  rw [List.append_nil, List.append_assoc] at hnetwork
  obtain ⟨s', p, hset, hp, hs', hfound⟩ : ∃ s' p,
      nmxpMetaChanSetNetwork s r.key (textOf r.network) = .ok (s', p) ∧
      s'.chanList = s.chanList ∧ Holds s' (updated (fun v => InfoRecord.set v r) items) ∧
      (p = none ↔ r.key ∉ keysOf items) := by
    rw [nmxpMetaChanSetNetwork, strncpy_of_short (short_textOf r.network_lt)]
    exact set_ok hs hnodup r.key fun _ => ⟨rfl, rfl⟩
  have hsearch := searchKey_spec hs.list r.key
  unfold infoStep
  simp only [arrived_ok hmem hfit, ok_bind, hkey, inBlock, hsearch, onList]
  by_cases hmemKey : r.key ∈ keysOf items
  · obtain ⟨a, ha⟩ := Option.ne_none_iff_exists'.mp fun h => firstWith_eq_none.mp h hmemKey
    refine ⟨s', ?_, hp, hs'⟩
    simp only [ha, hnetwork, textOf_padded _ r.network_no_nul, hset, if_pos hmemKey, ok_bind]
    rfl
  · refine ⟨s, ?_, rfl, ?_⟩
    · simp only [firstWith_eq_none.mpr hmemKey, if_neg hmemKey]
      rfl
    · have hsame : updated (fun v => InfoRecord.set v r) items = items := updated_absent hmemKey
      rwa [hsame]

end Messages

end Nmxptool.Chan.MetaMessages
