import Nmxptool.Pds.Requests

/-! # The parameters of the tool

`nmxptool_check_params` goes through one chain of conditions, of which the first that applies ends
the chain, and then through some checks of their own. The conditions of the chain that only adjust a
parameter or warn end it as well.

* `refusals`: the conditions that refuse the parameters, in order.
* `conditions`: the chain.
* `nmxptoolCheckParams`: what the function returns, and the parameters as it leaves them. -/

namespace Nmxptool.Params.Parameters

open Nmxptool.Data.Process Nmxptool.Pds.Requests

def DEFAULT_STC_MINIMUM : ℤ := -1
def DEFAULT_STC_MAXIMUM : ℤ := 300
def DEFAULT_RATE_MINIMUM : ℤ := -1
def DEFAULT_RATE_MAXIMUM : ℤ := 1000
def DEFAULT_RATE : ℤ := -1
def DEFAULT_DELAY_MINIMUM : ℤ := 30
def DEFAULT_DELAY_MAXIMUM : ℤ := 86400 * 31
def DEFAULT_DELAY : ℤ := 0
def DEFAULT_SPANINTERVAL_MINIMUM : ℤ := 10
def DEFAULT_SPANINTERVAL_MAXIMUM : ℤ := 86400 * 1
def DEFAULT_MAX_TOLERABLE_LATENCY_MINIMUM : ℤ := 10
def DEFAULT_MAX_TOLERABLE_LATENCY_MAXIMUM : ℤ := 600
def DEFAULT_TIMEOUTRECV_MINIMUM : ℤ := 10
def DEFAULT_TIMEOUTRECV_MAXIMUM : ℤ := 300
def DEFAULT_VERBOSE_LEVEL_MINIMUM : ℤ := 0
def DEFAULT_VERBOSE_LEVEL_MAXIMUM : ℤ := 2047
def DEFAULT_INTERVAL_NO_VALUE : ℤ := -1
def DEFAULT_INTERVAL_INFINITE : ℤ := 0
def DEFAULT_INTERVAL_MAXIMUM : ℤ := 86400 * 31
def DEFAULT_MAX_TIME_TO_RETRIEVE_MINIMUM : ℤ := 0
def DEFAULT_MAX_TIME_TO_RETRIEVE_MAXIMUM : ℤ := 86400
def DEFAULT_NETWORKDELAY_MINIMUM : ℤ := 3
def DEFAULT_NETWORKDELAY_MAXIMUM : ℤ := 60
def DEFAULT_TIMING_QUALITY : ℤ := -1
def DEFAULT_TIMING_QUALITY_MINIMUM : ℤ := 0
def DEFAULT_TIMING_QUALITY_MAXIMUM : ℤ := 100
def NMXP_DAP_TIMEOUT_KEEPALIVE : ℤ := 15

/-- `NMXPTOOL_PARAMS`; a string is `none` for a NULL pointer. -/
structure NmxptoolParams where
  hostname : Option CStr
  channels : Option CStr
  startTime : ℚ
  endTime : ℚ
  interval : Int32
  stc : Int32
  rate : Int32
  delay : Int32
  spanData : Int32
  maxTolerableLatency : Int32
  timeoutrecv : Int32
  verboseLevel : Int32
  ewConfigurationFile : Option CStr
  statefile : Option CStr
  outdirseed : Option CStr
  typeWriteseed : UInt8
  nChannel : Int32
  usec : Int32
  maxDataToRetrieve : Int32
  networkdelay : Int32
  timingQuality : Int32
  flagListchannels : Int32
  flagListchannelsnaqs : Int32
  flagSlink : Int32
  flagSlinkms : Int32
  flagSlinkNetworkId : Int32
  flagBuffered : Int32
  deriving DecidableEq

def NMXPTOOL_PARAMS_DEFAULT : NmxptoolParams where
  hostname := none
  channels := none
  startTime := 0
  endTime := 0
  interval := -1
  stc := -1
  rate := -1
  delay := 0
  spanData := 10
  maxTolerableLatency := 600
  timeoutrecv := 0
  verboseLevel := 0
  ewConfigurationFile := none
  statefile := none
  outdirseed := none
  typeWriteseed := 0
  nChannel := 9
  usec := 280000
  maxDataToRetrieve := 0
  networkdelay := 5
  timingQuality := -1
  flagListchannels := 0
  flagListchannelsnaqs := 0
  flagSlink := 0
  flagSlinkms := 0
  flagSlinkNetworkId := 0
  flagBuffered := 0

/-- How the tool is built, and what it finds in the file system. -/
structure Build where
  libmseed : Bool
  seedlink : Bool
  nmxpDataDirExists : CStr → Bool
  nmxpDataGnuGetcwd : Option CStr

/-- A build with libmseed. -/
def seedBuild : Build := ⟨true, true, fun _ => true, none⟩

/-- What the function returns, the parameters as it leaves them, and what it logs. -/
structure Checked where
  ret : ℤ
  params : NmxptoolParams
  log : List String

/-- `ret = -1`, with a message. -/
def Checked.refuse (c : Checked) (text : String) : Checked :=
  { c with ret := -1, log := c.log ++ [text] }

/-- `ret = 0`. -/
def accept (p : NmxptoolParams) : Checked := ⟨0, p, []⟩

/-- A condition of the chain that refuses the parameters, and its message. -/
structure Refusal where
  applies : Bool
  text : String

/-- What `%s` prints. -/
def printed : Option CStr → String
  | some s => String.ofList s
  | none => "(null)"

/-- How a message names a range: `[%d..%d]`. -/
def range (minimum maximum : ℤ) : String := s!"[{minimum}..{maximum}]"

/-- `v < minimum || v > maximum`. -/
def outOfRange (v : Int32) (minimum maximum : ℤ) : Bool := v.toInt < minimum ∨ v.toInt > maximum

/-- The conditions of the chain, up to the output directory. -/
def refusals (p : NmxptoolParams) : List Refusal :=
  [⟨p.hostname = none, "<hostname> is required!\n"⟩,
    ⟨p.channels = none, "Channel list is required!\n"⟩,
    ⟨p.startTime = 0 ∧ p.endTime ≠ 0,
      "<end_time> is required when declaring <start_time>!\n"⟩,
    ⟨p.startTime ≠ 0 ∧ p.endTime ≠ 0 ∧ p.interval.toInt ≠ DEFAULT_INTERVAL_NO_VALUE,
      "<start_time> has to be used with either <end_time> or <interval>!\n"⟩,
    ⟨p.interval.toInt ≠ DEFAULT_INTERVAL_NO_VALUE ∧ p.interval.toInt ≤ 0,
      "<interval> has to be greater than zero!\n"⟩,
    ⟨p.interval.toInt > DEFAULT_INTERVAL_MAXIMUM,
      s!"<interval> has to be less than {DEFAULT_INTERVAL_MAXIMUM} seconds " ++
        s!"({DEFAULT_INTERVAL_MAXIMUM / 86400} days)!\n"⟩,
    ⟨p.startTime ≠ 0 ∧ p.endTime ≠ 0 ∧ p.startTime ≥ p.endTime,
      "<start_time> is less than <end_time>!\n"⟩,
    ⟨outOfRange p.stc DEFAULT_STC_MINIMUM DEFAULT_STC_MAXIMUM,
      "<stc> has to be in the interval " ++ range DEFAULT_STC_MINIMUM DEFAULT_STC_MAXIMUM ++
        " secs.\n"⟩,
    ⟨p.stc.toInt = -1 ∧ p.rate.toInt ≠ DEFAULT_RATE,
      "<rate> has to be equal to -1 when <stc> is equal to -1 (Raw Stream).\n"⟩,
    ⟨p.delay.toInt > 0 ∧ p.startTime ≠ 0 ∧ p.endTime ≠ 0,
      "<delay> can not be used with options <start_time> and <end_time>.\n"⟩,
    ⟨p.delay.toInt ≠ DEFAULT_DELAY ∧
        outOfRange p.delay DEFAULT_DELAY_MINIMUM DEFAULT_DELAY_MAXIMUM,
      "<delay> has to be in the interval " ++
        range DEFAULT_DELAY_MINIMUM DEFAULT_DELAY_MAXIMUM ++ " secs.\n"⟩,
    ⟨outOfRange p.spanData DEFAULT_SPANINTERVAL_MINIMUM DEFAULT_SPANINTERVAL_MAXIMUM,
      "<span_data> has to be in the interval " ++
        range DEFAULT_SPANINTERVAL_MINIMUM DEFAULT_SPANINTERVAL_MAXIMUM ++ " secs.\n"⟩,
    ⟨p.delay.toInt ≠ DEFAULT_DELAY ∧ p.spanData.toInt ≥ p.delay.toInt - NMXP_DAP_TIMEOUT_KEEPALIVE,
      s!"<span_data> has to be less than delay - {NMXP_DAP_TIMEOUT_KEEPALIVE}s. " ++
        s!"Current value should be less than {p.delay.toInt - NMXP_DAP_TIMEOUT_KEEPALIVE}s.\n"⟩,
    ⟨outOfRange p.verboseLevel DEFAULT_VERBOSE_LEVEL_MINIMUM DEFAULT_VERBOSE_LEVEL_MAXIMUM,
      "<verbose_level> has to be in the interval " ++
        range DEFAULT_VERBOSE_LEVEL_MINIMUM DEFAULT_VERBOSE_LEVEL_MAXIMUM ++ ".\n"⟩,
    ⟨outOfRange p.rate DEFAULT_RATE_MINIMUM DEFAULT_RATE_MAXIMUM,
      "<rate> has to be in the interval " ++ range DEFAULT_RATE_MINIMUM DEFAULT_RATE_MAXIMUM ++
        ".\n"⟩,
    ⟨p.rate.toInt ≠ -1 ∧ p.startTime ≠ 0 ∧ p.endTime ≠ 0,
      "<rate> can not be used with options <start_time> and <end_time>.\n"⟩,
    ⟨p.flagBuffered ≠ 0 ∧ p.startTime ≠ 0 ∧ p.endTime ≠ 0,
      "<buffered> can not be used with options <start_time> and <end_time>.\n"⟩,
    ⟨outOfRange p.maxDataToRetrieve DEFAULT_MAX_TIME_TO_RETRIEVE_MINIMUM
        DEFAULT_MAX_TIME_TO_RETRIEVE_MAXIMUM,
      "<maxdataretr> has to be within " ++
        range DEFAULT_MAX_TIME_TO_RETRIEVE_MINIMUM DEFAULT_MAX_TIME_TO_RETRIEVE_MAXIMUM ++
        ".\n"⟩]

/-- The end of the chain. -/
def lastConditions (p : NmxptoolParams) : Checked :=
  if p.stc.toInt = -1 ∧ outOfRange p.maxTolerableLatency DEFAULT_MAX_TOLERABLE_LATENCY_MINIMUM
      DEFAULT_MAX_TOLERABLE_LATENCY_MAXIMUM then
    (accept p).refuse ("<maxlatency> has to be within " ++
      range DEFAULT_MAX_TOLERABLE_LATENCY_MINIMUM DEFAULT_MAX_TOLERABLE_LATENCY_MAXIMUM ++ ".\n")
  else if p.stc.toInt = -1 ∧ outOfRange p.timeoutrecv DEFAULT_TIMEOUTRECV_MINIMUM
      DEFAULT_TIMEOUTRECV_MAXIMUM then
    if p.timeoutrecv.toInt ≠ 0 then
      (accept p).refuse ("<timeoutrecv> has to be within " ++
        range DEFAULT_TIMEOUTRECV_MINIMUM DEFAULT_TIMEOUTRECV_MAXIMUM ++
        " or equal to zero for not time-out.\n")
    else accept p
  else if outOfRange p.networkdelay DEFAULT_NETWORKDELAY_MINIMUM DEFAULT_NETWORKDELAY_MAXIMUM then
    (accept p).refuse ("<networkdelay> has to be within " ++
      range DEFAULT_NETWORKDELAY_MINIMUM DEFAULT_NETWORKDELAY_MAXIMUM ++ ".\n")
  else if p.stc.toInt ≠ -1 ∧ p.maxTolerableLatency.toInt > 0 then
    { accept p with log := ["<maxlatency> ignored since not defined --stc=-1.\n"] }
  else if p.stc.toInt ≠ -1 ∧ p.timeoutrecv.toInt > 0 then
    { accept { p with timeoutrecv := 0 } with
      log := ["<timeoutrecv> ignored since not defined --stc=-1.\n"] }
  else accept p

/-- The chain, from the output directory on. -/
def seedConditions (b : Build) (p : NmxptoolParams) : Checked :=
  match p.outdirseed with
  | some outdirseed =>
    if b.libmseed then
      if b.nmxpDataDirExists outdirseed then accept p
      else (accept p).refuse s!"Output directory {String.ofList outdirseed} does not exist!\n"
    else lastConditions p
  | none =>
    if b.libmseed ∧ p.typeWriteseed ≠ 0 then
      { accept { p with outdirseed := b.nmxpDataGnuGetcwd } with
        log := [s!"Set output dir to {printed b.nmxpDataGnuGetcwd}.\n"] }
    else lastConditions p

/-- **The chain.** -/
def conditions (b : Build) (p : NmxptoolParams) : Checked :=
  if p.ewConfigurationFile ≠ none then accept p
  else if p.hostname = none then (accept p).refuse "<hostname> is required!\n"
  else if p.flagListchannels ≠ 0 then
    if p.flagListchannelsnaqs ≠ 0 then
      (accept p).refuse "-l and -L can not be used together!\n"
    else accept p
  else if p.flagListchannelsnaqs ≠ 0 then accept p
  else match (refusals p).find? (·.applies) with
    | some r => (accept p).refuse r.text
    | none => seedConditions b p

/-! ### The checks behind the chain -/

def SlinkNetworkIdAlone (p : NmxptoolParams) : Prop :=
  p.flagSlinkNetworkId = 1 ∧ (p.flagSlink = 0 ∧ p.flagSlinkms = 0)

instance (p : NmxptoolParams) : Decidable (SlinkNetworkIdAlone p) :=
  inferInstanceAs (Decidable (_ ∧ _))

def TimingQualityWrong (p : NmxptoolParams) : Prop :=
  p.timingQuality.toInt ≠ DEFAULT_TIMING_QUALITY ∧
    outOfRange p.timingQuality DEFAULT_TIMING_QUALITY_MINIMUM DEFAULT_TIMING_QUALITY_MAXIMUM = true

instance (p : NmxptoolParams) : Decidable (TimingQualityWrong p) :=
  inferInstanceAs (Decidable (_ ∧ _))

def checkSlinkNetworkId (b : Build) (c : Checked) : Checked :=
  if b.seedlink ∧ SlinkNetworkIdAlone c.params then
    c.refuse "<slink_network_id> is used only by -k or -K options.\n"
  else c

def checkTimingQuality (b : Build) (c : Checked) : Checked :=
  if b.seedlink ∧ TimingQualityWrong c.params then
    c.refuse (s!"<timing_quality> could be {DEFAULT_TIMING_QUALITY} or within " ++
      s!"[{DEFAULT_TIMING_QUALITY_MINIMUM} .. {DEFAULT_TIMING_QUALITY_MAXIMUM}].\n")
  else c

def checkMschan (c : Checked) : Checked :=
  if c.params.usec = 0 ∧ c.params.nChannel = 0 then c
  else if outOfRange c.params.usec DEFAULT_USEC_MINIMUM DEFAULT_USEC_MAXIMUM then
    c.refuse ("ms in <mschan> has to be within " ++
      range (DEFAULT_USEC_MINIMUM / 1000) (DEFAULT_USEC_MAXIMUM / 1000) ++
      " or equal to zero if 0/0.\n")
  else if outOfRange c.params.nChannel DEFAULT_N_CHANNEL_MINIMUM DEFAULT_N_CHANNEL_MAXIMUM then
    c.refuse ("nC in <mschan> has to be within " ++
      range DEFAULT_N_CHANNEL_MINIMUM DEFAULT_N_CHANNEL_MAXIMUM ++
      " or equal to zero if 0/0.\n")
  else c

def resetMschan (c : Checked) : Checked :=
  if c.params.timeoutrecv.toInt > 0 ∧ (c.params.usec ≠ 0 ∨ c.params.nChannel ≠ 0) then
    { c with
      params := { c.params with usec := 0, nChannel := 0 }
      log := c.log ++
        ["<mschan> can not be used with <timeoutrecv>. <mschan> set to 0/0.\n"] }
  else c

/-- **`nmxptool_check_params`.** -/
def nmxptoolCheckParams (b : Build) (p : NmxptoolParams) : Checked :=
  resetMschan (checkMschan (checkTimingQuality b (checkSlinkNetworkId b (conditions b p))))

end Nmxptool.Params.Parameters
