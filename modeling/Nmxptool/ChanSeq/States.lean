import Nmxptool.Chan.Match
import Nmxptool.Pds.Clip
import Nmxptool.RawStream.Flush
import Nmxptool.RawStream.Progress

/-! # The state file

Between sessions the state file keeps two times for each channel: `last_time`, which the DAP and the
short-term-completion path advance, and `last_sample_time`, which the Raw Stream path advances.
`nmxptool_chanseq_load_states` reads them back, and picks the time to resume at by `stc`. A session
calls `nmxptool_chanseq_gap` and `nmxp_raw_stream_manage` in any order.

* `inputStep_ok`: what a call does to the two times.
* `decidingOn`: the packet whose end becomes the time to resume at.
* `loaded_ok`: it does, in every session of a run.
* `resume_iff`: no session resumes before data already delivered iff the deciding packet never ends
  before the last one of a session. -/

namespace Nmxptool.ChanSeq.States

open Nmxptool.Data.Process Nmxptool.Chan.Channels Nmxptool.Chan.Match
open Nmxptool.Lib.Floating Nmxptool.Lib.Run Nmxptool.Lib.Sorting
open Nmxptool.RawStream.Model Nmxptool.RawStream.Slots Nmxptool.RawStream.Manage
open Nmxptool.RawStream.Runs Nmxptool.RawStream.Flush Nmxptool.RawStream.Progress
open Nmxptool.Lib.Rounding (toDouble)
open Nmxptool.Pds.Clip (DEFAULT_BUFFERED_TIME)

/-! ### Gaps -/

def GAP_TOLLERANCE : ℚ := toDouble (1 / 1000)

/-- `nmxptool_chanseq_check_and_log_gap`: whether there is a gap, `1`, or an overlap, `-1`. -/
def nmxptoolChanseqCheckAndLogGap (time1 time2 : Double) (gapTollerance : ℚ) : ℤ :=
  if (time1 - time2).round > .finite gapTollerance then 1
  else if (time1 - time2).round < .finite (-gapTollerance) then -1
  else 0

/-- The comparison with the last time, for a channel that has one. -/
def compareLastTime (s : NmxptoolChanSeq) (pd : NmxpDataProcess ℚ) : NmxptoolChanSeq × ℤ :=
  if s.significant = 0 ∧ pd.nSamp > 0 then ({ s with significant := 1 }, 0)
  else if s.significant ≠ 0 ∧ pd.nSamp > 0 then
    let ret := nmxptoolChanseqCheckAndLogGap (.finite pd.time) s.lastTime GAP_TOLLERANCE
    if ret ≠ 0 then ({ s with x1 := 0 }, ret)
    else (s, 0)
  else (s, 0)

/-- `nmxptool_chanseq_gap` and what it returns. -/
def nmxptoolChanseqGap (s : NmxptoolChanSeq) (pd : NmxpDataProcess ℚ) : NmxptoolChanSeq × ℤ :=
  let r := compareLastTime s pd
  (if r.1.significant ≠ 0 ∧ pd.nSamp > 0 then { r.1 with lastTime := pd.endTime } else r.1, r.2)

/-! ### The file -/

/-- A line of the state file, its times as they are read back. -/
structure StateLine where
  key : Int32
  name : CStr
  norawTime : ℚ
  rawTime : ℚ

/-- What has no meaning in C: a channel outside the array, a fault of the Raw Stream, or the text of
a time that is no number. -/
inductive SessionFault
  | chanOutOfRange
  | stream (fault : Fault)
  | notATime
  deriving DecidableEq

/-- A time through the text of the file: within the first second after the epoch, and before it,
`nmxp_data_to_str` writes the epoch. -/
def throughText : Double → Except SessionFault ℚ
  | .finite t => .ok (if t < 1 then 0 else t)
  | _ => .error .notATime

/-- The line of a channel. -/
def saveLine (ch : NmxpChanKeyNet) (s : NmxptoolChanSeq) : Except SessionFault StateLine := do
  let norawTime ← throughText s.lastTime
  let rawTime ← throughText s.rawStreamBuffer.lastSampleTime
  return ⟨ch.key, ch.name, norawTime, rawTime⟩

/-- `nmxptool_chanseq_save_states`. -/
def nmxptoolChanseqSaveStates (chanList : NmxpChanListNet) (chanListSeq : List NmxptoolChanSeq) :
    Except SessionFault (List StateLine) :=
  (chanList.channel.zip chanListSeq).mapM fun r => saveLine r.1 r.2

/-- Both times of a channel. -/
def setTimes (t : ℚ) (s : NmxptoolChanSeq) : NmxptoolChanSeq :=
  { s with
    lastTime := .finite t
    rawStreamBuffer := { s.rawStreamBuffer with lastSampleTime := .finite t } }

/-- What a line of the file does to its channel. -/
def loadLine (stc : Int32) (line : StateLine) (s : NmxptoolChanSeq) : NmxptoolChanSeq :=
  let s :=
    if line.rawTime ≠ DEFAULT_BUFFERED_TIME ∧ line.rawTime ≠ 0 then setTimes line.rawTime s
    else if line.norawTime ≠ DEFAULT_BUFFERED_TIME then setTimes line.norawTime s
    else s
  { s with afterStartTime := if stc = -1 then line.rawTime else line.norawTime }

/-- The channel of a line: the first one with its name, but for case. -/
def channelOf (chanList : NmxpChanListNet) (line : StateLine) : Option ℕ :=
  chanList.channel.findIdx? fun ch => strcasecmpEq line.name ch.name

/-- `nmxptool_chanseq_load_states`. -/
def nmxptoolChanseqLoadStates (chanList : NmxpChanListNet) (file : List StateLine) (stc : Int32)
    (chanListSeq : List NmxptoolChanSeq) : List NmxptoolChanSeq :=
  file.foldl (toCell (channelOf chanList) (loadLine stc)) chanListSeq

/-! ### Sessions -/

/-- The two ways a packet is delivered. -/
inductive Path
  | gap
  | raw
  deriving DecidableEq

/-- A call of a session: `nmxptool_chanseq_gap`, or `nmxp_raw_stream_manage`. -/
inductive Action
  | gap (pd : Pd)
  | raw (c : Call)

/-- What is noted of a call: that it delivers a packet, or that the Raw Stream begins with a receive
time-out, and `last_sample_time` is set to the epoch. -/
inductive Note
  | delivered (path : Path) (pd : Pd)
  | began
  deriving DecidableEq

/-- The packet of a delivery. -/
def Note.packet : Note → Option Pd
  | .delivered _ pd => some pd
  | .began => none

/-- What is noted of a call of `nmxp_raw_stream_manage` in the state `p`. -/
def notesOf (p : NmxpRawStreamData) (c : Call) (evs : List Event) : List Note :=
  (if Begins p c then [.began] else []) ++ (sentOf evs).map (.delivered .raw)

/-- A session: whether the program was started again before it, the `stc` it loads with, and the
calls it makes for the channels. -/
structure Session where
  restart : Bool
  stc : Int32
  inputs : List (ℕ × Action)

/-- The parameters of the program: those of `nmxptool_chanseq_init` besides the number of channels,
and what `nmxp_raw_stream_manage` is given. -/
structure Params where
  maxTolerableLatency : Int32
  timeoutrecv : Int32
  qsort : Qsort
  nFuncPd : ℕ

/-- What outlives a session: the channels in memory, and the state file. What was noted in the
sessions so far is kept as well. -/
structure World where
  chanListSeq : List NmxptoolChanSeq
  file : List StateLine
  past : List (List (ℕ × Note))

section Sessions
variable (params : Params) (chanList : NmxpChanListNet)

/-- A call for a channel. -/
def channelStep (s : NmxptoolChanSeq) : Action → Except SessionFault (NmxptoolChanSeq × List Note)
  | .gap pd => .ok ((nmxptoolChanseqGap s pd).1, [.delivered .gap pd])
  | .raw c => do
    let (buffer, evs) ← (callStep params.qsort params.nFuncPd s.rawStreamBuffer c).mapError .stream
    return ({ s with rawStreamBuffer := buffer }, notesOf s.rawStreamBuffer c evs)

/-- A call of a session. -/
def inputStep (seqs : List NmxptoolChanSeq) (input : ℕ × Action) :
    Except SessionFault (List NmxptoolChanSeq × List (ℕ × Note)) :=
  match seqs[input.1]? with
  | none => .error .chanOutOfRange
  | some s => do
    let (s', notes) ← channelStep params s input.2
    return (seqs.set input.1 s', notes.map (input.1, ·))

def initSeq : List NmxptoolChanSeq :=
  nmxptoolChanseqInit chanList.number DEFAULT_BUFFERED_TIME params.maxTolerableLatency
    params.timeoutrecv

/-- The start: no state file yet. -/
def World.start : World := ⟨initSeq params chanList, [], []⟩

/-- The channels after a session has loaded the state file. -/
def loaded (w : World) (s : Session) : List NmxptoolChanSeq :=
  nmxptoolChanseqLoadStates chanList w.file s.stc
    (if s.restart then initSeq params chanList else w.chanListSeq)

/-- **A session**: load, make the calls, save. -/
def sessionStep (w : World) (s : Session) : Except SessionFault (World × List (ℕ × Note)) := do
  let (seqs, notes) ← run (inputStep params) (loaded params chanList w s) s.inputs
  let file ← nmxptoolChanseqSaveStates chanList seqs
  return (⟨seqs, file, w.past ++ [notes]⟩, notes)

end Sessions

/-! ### The deciding packet -/

/-- What was noted for a channel. -/
def notesFor (c : ℕ) (notes : List (ℕ × Note)) : List Note :=
  notes.filterMap fun n => if n.1 = c then some n.2 else none

/-- What was noted for a channel in each session so far. -/
def World.history (w : World) (c : ℕ) : List (List Note) := w.past.map (notesFor c)

/-- The path that `stc` stands for: Raw Stream for `-1`. -/
def pathOf (stc : Int32) : Path := if stc = -1 then .raw else .gap

/-- The packet that a path stands at, after one that it stood at before. -/
def advance (path : Path) (o : Option Pd) : Note → Option Pd
  | .delivered path' pd => if path' = path then some pd else o
  | .began => if path = .raw then none else o

/-- The packet that a path stands at after a session: the last one delivered through it, or else the
one that it stood at before. The Raw Stream stands at none where it began after all of these. -/
def reached (path : Path) (before : Option Pd) (notes : List Note) : Option Pd :=
  notes.foldl (advance path) before

/-- The packet that both paths of a channel stand at when the file is loaded: the one that the Raw
Stream stood at when the session before ended, or else the other path. -/
def reference (past : List (List Note)) : Option Pd :=
  past.foldl (fun o notes => (reached .raw o notes).or (reached .gap o notes)) none

/-- **The deciding packet** of a path: the one that it stood at when the session before ended. -/
def decidingOn (path : Path) (past : List (List Note)) : Option Pd :=
  reached path (reference past.dropLast) (past.getLast?.getD [])

/-- The last packet of each session that delivered one. -/
def lasts (past : List (List Note)) : List Pd :=
  past.filterMap fun notes => (notes.filterMap Note.packet).getLast?

/-- **No resuming before data already delivered**: after a session has loaded the file, the time to
resume at is not before the end of the last packet that any earlier session delivered for the
channel. -/
def ResumesBehind (params : Params) (chanList : NmxpChanListNet) (c : ℕ) (w : World)
    (s : Session) : Prop :=
  ∀ pd ∈ lasts (w.history c), ∃ q, (loaded params chanList w s)[c]? = some q ∧
    pd.endTime ≤ .finite q.afterStartTime

/-- The deciding packet ends no earlier than the last one of any session. -/
def DecidedByLatest (c : ℕ) (w : World) (s : Session) : Prop :=
  ∀ pd ∈ lasts (w.history c), ∃ e, decidingOn (pathOf s.stc) (w.history c) = some e ∧
    pd.endTime ≤ e.endTime

/-- Whether there is a value with a property can be tried out. -/
instance decidableExistsSome {α : Type} {P : α → Prop} [DecidablePred P] :
    ∀ o : Option α, Decidable (∃ a, o = some a ∧ P a)
  | none => isFalse fun ⟨_, h, _⟩ => absurd h (by simp)
  | some a => decidable_of_iff (P a) (by simp)

instance (params : Params) (chanList : NmxpChanListNet) (c : ℕ) (w : World) (s : Session) :
    Decidable (ResumesBehind params chanList c w s) :=
  inferInstanceAs (Decidable (∀ pd ∈ _, ∃ q, _ = some q ∧ _))

instance (c : ℕ) (w : World) (s : Session) : Decidable (DecidedByLatest c w s) :=
  inferInstanceAs (Decidable (∀ pd ∈ _, ∃ e, _ = some e ∧ _))

/-! ### The deciding packet after one more session -/

theorem decidingOn_concat (path : Path) (past : List (List Note)) (notes : List Note) :
    decidingOn path (past ++ [notes]) = reached path (reference past) notes := by
  unfold decidingOn
  rw [List.getLast?_append, List.getLast?_singleton, List.dropLast_concat]
  rfl

/-- The Raw Stream packet is preferred to the other one. -/
theorem reference_eq (past : List (List Note)) :
    reference past = (decidingOn .raw past).or (decidingOn .gap past) := by
  rcases List.eq_nil_or_concat past with rfl | ⟨past, notes, rfl⟩
  · rfl
  · rw [List.concat_eq_append, decidingOn_concat, decidingOn_concat]
    unfold reference
    rw [List.foldl_append]
    rfl

theorem reached_append (path : Path) (o : Option Pd) (notes notes' : List Note) :
    reached path o (notes ++ notes') = reached path (reached path o notes) notes' :=
  List.foldl_append

/-- Packets sent by the Raw Stream. -/
theorem reached_sent (path : Path) (o : Option Pd) (pds : List Pd) :
    reached path o (pds.map (.delivered .raw)) =
      if path = .raw then pds.getLast?.or o else o := by
  induction pds generalizing o with
  | nil => simp [reached]
  | cons pd pds ih =>
    show reached path (advance path o (.delivered .raw pd)) (pds.map (.delivered .raw)) = _
    rw [ih, List.getLast?_cons]
    cases path with
    | gap => rfl
    | raw =>
      simp only [advance, if_true]
      cases pds.getLast? <;> rfl

/-- A packet that a path stands at was delivered in the session, or the path stood at it before. -/
theorem mem_of_reached {path : Path} {o : Option Pd} {notes : List Note} {pd : Pd}
    (h : reached path o notes = some pd) : o = some pd ∨ pd ∈ notes.filterMap Note.packet := by
  induction notes generalizing o with
  | nil => exact Or.inl h
  | cons n notes ih =>
    rcases ih h with h | h
    · cases n with
      | delivered path' pd' =>
        simp only [advance] at h
        split_ifs at h with hpath
        · exact Or.inr (List.mem_filterMap.mpr ⟨_, List.mem_cons_self, h⟩)
        · exact Or.inl h
      | began =>
        simp only [advance] at h
        split_ifs at h
        exact Or.inl h
    · obtain ⟨n', hn', hp⟩ := List.mem_filterMap.mp h
      exact Or.inr (List.mem_filterMap.mpr ⟨n', List.mem_cons_of_mem _ hn', hp⟩)

/-- What is delivered ends one second after the epoch or later. -/
def EndOK (pd : Pd) : Prop := pd.endTime = .finite pd.endTime.toRat ∧ 1 ≤ pd.endTime.toRat

instance : DecidablePred EndOK := fun _ => inferInstanceAs (Decidable (_ ∧ _))

/-- All that a session delivers does. -/
def NotesOK (notes : List Note) : Prop := ∀ pd ∈ notes.filterMap Note.packet, EndOK pd

/-- A packet that a path stands at, if there is one, does. -/
def StandsOK (o : Option Pd) : Prop := ∀ pd, o = some pd → EndOK pd

theorem StandsOK.reached {path : Path} {o : Option Pd} {notes : List Note} (h : StandsOK o)
    (hnotes : NotesOK notes) : StandsOK (reached path o notes) := by
  intro pd hpd
  rcases mem_of_reached hpd with ho | hmem
  · exact h pd ho
  · exact hnotes pd hmem

theorem StandsOK.or {o o' : Option Pd} (h : StandsOK o) (h' : StandsOK o') :
    StandsOK (o.or o') := by
  cases o with
  | none => exact h'
  | some pd => exact h

theorem standsOK_reference {past : List (List Note)} (h : ∀ notes ∈ past, NotesOK notes) :
    StandsOK (reference past) := by
  have hfold : ∀ (o : Option Pd), StandsOK o → StandsOK
      (past.foldl (fun o notes => (reached .raw o notes).or (reached .gap o notes)) o) := by
    induction past with
    | nil => exact fun o ho => ho
    | cons notes past ih =>
      have hnotes := h notes List.mem_cons_self
      exact fun o ho => ih (fun n hn => h n (List.mem_cons_of_mem _ hn)) _
        ((ho.reached hnotes).or (ho.reached hnotes))
  exact hfold none fun pd hpd => absurd hpd (by simp)

theorem standsOK_decidingOn {path : Path} {past : List (List Note)}
    (h : ∀ notes ∈ past, NotesOK notes) : StandsOK (decidingOn path past) := by
  rcases List.eq_nil_or_concat past with rfl | ⟨past, notes, rfl⟩
  · exact fun pd hpd => absurd hpd (by simp [decidingOn, reference, reached])
  · rw [List.concat_eq_append] at h ⊢
    rw [decidingOn_concat]
    exact (standsOK_reference fun n hn => h n (List.mem_append_left _ hn)).reached
      (h notes (by simp))

/-- The end of the packet, as a number; the epoch, if there is none. -/
def endOf : Option Pd → ℚ
  | some pd => pd.endTime.toRat
  | none => 0

theorem EndOK.endOf_eq {pd : Pd} (h : EndOK pd) : pd.endTime = .finite (endOf (some pd)) := h.1

theorem EndOK.one_le {pd : Pd} (h : EndOK pd) : 1 ≤ endOf (some pd) := h.2

theorem StandsOK.endOf_cases {o : Option Pd} (h : StandsOK o) :
    (o = none ∧ endOf o = 0) ∨ (o ≠ none ∧ 1 ≤ endOf o) := by
  cases o with
  | none => exact Or.inl ⟨rfl, rfl⟩
  | some pd => exact Or.inr ⟨by simp, (h pd rfl).one_le⟩

/-! ### What a session does to a channel -/

theorem throughText_finite {t : ℚ} (h : 1 ≤ t) : throughText (.finite t) = .ok t :=
  congrArg Except.ok (if_neg (not_lt.mpr h))

theorem StandsOK.throughText_endOf {o : Option Pd} (h : StandsOK o) :
    throughText (.finite (endOf o)) = .ok (endOf o) := by
  rcases h.endOf_cases with ⟨-, h0⟩ | ⟨-, h1⟩
  · rw [h0]
    rfl
  · exact throughText_finite h1

theorem lastTime_gap {s : NmxptoolChanSeq} {pd : Pd} (h : pd.nSamp > 0) :
    (nmxptoolChanseqGap s pd).1.lastTime = pd.endTime ∧
      (nmxptoolChanseqGap s pd).1.rawStreamBuffer = s.rawStreamBuffer := by
  have hcompare : (compareLastTime s pd).1.significant ≠ 0 ∧
      (compareLastTime s pd).1.rawStreamBuffer = s.rawStreamBuffer := by
    unfold compareLastTime
    dsimp only
    split_ifs with h1 h2 h3
    · exact ⟨show (1 : Int32) ≠ 0 by decide, rfl⟩
    · exact ⟨h2.1, rfl⟩
    · exact ⟨h2.1, rfl⟩
    · by_cases hs : s.significant = 0
      · exact absurd ⟨hs, h⟩ h1
      · exact absurd ⟨hs, h⟩ h2
  unfold nmxptoolChanseqGap
  dsimp only
  rw [if_pos ⟨hcompare.1, h⟩]
  exact ⟨rfl, hcompare.2⟩

/-- The times of a channel, as they would be saved, are the ends of two packets; and its Raw Stream
is in a state that calls reach. -/
structure TimesOf (q : NmxptoolChanSeq) (noraw raw : Option Pd) : Prop where
  noraw : throughText q.lastTime = .ok (endOf noraw)
  raw : throughText q.rawStreamBuffer.lastSampleTime = .ok (endOf raw)
  buffer : NoRoom q.rawStreamBuffer ∨ StreamOK q.rawStreamBuffer

/-- A call of the domain: a packet that `nmxptool_chanseq_gap` is to note has samples, and those of
the Raw Stream have no negative numbers. -/
def ActionOK : Action → Prop
  | .gap pd => pd.nSamp > 0
  | .raw c => NonNeg c

instance : DecidablePred ActionOK
  | .gap pd => inferInstanceAs (Decidable (pd.nSamp > 0))
  | .raw ⟨none, _⟩ => isTrue fun _ hx => absurd hx (by simp)
  | .raw ⟨some x, _⟩ => decidable_of_iff (0 ≤ seqNum x) (by simp [ActionOK, NonNeg])

variable {params : Params} {chanList : NmxpChanListNet}

/-- **A call** takes the times from packets to the next ones. -/
theorem TimesOf.step {q q' : NmxptoolChanSeq} {noraw raw : Option Pd} {action : Action}
    {notes : List Note} (h : TimesOf q noraw raw) (hok : ActionOK action)
    (hstep : channelStep params q action = .ok (q', notes)) (hnotes : NotesOK notes) :
    TimesOf q' (reached .gap noraw notes) (reached .raw raw notes) := by
  cases action with
  | gap pd =>
    obtain ⟨rfl, rfl⟩ := Prod.mk.inj (Except.ok.inj hstep)
    obtain ⟨h1, h2⟩ := lastTime_gap (s := q) hok
    have hend : EndOK pd := hnotes pd (by simp [Note.packet])
    refine ⟨?_, by rw [h2]; exact h.raw, by rw [h2]; exact h.buffer⟩
    rw [h1, hend.endOf_eq]
    exact throughText_finite hend.one_le
  | raw c =>
    unfold channelStep at hstep
    obtain ⟨⟨buffer, evs⟩, hcall, hstep⟩ := bind_eq_ok.mp hstep
    obtain ⟨rfl, rfl⟩ := Prod.mk.inj (Except.ok.inj hstep)
    have hcall : callStep params.qsort params.nFuncPd q.rawStreamBuffer c = .ok (buffer, evs) := by
      cases hrun : callStep params.qsort params.nFuncPd q.rawStreamBuffer c with
      | error e =>
        rw [hrun] at hcall
        exact absurd hcall (by simp [Except.mapError])
      | ok r =>
        rw [hrun] at hcall
        exact congrArg Except.ok (Except.ok.inj hcall)
    have htime := lastSampleTime_call h.buffer hok hcall
    unfold notesOf at hnotes ⊢
    have hbase : throughText (if Begins q.rawStreamBuffer c then .finite 0
        else q.rawStreamBuffer.lastSampleTime) =
        .ok (endOf (reached .raw raw (if Begins q.rawStreamBuffer c then [.began] else []))) := by
      split_ifs
      · rfl
      · exact h.raw
    refine ⟨?_, ?_, reachable_step h.buffer hok hcall⟩
    · have hgap : reached .gap noraw (if Begins q.rawStreamBuffer c then [.began] else []) =
          noraw := by split_ifs <;> rfl
      rw [reached_append, hgap, reached_sent, if_neg (by decide)]
      exact h.noraw
    · rw [reached_append, reached_sent, if_pos rfl]
      show throughText buffer.lastSampleTime = _
      rw [htime]
      unfold endOfLast
      cases hlast : (sentOf evs).getLast? with
      | none => exact hbase
      | some pd =>
        have hend : EndOK pd := hnotes pd (List.mem_filterMap.mpr ⟨.delivered .raw pd,
          List.mem_append_right _ (List.mem_map_of_mem (List.mem_of_getLast? hlast)), rfl⟩)
        show throughText pd.endTime = _
        rw [hend.endOf_eq]
        exact throughText_finite hend.one_le

/-- **The calls of a session** take the times of every channel from packets to the next ones. -/
theorem inputs_ok {seqs seqs' : List NmxptoolChanSeq} {inputs : List (ℕ × Action)}
    {notes : List (ℕ × Note)} (refs : ℕ → Option Pd)
    (hseqs : ∀ c q, seqs[c]? = some q → TimesOf q (refs c) (refs c))
    (hinputs : ∀ i ∈ inputs, ActionOK i.2)
    (hrun : run (inputStep params) seqs inputs = .ok (seqs', notes))
    (hnotes : ∀ c, NotesOK (notesFor c notes)) :
    seqs'.length = seqs.length ∧ ∀ c q, seqs'[c]? = some q →
      TimesOf q (reached .gap (refs c) (notesFor c notes))
        (reached .raw (refs c) (notesFor c notes)) := by
  have h := run_inv (C := fun _ i => ActionOK i.2)
    (fun qs _ tr => (∀ c, NotesOK (notesFor c tr)) → qs.length = seqs.length ∧
      ∀ c q, qs[c]? = some q → TimesOf q (reached .gap (refs c) (notesFor c tr))
        (reached .raw (refs c) (notesFor c tr))) ?_ [] []
    (fun _ => ⟨rfl, hseqs⟩) (allSteps_of_forall (fun _ => hinputs) seqs) hrun
  · exact h hnotes
  rintro qs done tr ⟨k, action⟩ qs' o ih hok hstep hall
  unfold inputStep at hstep
  cases hk : qs[k]? with
  | none =>
    rw [hk] at hstep
    exact absurd hstep (by simp)
  | some s =>
    rw [hk] at hstep
    obtain ⟨⟨s', ns⟩, hcall, hstep⟩ := bind_eq_ok.mp hstep
    obtain ⟨rfl, rfl⟩ := Prod.mk.inj (Except.ok.inj hstep)
    have hfor (c : ℕ) : notesFor c (tr ++ ns.map (k, ·)) =
        notesFor c tr ++ if k = c then ns else [] := by
      unfold notesFor
      rw [List.filterMap_append, List.filterMap_map]
      split_ifs with hc <;> simp [hc]
    have hsplit (c : ℕ) : NotesOK (notesFor c tr) ∧ NotesOK (if k = c then ns else []) := by
      have := hall c
      rw [hfor, NotesOK, List.filterMap_append] at this
      exact ⟨fun pd hpd => this pd (List.mem_append_left _ hpd),
        fun pd hpd => this pd (List.mem_append_right _ hpd)⟩
    obtain ⟨hlen, htimes⟩ := ih fun c => (hsplit c).1
    refine ⟨by rw [List.length_set, hlen], fun c q hq => ?_⟩
    rw [hfor, reached_append, reached_append]
    by_cases hc : k = c
    · subst hc
      rw [if_pos rfl]
      rw [List.getElem?_set_self' ] at hq
      obtain rfl : s' = q := by
        rw [hk] at hq
        exact Option.some.inj hq
      refine (htimes k s hk).step hok hcall ?_
      have := (hsplit k).2
      rwa [if_pos rfl] at this
    · rw [if_neg hc]
      rw [List.getElem?_set_ne hc] at hq
      exact htimes c q hq

/-- **Loading a line** with the ends of the deciding packets: both times become that of the
reference packet, and `stc` picks one of the two for the time to resume at. -/
theorem loadLine_ok {past : List (List Note)} (hpast : ∀ notes ∈ past, NotesOK notes)
    (line : StateLine) (hnoraw : line.norawTime = endOf (decidingOn .gap past))
    (hraw : line.rawTime = endOf (decidingOn .raw past)) (stc : Int32) {q : NmxptoolChanSeq}
    (hq : NoRoom q.rawStreamBuffer ∨ StreamOK q.rawStreamBuffer) :
    TimesOf (loadLine stc line q) (reference past) (reference past) ∧
      (loadLine stc line q).afterStartTime = endOf (decidingOn (pathOf stc) past) := by
  have hok : ∀ path, StandsOK (decidingOn path past) := fun path => standsOK_decidingOn hpast
  have hset : ∀ o : Option Pd, StandsOK o → ∀ t, TimesOf
      { setTimes (endOf o) q with afterStartTime := t } o o := by
    intro o ho t
    refine ⟨ho.throughText_endOf, ho.throughText_endOf, hq.imp ?_ ?_⟩
    · exact fun h => ⟨h.max, h.pdlist, h.nPdlist⟩
    · exact fun h => h.withTime _
  have hneg : ∀ path, endOf (decidingOn path past) ≠ DEFAULT_BUFFERED_TIME := by
    intro path h
    rcases (hok path).endOf_cases with ⟨-, h0⟩ | ⟨-, h1⟩
    · rw [h] at h0
      exact absurd h0 (by norm_num [DEFAULT_BUFFERED_TIME])
    · rw [h] at h1
      exact absurd h1 (by norm_num [DEFAULT_BUFFERED_TIME])
  refine ⟨?_, ?_⟩
  · rw [reference_eq, loadLine, hnoraw, hraw]
    rcases (hok .raw).endOf_cases with ⟨hnone, h0⟩ | ⟨hsome, h1⟩
    · rw [if_neg fun h => h.2 h0, if_pos (hneg .gap), hnone, Option.none_or]
      exact hset _ (hok .gap) _
    · rw [if_pos ⟨hneg .raw, fun h => by rw [h] at h1; exact absurd h1 (by norm_num)⟩]
      obtain ⟨pd, hpd⟩ := Option.ne_none_iff_exists'.mp hsome
      have hor : (decidingOn .raw past).or (decidingOn .gap past) = decidingOn .raw past := by
        rw [hpd]
        rfl
      rw [hor]
      exact hset _ (hok .raw) _
  · show (if stc = -1 then line.rawTime else line.norawTime) = _
    unfold pathOf
    split_ifs
    · exact hraw
    · exact hnoraw

/-! ### Runs of sessions -/

/-- The names of the channels differ, also but for case. -/
def NamesDiffer (chanList : NmxpChanListNet) : Prop :=
  (chanList.channel.map fun ch => ch.name.map Char.toLower).Nodup

section Runs

/-- The line saved for a channel. -/
theorem getElem?_save {seqs : List NmxptoolChanSeq} {file : List StateLine}
    (h : nmxptoolChanseqSaveStates chanList seqs = .ok file) {j : ℕ} {line : StateLine}
    (hline : file[j]? = some line) : ∃ ch q, chanList.channel[j]? = some ch ∧
      seqs[j]? = some q ∧ saveLine ch q = .ok line := by
  have hmap := getElem?_of_mapM_ok h j
  rw [hline, Option.map_some, Option.map_eq_some_iff] at hmap
  obtain ⟨⟨ch, q⟩, hz, hsave⟩ := hmap
  obtain ⟨hch, hq⟩ := List.getElem?_zip_eq_some.mp hz
  exact ⟨ch, q, hch, hq, hsave⟩

/-- It holds the name of the channel, and its times. -/
theorem saveLine_ok {ch : NmxpChanKeyNet} {q : NmxptoolChanSeq} {noraw raw : Option Pd}
    (h : TimesOf q noraw raw) :
    saveLine ch q = .ok ⟨ch.key, ch.name, endOf noraw, endOf raw⟩ := by
  unfold saveLine
  rw [h.noraw, h.raw]
  rfl

/-- The line saved for a channel is found to be its line. -/
theorem channelOf_save (hnames : NamesDiffer chanList) {seqs : List NmxptoolChanSeq}
    {file : List StateLine} (h : nmxptoolChanseqSaveStates chanList seqs = .ok file) {j : ℕ}
    {line : StateLine} (hline : file[j]? = some line) : channelOf chanList line = some j := by
  obtain ⟨ch, q, hch, -, hsave⟩ := getElem?_save h hline
  have hname : line.name = ch.name := by
    unfold saveLine at hsave
    obtain ⟨t, -, hsave⟩ := bind_eq_ok.mp hsave
    obtain ⟨t', -, hsave⟩ := bind_eq_ok.mp hsave
    rw [← Except.ok.inj hsave]
  obtain ⟨hj, rfl⟩ := List.getElem?_eq_some_iff.mp hch
  unfold channelOf
  rw [List.findIdx?_eq_some_iff_getElem, hname]
  refine ⟨hj, by simp [strcasecmpEq], fun i hi heq => ?_⟩
  have hne := List.pairwise_iff_getElem.mp hnames i j (by simpa using hi.trans hj)
    (by simpa using hj) hi
  rw [List.getElem_map, List.getElem_map] at hne
  exact hne (beq_iff_eq.mp heq).symm

/-- **The invariant** between sessions: the channels in memory hold the times of the deciding
packets, and the state file, if there is one, what is in memory. -/
structure WorldOK (chanList : NmxpChanListNet) (w : World) : Prop where
  length : w.chanListSeq.length = chanList.number
  file : w.past = [] ∧ w.file = [] ∨
    nmxptoolChanseqSaveStates chanList w.chanListSeq = .ok w.file
  times : ∀ c q, w.chanListSeq[c]? = some q →
    TimesOf q (decidingOn .gap (w.history c)) (decidingOn .raw (w.history c))
  past : ∀ c, ∀ notes ∈ w.history c, NotesOK notes

/-- The packets that a session delivers. -/
def deliveredIn (params : Params) (chanList : NmxpChanListNet) (w : World) (s : Session) :
    List Pd :=
  match sessionStep params chanList w s with
  | .ok r => r.2.filterMap fun n => n.2.packet
  | .error _ => []

/-- A session of the domain: its calls are, and so is what it delivers. -/
def SessionOK (params : Params) (chanList : NmxpChanListNet) (w : World) (s : Session) : Prop :=
  (∀ i ∈ s.inputs, ActionOK i.2) ∧ ∀ pd ∈ deliveredIn params chanList w s, EndOK pd

instance (w : World) (s : Session) : Decidable (SessionOK params chanList w s) :=
  inferInstanceAs (Decidable (_ ∧ _))

theorem timesOf_init {c : ℕ} {q : NmxptoolChanSeq} (hq : (initSeq params chanList)[c]? = some q) :
    TimesOf q none none := by
  rw [List.eq_of_mem_replicate (List.mem_of_getElem? hq)]
  exact ⟨rfl, rfl, init_ok params.maxTolerableLatency params.timeoutrecv⟩

theorem worldOK_start : WorldOK chanList (.start params chanList) :=
  ⟨List.length_replicate, Or.inl ⟨rfl, rfl⟩, fun _ _ hq => timesOf_init hq,
    fun _ _ h => absurd h (by simp [World.history, World.start])⟩

theorem length_loaded {w : World} (h : WorldOK chanList w) (s : Session) :
    (loaded params chanList w s).length = chanList.number := by
  unfold loaded nmxptoolChanseqLoadStates
  rw [length_foldl_toCell]
  split_ifs
  · exact List.length_replicate
  · exact h.length

/-- **The channels after loading**: both times are that of the reference packet, and if there is a
state file the time to resume at is the end of the deciding packet. -/
theorem loaded_ok (hnames : NamesDiffer chanList) {w : World} (h : WorldOK chanList w)
    (s : Session) {c : ℕ} {q : NmxptoolChanSeq}
    (hq : (loaded params chanList w s)[c]? = some q) :
    TimesOf q (reference (w.history c)) (reference (w.history c)) ∧
      (w.past ≠ [] → q.afterStartTime = endOf (decidingOn (pathOf s.stc) (w.history c))) := by
  have hc : c < chanList.number := by
    rw [← length_loaded h s]
    exact (List.getElem?_eq_some_iff.mp hq).1
  unfold loaded nmxptoolChanseqLoadStates at hq
  rw [getElem?_foldl_toCell, Option.map_eq_some_iff] at hq
  obtain ⟨q0, hq0, rfl⟩ := hq
  -- the Raw Stream is in a state that calls reach, in a new process or the same one
  have hq0' : TimesOf q0 none none ∨
      TimesOf q0 (decidingOn .gap (w.history c)) (decidingOn .raw (w.history c)) := by
    split_ifs at hq0
    · exact Or.inl (timesOf_init hq0)
    · exact Or.inr (h.times c q0 hq0)
  rcases h.file with ⟨hnil, hfile⟩ | hfile
  · -- there is no file yet: the channels are as they were set up
    rw [hfile]
    have hhist : w.history c = [] := by rw [World.history, hnil]; rfl
    rw [hhist] at hq0' ⊢
    exact ⟨hq0'.elim id id, fun hne => absurd hnil hne⟩
  · -- the line of the channel is the only one that is for it
    have hcw : c < w.chanListSeq.length := by rw [h.length]; exact hc
    have htimes := h.times c _ (List.getElem?_eq_getElem hcw)
    have hline : w.file[c]? = some ⟨chanList.channel[c].key, chanList.channel[c].name,
        endOf (decidingOn .gap (w.history c)), endOf (decidingOn .raw (w.history c))⟩ := by
      have hmap := getElem?_of_mapM_ok hfile c
      have hz : (chanList.channel.zip w.chanListSeq)[c]? =
          some (chanList.channel[c], w.chanListSeq[c]) :=
        List.getElem?_zip_eq_some.mpr
          ⟨List.getElem?_eq_getElem hc, List.getElem?_eq_getElem hcw⟩
      rw [hz, Option.map_some, saveLine_ok htimes] at hmap
      obtain ⟨line, hline, heq⟩ := Option.map_eq_some_iff.mp hmap.symm
      rw [hline, Except.ok.inj heq]
    have hfilter : w.file.filter (fun line => channelOf chanList line = some c) =
        w.file[c]?.toList :=
      filter_eq_toList (fun j line hj => channelOf_save hnames hfile hj) c
    rw [hfilter, hline]
    obtain ⟨h1, h2⟩ := loadLine_ok (h.past c) ⟨chanList.channel[c].key, chanList.channel[c].name,
      endOf (decidingOn .gap (w.history c)), endOf (decidingOn .raw (w.history c))⟩ rfl rfl s.stc
      (hq0'.elim TimesOf.buffer TimesOf.buffer)
    exact ⟨h1, fun _ => h2⟩

/-- **A session keeps the invariant.** -/
theorem WorldOK.step (hnames : NamesDiffer chanList) {w w' : World} (h : WorldOK chanList w)
    {s : Session} {notes : List (ℕ × Note)} (hs : SessionOK params chanList w s)
    (hstep : sessionStep params chanList w s = .ok (w', notes)) : WorldOK chanList w' := by
  have hdelivered := hs.2
  unfold deliveredIn at hdelivered
  rw [hstep] at hdelivered
  have hnotes : ∀ c, NotesOK (notesFor c notes) := by
    intro c pd hpd
    obtain ⟨n, hn, hp⟩ := List.mem_filterMap.mp hpd
    obtain ⟨m, hm, hmn⟩ := List.mem_filterMap.mp hn
    split_ifs at hmn with hc
    obtain rfl := Option.some.inj hmn
    exact hdelivered pd (List.mem_filterMap.mpr ⟨m, hm, hp⟩)
  unfold sessionStep at hstep
  obtain ⟨⟨seqs, ns⟩, hrun, hstep⟩ := bind_eq_ok.mp hstep
  obtain ⟨file, hsave, hstep⟩ := bind_eq_ok.mp hstep
  obtain ⟨rfl, rfl⟩ := Prod.mk.inj (Except.ok.inj hstep)
  obtain ⟨hlen, htimes⟩ := inputs_ok (fun c => reference (w.history c))
    (fun c q hq => (loaded_ok hnames h s hq).1) hs.1 hrun hnotes
  have hhistory (c : ℕ) : (w.past ++ [ns]).map (notesFor c) = w.history c ++ [notesFor c ns] := by
    rw [List.map_append]
    rfl
  refine ⟨hlen.trans (length_loaded h s), Or.inr hsave, fun c q hq => ?_, fun c ns' hns' => ?_⟩
  · show TimesOf q (decidingOn .gap ((w.past ++ [ns]).map (notesFor c)))
      (decidingOn .raw ((w.past ++ [ns]).map (notesFor c)))
    rw [hhistory, decidingOn_concat, decidingOn_concat]
    exact htimes c q hq
  · rw [show World.history ⟨seqs, file, w.past ++ [ns]⟩ c = _ from hhistory c] at hns'
    rcases List.mem_append.mp hns' with hns' | hns'
    · exact h.past c ns' hns'
    · rw [List.mem_singleton.mp hns']
      exact hnotes c

/-- At one load. -/
theorem resumesBehind_iff (hnames : NamesDiffer chanList) {w : World} (h : WorldOK chanList w)
    (s : Session) {c : ℕ} (hc : c < chanList.number) :
    ResumesBehind params chanList c w s ↔ DecidedByLatest c w s := by
  refine forall₂_congr fun pd hpd => ?_
  obtain ⟨notes, hnotes, hlast⟩ := List.mem_filterMap.mp hpd
  have hend : EndOK pd := h.past c notes hnotes pd (List.mem_of_getLast? hlast)
  have hne : w.past ≠ [] := by
    intro hnil
    rw [World.history, hnil] at hnotes
    exact absurd hnotes (by simp)
  have hlen : (loaded params chanList w s).length = chanList.number := length_loaded h s
  rw [← hlen] at hc
  have hq := List.getElem?_eq_getElem hc
  have hafter := (loaded_ok hnames h s hq).2 hne
  have hok : StandsOK (decidingOn (pathOf s.stc) (w.history c)) := standsOK_decidingOn (h.past c)
  constructor
  · rintro ⟨q, hq', hle⟩
    obtain rfl := Option.some.inj (hq.symm.trans hq')
    rw [hafter] at hle
    cases he : decidingOn (pathOf s.stc) (w.history c) with
    | some e =>
      refine ⟨e, rfl, ?_⟩
      rw [(hok e he).endOf_eq, ← he]
      exact hle
    | none =>
      -- then the time to resume at is the epoch
      rw [he, hend.endOf_eq, Double.le_finite] at hle
      have h0 : endOf none = 0 := rfl
      have h1 := hend.one_le
      linarith
  · rintro ⟨e, he, hle⟩
    refine ⟨_, hq, ?_⟩
    rw [hafter, he, ← (hok e he).endOf_eq]
    exact hle

/-- **Resuming.** In every run of sessions, each time the state file is loaded, no channel resumes
before data already delivered iff its deciding packet ends no earlier than the last one of any
session before. -/
theorem resume_iff (params : Params) (chanList : NmxpChanListNet) (hnames : NamesDiffer chanList)
    (c : ℕ) (hc : c < chanList.number) (sessions : List Session)
    (hsessions : AllSteps (sessionStep params chanList) (SessionOK params chanList)
      (.start params chanList) sessions) :
    AllSteps (sessionStep params chanList) (ResumesBehind params chanList c)
        (.start params chanList) sessions ↔
      AllSteps (sessionStep params chanList) (DecidedByLatest c)
        (.start params chanList) sessions :=
  allSteps_iff_of (WorldOK chanList) (fun _ _ _ _ hw hs h => hw.step hnames hs h)
    (fun _ s hw _ => resumesBehind_iff hnames hw s hc) worldOK_start hsessions

end Runs

/-- A packet of one second, with a number. -/
def second (seqNo : Int32) (time : ℚ) : Pd :=
  { nmxpDataInit time with seqNo := seqNo, nSamp := 1, sampRate := 1 }

/-- A call of the Raw Stream in time. -/
def rawCall (pd : Pd) : ℕ × Action := (0, .raw ⟨some pd, fun _ => 0⟩)

/-- The parameters, but for the receive time-out. -/
def withTimeout (timeoutrecv : Int32) : Params := ⟨60, timeoutrecv, insertion, 1⟩

/-- Two Raw Stream sessions. -/
def rawSessions : List Session :=
  [⟨true, -1, [rawCall (second 1 4)]⟩, ⟨true, -1, [rawCall (second 2 5)]⟩, ⟨true, -1, []⟩]

theorem resume_iff_raw :
    AllSteps (sessionStep (withTimeout 0) (oneChannel 1))
      (ResumesBehind (withTimeout 0) (oneChannel 1) 0) (.start (withTimeout 0) (oneChannel 1))
      rawSessions := by
  refine (resume_iff (withTimeout 0) (oneChannel 1) ?_ 0 (by decide) rawSessions ?_).mpr ?_
  · unfold NamesDiffer
    decide
  · decide +kernel
  · decide +kernel

/-- A Raw Stream session, one with short-term completion, and two that deliver nothing. -/
def staleSessions : List Session :=
  [⟨true, -1, [rawCall (second 1 4)]⟩, ⟨true, 0, [(0, .gap (second 2 9))]⟩, ⟨true, 0, []⟩,
    ⟨true, 0, []⟩]

/-- The session that delivers nothing saves the time of the Raw Stream packet for both, and the next
one resumes there. -/
theorem resume_stale :
    (NamesDiffer (oneChannel 1) ∧ AllSteps (sessionStep (withTimeout 0) (oneChannel 1))
      (SessionOK (withTimeout 0) (oneChannel 1)) (.start (withTimeout 0) (oneChannel 1))
      staleSessions ∧ (second 1 4).endTime < (second 2 9).endTime) ∧
    ¬ AllSteps (sessionStep (withTimeout 0) (oneChannel 1))
      (ResumesBehind (withTimeout 0) (oneChannel 1) 0) (.start (withTimeout 0) (oneChannel 1))
      staleSessions := by
  refine ⟨⟨by unfold NamesDiffer; decide, ?_, by decide +kernel⟩, ?_⟩
  · decide +kernel
  · decide +kernel

/-- With a receive time-out, a session whose only packet is discarded sets the time back to the
epoch. -/
example : ¬ AllSteps (sessionStep (withTimeout 60) (oneChannel 1)) (DecidedByLatest 0)
    (.start (withTimeout 60) (oneChannel 1)) [⟨true, -1, [rawCall (second 1 4)]⟩,
      ⟨true, -1, [rawCall (second 0 5)]⟩, ⟨true, -1, []⟩] := by decide +kernel

end Nmxptool.ChanSeq.States
