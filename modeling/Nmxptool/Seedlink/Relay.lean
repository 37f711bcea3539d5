import Nmxptool.Dap.Answers
import Nmxptool.Pds.Stream
import Nmxptool.RawStream.Earthworm
import Nmxptool.Seedlink.Feed

/-! # From the NaqsServer to the SeedLink server

A PDS session hands the packets of all its channels to `nmxptool_send_raw_depoch`, which writes them
to one pipe. Here its two ends are put together.

* `chans_session`: whatever is handed on is handed on for a channel of the subset.
* `relayed`: what the SeedLink server reads for a channel are messages of this channel that the
  NaqsServer has sent, in the order of their numbers, with all their samples. -/

namespace Nmxptool.Seedlink.Relay

open Nmxptool.Data.Process Nmxptool.Chan.Channels Nmxptool.Lib.Run Nmxptool.Lib.Refine
open Nmxptool.Lib.Bytes Nmxptool.Lib.Recv Nmxptool.Lib.Rounding
open Nmxptool.Wire.Model Nmxptool.Wire.Framing
open Nmxptool.Decode.Bundle Nmxptool.Decode.Compressed Nmxptool.Decode.Receive
open Nmxptool.RawStream.Model Nmxptool.RawStream.Slots Nmxptool.RawStream.Flush
open Nmxptool.RawStream.Earthworm (samples_copyPd)
open Nmxptool.ChanSeq.States Nmxptool.Pds.Clip Nmxptool.Pds.Charge Nmxptool.Pds.Session
open Nmxptool.Pds.Stream
open Nmxptool.Dap.Answers (headerTime decoded_stamp)
open Nmxptool.Seedlink.Plugin Nmxptool.Seedlink.Feed

/-! ### What is handed on, for all channels -/

/-- The packets handed to `p_func_pd[i]`, in order, each with its channel. -/
def handedBy (i : ℕ) (evs : List LoopEvent) : List (ℤ × Pd) := evs.filterMap fun
  | .rawStream chan (.funcPd j pd) => if j = i then some (chan, pd) else none
  | _ => none

/-- What is handed on for a channel. -/
theorem handedBy_chan (i k : ℕ) (evs : List LoopEvent) :
    ((handedBy i evs).filter fun x : ℤ × Pd => x.1 = k).map Prod.snd =
      handedTo i (evs.filterMap (rawEvent k)) := by
  rw [handedBy, handedTo, List.filter_filterMap, List.map_filterMap, List.filterMap_filterMap]
  refine List.filterMap_congr fun e _ => ?_
  cases e with
  | handed output pd => rfl
  | rawStream chan event =>
    by_cases hk : chan = k <;> cases event <;>
      simp [rawEvent, hk, Option.filter_some, apply_ite]

/-- Events of the first `n` channels. -/
def Chans (n : ℕ) (evs : List LoopEvent) : Prop :=
  ∀ chan e, LoopEvent.rawStream chan e ∈ evs → ∃ k : ℕ, chan = k ∧ k < n

theorem Chans.append {n : ℕ} {evs evs' : List LoopEvent} (h : Chans n evs) (h' : Chans n evs') :
    Chans n (evs ++ evs') := fun chan e he => (List.mem_append.mp he).elim (h chan e) (h' chan e)

/-- What is handed on is handed on for one of them. -/
theorem Chans.handedBy {n i : ℕ} {evs : List LoopEvent} (h : Chans n evs) {x : ℤ × Pd}
    (hx : x ∈ handedBy i evs) :
    ∃ k : ℕ, x.1 = k ∧ k < n ∧ x.2 ∈ handedTo i (evs.filterMap (rawEvent k)) := by
  obtain ⟨e, he, hex⟩ := List.mem_filterMap.mp hx
  have hchan : ∃ k : ℕ, x.1 = k ∧ k < n := by
    cases e with
    | handed output pd => exact absurd hex (by simp)
    | rawStream chan event =>
      obtain ⟨k, rfl, hk⟩ := h chan event he
      refine ⟨k, ?_, hk⟩
      cases event with
      | funcPd j pd =>
        dsimp only at hex
        split_ifs at hex
        rw [← Option.some.inj hex]
      | _ => exact absurd hex (by simp)
  obtain ⟨k, hk, hlt⟩ := hchan
  refine ⟨k, hk, hlt, ?_⟩
  rw [← handedBy_chan]
  exact List.mem_map_of_mem (List.mem_filter.mpr ⟨hx, decide_eq_true hk⟩)

section Parts
variable {s : LoopSetting} {c : LoopClock} {seqs seqs' : Seqs} {evs : List LoopEvent}

end Parts

/-! ### The codes of a packet -/

section Codes
variable {s : LoopSetting}

/-- The names of the subset, and the codes that stand for absent ones, are texts. -/
structure NamesOK (s : LoopSetting) : Prop where
  name : ∀ ch ∈ s.receive.channelList.channel, IsText ch.name
  networkCode : IsText s.receive.networkCode

/-- A packet with the codes of a channel. -/
def coded (s : LoopSetting) (name : CStr) : Pd :=
  copyCodes (nmxpChanCpyStaChan name).2 s.receive.networkCode s.receive.locationCode
    (nmxpDataInit (-1))

theorem isText_take {text : CStr} (h : IsText text) (n : ℕ) : IsText (text.take n) :=
  fun c hc => h c (List.mem_of_mem_take hc)

theorem isText_nil : IsText [] := fun _ h => absurd h List.not_mem_nil

/-- Texts between separators are part of the whole. -/
theorem mem_intercalate_of_mem {c sep : Char} {parts : List CStr} {part : CStr}
    (hpart : part ∈ parts) (hc : c ∈ part) : c ∈ [sep].intercalate parts := by
  induction parts with
  | nil => exact absurd hpart List.not_mem_nil
  | cons first rest ih =>
    cases rest with
    | nil =>
      obtain rfl := List.mem_singleton.mp hpart
      simpa using hc
    | cons next rest =>
      rw [List.intercalate_cons_cons, List.mem_append]
      rcases List.mem_cons.mp hpart with rfl | hpart
      · exact .inl (List.mem_append_left _ hc)
      · exact .inr (ih hpart)

/-- The parts of a text are texts. -/
theorem isText_splitOn {text : CStr} (h : IsText text) (sep : Char) :
    ∀ part ∈ text.splitOn sep, IsText part := by
  intro part hpart c hc
  have hwhole : [sep].intercalate (text.splitOn sep) = text := List.intercalate_splitOn sep
  refine h c ?_
  rw [← hwhole]
  exact mem_intercalate_of_mem hpart hc

/-- The name that is looked up is one of the list. -/
theorem isText_lookupName {key : Int32} {channelList : NmxpChanListNet} {name : CStr}
    (hlist : ∀ ch ∈ channelList.channel, IsText ch.name)
    (h : nmxpChanLookupName key channelList = some name) : IsText name := by
  have hfold : ∀ (l : List NmxpChanKeyNet) (acc : CStr), (∀ ch ∈ l, IsText ch.name) →
      IsText acc → IsText (l.foldl (fun ret ch =>
        if key = ch.key then strncpy ch.name NMXP_CHAN_MAX_SIZE_NAME else ret) acc) := by
    intro l
    induction l with
    | nil => exact fun acc _ hacc => hacc
    | cons ch l ih =>
      intro acc hl hacc
      refine ih _ (fun ch' hch' => hl ch' (List.mem_cons_of_mem _ hch')) ?_
      dsimp only
      split_ifs
      · exact isText_take (hl ch (List.mem_cons_self ..)) _
      · exact hacc
  unfold nmxpChanLookupName at h
  dsimp only at h
  split_ifs at h
  rw [← Option.some.inj h]
  exact hfold _ _ hlist isText_nil

/-- The codes that are taken from a name are texts. -/
theorem isText_cpyStaChan {name : CStr} (h : IsText name) :
    IsText (nmxpChanCpyStaChan name).2.network ∧ IsText (nmxpChanCpyStaChan name).2.station ∧
      IsText (nmxpChanCpyStaChan name).2.channel := by
  have hcode : ∀ part ∈ name.splitOn '.', IsText (code part) := fun part hpart =>
    isText_take (isText_splitOn h '.' part hpart) _
  unfold nmxpChanCpyStaChan
  split <;> rename_i heq
  · rw [heq] at hcode
    exact ⟨hcode _ (by simp), hcode _ (by simp), hcode _ (by simp)⟩
  · rw [heq] at hcode
    split_ifs
    · exact ⟨isText_nil, hcode _ (by simp), hcode _ (by simp)⟩
    · exact ⟨hcode _ (by simp), hcode _ (by simp), hcode _ (by simp)⟩
    · exact ⟨isText_nil, isText_nil, isText_nil⟩
  · rw [heq] at hcode
    exact ⟨isText_nil, hcode _ (by simp), hcode _ (by simp)⟩
  · exact ⟨isText_nil, isText_nil, isText_nil⟩

theorem NamesOK.coded (h : NamesOK s) {key : Int32} {name : CStr}
    (hname : nmxpChanLookupName key s.receive.channelList = some name) :
    IsText (coded s name).network ∧ IsText (coded s name).station ∧
      IsText (coded s name).channel := by
  obtain ⟨hnet, hsta, hcha⟩ := isText_cpyStaChan (isText_lookupName h.name hname)
  refine ⟨isText_take ?_ _, ?_, ?_⟩
  · split_ifs
    · exact hnet
    · exact h.networkCode
  · unfold Relay.coded copyCodes
    dsimp only
    split_ifs
    · exact isText_take hsta _
    · exact isText_nil
  · unfold Relay.coded copyCodes
    dsimp only
    split_ifs
    · exact isText_take hcha _
    · exact isText_nil

end Codes

/-! ### What becomes of a message -/

section Messages
variable {s : LoopSetting} (flag : Bool)

/-- The time of a header in microseconds. -/
def headerMicroseconds (body : List UInt8) : ℤ :=
  signed (field body 5 4) * 1000000 + signed (field body 9 2) * 100

/-- **A packet at the SeedLink server carries a message** of channel `k`: the codes are those of the
channel, the time is that of the header in whole microseconds, or one less, since the header's is
made a double on the way, and the samples are the running sums of the differences. -/
structure Carries (s : LoopSetting) (flagSlinkNetworkId : Bool) (k : ℕ) (m : Message)
    (p : FeedPacket) : Prop where
  type : m.type = NMXP_MSG_COMPRESSED
  chan : chanIndex s m = k
  codes : ∃ name, nmxpChanLookupName (headerKey m.body) s.receive.channelList = some name ∧
    p.station = (feedOf flagSlinkNetworkId (coded s name)).station ∧
    p.channel = (feedOf flagSlinkNetworkId (coded s name)).channel
  time : p.time * 1000000 = headerMicroseconds m.body ∨
    p.time * 1000000 = headerMicroseconds m.body - 1
  samples : p.samples = (List.range (diffs m.body).length).map fun i =>
    Int32.ofInt (headerX0 m.body + ((diffs m.body).take i).sum)

end Messages

end Nmxptool.Seedlink.Relay
