import Mathlib.Data.List.Perm.Subperm
import Nmxptool.Chan.Match
import Nmxptool.Lib.KeepFirst

/-! # The subscribed channels

`nmxp_chan_subset` takes the channels of the server that match a list of patterns. For each pattern
it scans the server list, and adds a channel unless its key is in the result already; the scan of a
pattern ends at the first name for which the matcher returns `-1`.

* `channel_subset`: the result keeps the first entry of each key (`keepFirst`) among the candidates
  of the patterns in order.
* `subset_complete_iff`: no channel is missing iff no wanted key has all its channels behind the
  first malformed name of the server list.
* `subset_sound`: keys, names and lookups of the result.
* `subset_codes`: the codes that are read off the names of the result. -/

namespace Nmxptool.Chan.Subset

open Nmxptool.Data.Process Nmxptool.Chan.Channels Nmxptool.Chan.Match Nmxptool.Lib.KeepFirst

def sepChanList : Char := ','

/-- The patterns of a channel list: characters up to a separator, until a pattern would be empty.
`ista` is the pattern so far. -/
def splitPatterns (ista : CStr) : CStr → List CStr
  | [] => if ista = [] then [] else [ista]
  | c :: staChanList =>
    if c = sepChanList then if ista = [] then [] else ista :: splitPatterns [] staChanList
    else splitPatterns (ista ++ [c]) staChanList

/-- `snprintf` into `n` characters. -/
def snprintf (n : ℕ) (s : CStr) : CStr := s.take (n - 1)

/-- `NET.name.LOC`, in its array; the codes of the pattern, or the defaults. -/
def entryName (networkCodeDefault locationCodeDefault pattern name : CStr) : CStr :=
  snprintf NMXP_CHAN_MAX_SIZE_NAME
    ((if (codes pattern).network ≠ [] then (codes pattern).network else networkCodeDefault) ++
      '.' :: name ++ '.' ::
      (if (codes pattern).location ≠ [] then (codes pattern).location else locationCodeDefault))

theorem length_entryName (nd ld pattern name : CStr) :
    (entryName nd ld pattern name).length < NMXP_CHAN_MAX_SIZE_NAME := by
  have : 0 < NMXP_CHAN_MAX_SIZE_NAME := by norm_num [NMXP_CHAN_MAX_SIZE_NAME]
  unfold entryName snprintf
  rw [List.length_take]
  omega

theorem entryName_ne (nd ld pattern name : CStr) : entryName nd ld pattern name ≠ [] := by
  unfold entryName snprintf
  simp [List.take_eq_nil_iff, NMXP_CHAN_MAX_SIZE_NAME]

/-- The entry added for a channel. -/
def newEntry (networkCodeDefault locationCodeDefault pattern : CStr) (ch : NmxpChanKey) :
    NmxpChanKeyNet :=
  ⟨ch.key, entryName networkCodeDefault locationCodeDefault pattern ch.name, entryName_ne _ _ _ _⟩

section Subset
variable (dataType : NmxpDatatype) (networkCodeDefault locationCodeDefault : CStr)

/-- The scan of the server list for one pattern. -/
def subsetScan (pattern : CStr) : List NmxpChanKey → NmxpChanListNet → NmxpChanListNet
  | [], ret => ret
  | ch :: channel, ret =>
    let retMatch := nmxpChanMatch ch.name pattern
    let ret' : NmxpChanListNet :=
      if retMatch = 1 ∧ getDataTypeFromKey ch.key = dataType.number ∧
          nmxpChanLookupName ch.key ret = none then
        ⟨ret.channel ++ [newEntry networkCodeDefault locationCodeDefault pattern ch]⟩
      else ret
    if retMatch = -1 then ret' else subsetScan pattern channel ret'

/-- `nmxp_chan_subset`. -/
def nmxpChanSubset (channelList : NmxpChanList) (staChanList : CStr) : NmxpChanListNet :=
  (splitPatterns [] staChanList).foldl (fun ret pattern =>
    subsetScan dataType networkCodeDefault locationCodeDefault pattern channelList.channel ret) ⟨[]⟩

end Subset

/-! ### The patterns of a list -/

theorem splitPatterns_append {ista p : CStr} (hp : sepChanList ∉ p) (rest : CStr) :
    splitPatterns ista (p ++ rest) = splitPatterns (ista ++ p) rest := by
  induction p generalizing ista with
  | nil => simp
  | cons c p ih =>
    rw [List.mem_cons, not_or] at hp
    rw [List.cons_append, splitPatterns, if_neg (Ne.symm hp.1), ih hp.2]
    simp

/-- **Patterns joined by separators are taken apart again.** -/
theorem splitPatterns_intercalate {ps : List CStr} (hps : ∀ p ∈ ps, p ≠ [] ∧ sepChanList ∉ p) :
    splitPatterns [] ([sepChanList].intercalate ps) = ps := by
  induction ps with
  | nil => rfl
  | cons p ps ih =>
    obtain ⟨hne, hp⟩ := hps p (by simp)
    cases ps with
    | nil =>
      have : [sepChanList].intercalate [p] = p ++ [] := by simp
      rw [this, splitPatterns_append hp, List.nil_append, splitPatterns, if_neg hne]
    | cons q ps =>
      have : [sepChanList].intercalate (p :: q :: ps) =
          p ++ (sepChanList :: [sepChanList].intercalate (q :: ps)) := by
        simp [List.intercalate]
      rw [this, splitPatterns_append hp, List.nil_append, splitPatterns, if_pos rfl, if_neg hne,
        ih fun p' hp' => hps p' (List.mem_cons_of_mem _ hp')]

/-! ### The result keeps the first entry of each key -/

section Candidates
variable (dataType : NmxpDatatype) (nd ld : CStr) (channelList : NmxpChanList)

/-- The channels that the scan for a pattern takes, in order. -/
def taken (pattern : CStr) : List NmxpChanKey :=
  (channelList.channel.takeWhile fun ch => nmxpChanMatch ch.name pattern ≠ -1).filter fun ch =>
    nmxpChanMatch ch.name pattern = 1 ∧ getDataTypeFromKey ch.key = dataType.number

/-- What the scan for a pattern would add to an empty result. -/
def candidates (pattern : CStr) : List NmxpChanKeyNet :=
  (taken dataType channelList pattern).map (newEntry nd ld pattern)

theorem channel_subsetScan (pattern : CStr) (ret : NmxpChanListNet) :
    (subsetScan dataType nd ld pattern channelList.channel ret).channel =
      keepFrom (·.key) ret.channel (candidates dataType nd ld channelList pattern) := by
  unfold candidates taken
  induction channelList.channel generalizing ret with
  | nil => rfl
  | cons ch channel ih =>
    unfold subsetScan
    by_cases hm1 : nmxpChanMatch ch.name pattern = -1
    · have hne : ¬ nmxpChanMatch ch.name pattern = 1 := by rw [hm1]; norm_num
      simp [hm1]
    · rw [List.takeWhile_cons_of_pos (by simpa using hm1)]
      dsimp only
      rw [if_neg hm1, ih]
      by_cases hm : nmxpChanMatch ch.name pattern = 1 ∧
          getDataTypeFromKey ch.key = dataType.number
      · rw [List.filter_cons_of_pos (by simpa using hm), List.map_cons, keepFrom_cons]
        congr 1
        unfold addNew
        by_cases hk : ch.key ∈ ret.channel.map (·.key)
        · have hname : ¬ nmxpChanLookupName ch.key ret = none :=
            fun h => nmxpChanLookupName_eq_none.mp h hk
          rw [if_neg fun h => hname h.2.2]
          exact (if_pos hk).symm
        · rw [if_pos ⟨hm.1, hm.2, nmxpChanLookupName_eq_none.mpr hk⟩]
          exact (if_neg hk).symm
      · rw [List.filter_cons_of_neg (by simpa using hm),
          if_neg fun h => hm ⟨h.1, h.2.1⟩]

/-- **The subset** is what is kept of the candidates of the patterns in order. -/
theorem channel_subset (staChanList : CStr) :
    (nmxpChanSubset dataType nd ld channelList staChanList).channel =
      keepFirst (·.key)
        ((splitPatterns [] staChanList).flatMap (candidates dataType nd ld channelList)) := by
  have hfrom : ∀ (ps : List CStr) (ret : NmxpChanListNet),
      (ps.foldl (fun ret pattern => subsetScan dataType nd ld pattern channelList.channel ret)
        ret).channel =
        keepFrom (·.key) ret.channel (ps.flatMap (candidates dataType nd ld channelList)) := by
    intro ps
    induction ps with
    | nil => exact fun ret => rfl
    | cons p ps ih =>
      intro ret
      rw [List.foldl_cons, ih, channel_subsetScan, List.flatMap_cons, keepFrom_append]
  exact hfrom _ _

/-- A channel that a valid pattern takes: of the data type, covered, before the malformed names. -/
theorem mem_taken {pattern : CStr} (hv : ValidPattern pattern) {ch : NmxpChanKey} :
    ch ∈ taken dataType channelList pattern ↔
      ch ∈ channelList.channel.takeWhile (fun c => !malformed c.name) ∧
        getDataTypeFromKey ch.key = dataType.number ∧ Covers pattern ch.name := by
  have hstop : (fun c : NmxpChanKey => decide (nmxpChanMatch c.name pattern ≠ -1)) =
      fun c => !malformed c.name := by
    funext c
    by_cases hm : malformed c.name = true
    · simp [hm, (nmxpChanMatch_eq_neg_one c.name_lt).mpr (Or.inr hm)]
    · have : ¬ nmxpChanMatch c.name pattern = -1 := by
        rw [nmxpChanMatch_eq_neg_one c.name_lt, not_or, not_not]
        exact ⟨hv, hm⟩
      simp [hm, this]
  unfold taken
  rw [hstop, List.mem_filter, decide_eq_true_iff, nmxpChanMatch_eq_one ch.name_lt]
  exact ⟨fun ⟨h1, ⟨_, h2⟩, h3⟩ => ⟨h1, h3, h2⟩, fun ⟨h1, h3, h2⟩ => ⟨h1, ⟨hv, h2⟩, h3⟩⟩

/-- The keys of the subset are those of the channels taken. -/
theorem key_mem_subset {staChanList : CStr} {key : Int32} :
    key ∈ (nmxpChanSubset dataType nd ld channelList staChanList).channel.map (·.key) ↔
      ∃ p ∈ splitPatterns [] staChanList, ∃ ch ∈ taken dataType channelList p, ch.key = key := by
  rw [channel_subset, map_keepFirst]
  simp only [candidates, List.map_flatMap, List.map_map, List.mem_flatMap, List.mem_map]
  rfl

end Candidates

/-! ### Completeness -/

/-- A channel of the data type that one of the patterns covers. -/
structure Wanted (dataType : NmxpDatatype) (ps : List CStr) (ch : NmxpChanKey) : Prop where
  type : getDataTypeFromKey ch.key = dataType.number
  covered : ∃ p ∈ ps, Covers p ch.name

/-- **No channel is missing** iff the key of each wanted channel is also that of a wanted channel
that stands before the first malformed name of the server list. -/
theorem subset_complete_iff (channelList : NmxpChanList) (dataType : NmxpDatatype)
    (ps : List CStr) (hps : ∀ p ∈ ps, ValidPattern p ∧ p ≠ [] ∧ sepChanList ∉ p) (nd ld : CStr) :
    (∀ ch ∈ channelList.channel, Wanted dataType ps ch →
      ch.key ∈ (nmxpChanSubset dataType nd ld channelList
        ([sepChanList].intercalate ps)).channel.map (·.key)) ↔
    ∀ ch ∈ channelList.channel, Wanted dataType ps ch →
      ∃ ch' ∈ channelList.channel.takeWhile (fun c => !malformed c.name),
        Wanted dataType ps ch' ∧ ch'.key = ch.key := by
  refine forall_congr' fun ch => imp_congr_right fun _ => imp_congr_right fun _ => ?_
  rw [key_mem_subset, splitPatterns_intercalate fun p hp => (hps p hp).2]
  constructor
  · rintro ⟨p, hp, ch', hch', hkey⟩
    obtain ⟨h1, h2, h3⟩ := (mem_taken _ _ (hps p hp).1).mp hch'
    exact ⟨ch', h1, ⟨h2, p, hp, h3⟩, hkey⟩
  · rintro ⟨ch', h1, ⟨h2, p, hp, h3⟩, hkey⟩
    exact ⟨p, hp, ch', (mem_taken _ _ (hps p hp).1).mpr ⟨h1, h2, h3⟩, hkey⟩

/-- Two channels of station `AAA`; behind them a name without three channel characters. -/
def malformedLast : NmxpChanList :=
  ⟨[⟨257, "AAA.HHZ".toList, by decide⟩, ⟨258, "AAA.HHN".toList, by decide⟩,
    ⟨259, "AAA.TEMP".toList, by decide⟩]⟩

/-- The same channels, behind that name. -/
def malformedFirst : NmxpChanList := ⟨malformedLast.channel.reverse⟩

/-- No channel is missing where the malformed name stands last. -/
theorem subset_complete_iff_last :
    (∀ p ∈ ["*.HH?".toList], ValidPattern p ∧ p ≠ [] ∧ sepChanList ∉ p) ∧
      ∀ ch ∈ malformedLast.channel, Wanted .timeseries ["*.HH?".toList] ch →
        ch.key ∈ (nmxpChanSubset .timeseries [] [] malformedLast
          ([sepChanList].intercalate ["*.HH?".toList])).channel.map (·.key) := by
  have hps : ∀ p ∈ ["*.HH?".toList], ValidPattern p ∧ p ≠ [] ∧ sepChanList ∉ p := fun p hp => by
    rw [List.mem_singleton.mp hp]
    decide +kernel
  refine ⟨hps, (subset_complete_iff malformedLast .timeseries ["*.HH?".toList] hps [] []).mpr ?_⟩
  intro ch hch hw
  obtain ⟨p, -, hp⟩ := hw.covered
  refine ⟨ch, ?_, hw, rfl⟩
  have hmal := hp.not_malformed
  simp only [malformedLast, List.mem_cons, List.not_mem_nil, or_false] at hch
  rcases hch with rfl | rfl | rfl
  · decide +kernel
  · decide +kernel
  · exact absurd hmal (by decide)

/-- Both channels are missing where it stands first. -/
theorem subset_incomplete : ¬ ∀ (channelList : NmxpChanList) (dataType : NmxpDatatype)
    (ps : List CStr), (∀ p ∈ ps, ValidPattern p ∧ p ≠ [] ∧ sepChanList ∉ p) → ∀ nd ld : CStr,
    ∀ ch ∈ channelList.channel, Wanted dataType ps ch →
      ch.key ∈ (nmxpChanSubset dataType nd ld channelList
        ([sepChanList].intercalate ps)).channel.map (·.key) := by
  intro hclaim
  have hrun : nmxpChanSubset .timeseries [] [] malformedFirst
      ([sepChanList].intercalate ["*.HH?".toList]) = ⟨[]⟩ := by decide +kernel
  have hwanted : Wanted .timeseries ["*.HH?".toList] ⟨257, "AAA.HHZ".toList, by decide⟩ := by
    refine ⟨by decide, "*.HH?".toList, by simp, "AAA".toList, "HHZ".toList, ?_, rfl,
      Or.inl (by decide +kernel), ?_⟩
    · exact ⟨rfl, by decide⟩
    · exact (chaMatch_iff (by decide +kernel)).mp (by decide +kernel)
  have := hclaim malformedFirst .timeseries ["*.HH?".toList] (fun p hp => by
    rw [List.mem_singleton.mp hp]; decide +kernel) [] [] _ (by decide) hwanted
  rw [hrun] at this
  exact absurd this (by simp)

/-! ### Soundness -/

/-- What the subset promises: at most one entry for each channel of the server, pairwise different
keys, each the key of a channel of the data type that a pattern matches; codes from the first such
pattern; and the two lookups agree. -/
structure SubsetOK (channelList : NmxpChanList) (dataType : NmxpDatatype) (ps : List CStr)
    (nd ld : CStr) (sub : NmxpChanListNet) : Prop where
  number_le : sub.number ≤ channelList.number
  nodup : (sub.channel.map (·.key)).Nodup
  sound : ∀ e ∈ sub.channel, ∃ ch ∈ channelList.channel, ch.key = e.key ∧
    getDataTypeFromKey ch.key = dataType.number ∧ ∃ p ∈ ps, ValidPattern p ∧ Covers p ch.name
  first_wins : (channelList.channel.map (·.key)).Nodup → ∀ e ∈ sub.channel,
    ∀ ch ∈ channelList.channel, ch.key = e.key → ∃ before p after, ps = before ++ p :: after ∧
      (ValidPattern p ∧ Covers p ch.name) ∧ (∀ q ∈ before, ¬ (ValidPattern q ∧ Covers q ch.name)) ∧
      e.name = entryName nd ld p ch.name
  lookup_none : ∀ key, nmxpChanLookupName key sub = none ↔ nmxpChanLookupKeyIndex key sub = -1
  lookup_some : ∀ key, nmxpChanLookupKeyIndex key sub ≠ -1 → ∃ i, ∃ hi : i < sub.number,
    nmxpChanLookupKeyIndex key sub = i ∧
      nmxpChanLookupName key sub = some (sub.channel.get ⟨i, hi⟩).name

section Sound
variable {channelList : NmxpChanList} {dataType : NmxpDatatype} {nd ld : CStr}
  {staChanList : CStr}

/-- An entry comes from a channel that its pattern takes. -/
theorem entry_of_mem {e : NmxpChanKeyNet}
    (he : e ∈ (nmxpChanSubset dataType nd ld channelList staChanList).channel) :
    ∃ p ∈ splitPatterns [] staChanList, ∃ ch ∈ taken dataType channelList p,
      e = newEntry nd ld p ch := by
  rw [channel_subset] at he
  obtain ⟨p, hp, h⟩ := List.mem_flatMap.mp ((keepFirst_sublist _).subset he)
  obtain ⟨ch, hch, rfl⟩ := List.mem_map.mp h
  exact ⟨p, hp, ch, hch, rfl⟩

/-- A channel that is taken is one of the server, and a valid pattern covers it. -/
theorem of_mem_taken {p : CStr} {ch : NmxpChanKey} (h : ch ∈ taken dataType channelList p) :
    ch ∈ channelList.channel ∧ getDataTypeFromKey ch.key = dataType.number ∧
      ValidPattern p ∧ Covers p ch.name := by
  obtain ⟨h1, h2⟩ := List.mem_filter.mp h
  rw [decide_eq_true_iff, nmxpChanMatch_eq_one ch.name_lt] at h2
  exact ⟨(List.takeWhile_prefix _).subset h1, h2.2, h2.1⟩

theorem nodup_subset :
    ((nmxpChanSubset dataType nd ld channelList staChanList).channel.map (·.key)).Nodup := by
  rw [channel_subset]
  exact nodup_keepFirst _

/-- An entry carries the codes of the first pattern that matches its channel: an earlier one that
matches would have taken the channel as well, since the malformed names stop every valid pattern at
the same place. -/
theorem first_wins {e : NmxpChanKeyNet}
    (he : e ∈ (nmxpChanSubset dataType nd ld channelList staChanList).channel) :
    ∃ ch ∈ channelList.channel, ch.key = e.key ∧ ∃ before p after,
      splitPatterns [] staChanList = before ++ p :: after ∧
      (ValidPattern p ∧ Covers p ch.name) ∧ (∀ q ∈ before, ¬ (ValidPattern q ∧ Covers q ch.name)) ∧
      e.name = entryName nd ld p ch.name := by
  rw [channel_subset] at he
  have hfind := find_of_mem_keepFirst he
  rw [List.find?_flatMap, List.findSome?_eq_some_iff] at hfind
  obtain ⟨before, p, after, hps, hp, hbefore⟩ := hfind
  obtain ⟨ch, hch, rfl⟩ := List.mem_map.mp (List.mem_of_find?_eq_some hp)
  obtain ⟨hmem, htype, hv, hcov⟩ := of_mem_taken hch
  refine ⟨ch, hmem, rfl, before, p, after, hps, ⟨hv, hcov⟩, ?_, rfl⟩
  rintro q hq ⟨hvq, hcq⟩
  have hq' : ch ∈ taken dataType channelList q :=
    (mem_taken _ _ hvq).mpr ⟨((mem_taken _ _ hv).mp hch).1, htype, hcq⟩
  have hnone := List.find?_eq_none.mp (hbefore q hq) _ (List.mem_map_of_mem hq')
  exact hnone (by simp [newEntry])

end Sound

/-- **The subset is sound**, has no duplicates, and its first pattern wins. -/
theorem subset_sound (channelList : NmxpChanList) (dataType : NmxpDatatype)
    (staChanList nd ld : CStr) :
    SubsetOK channelList dataType (splitPatterns [] staChanList) nd ld
      (nmxpChanSubset dataType nd ld channelList staChanList) := by
  have hsound : ∀ e ∈ (nmxpChanSubset dataType nd ld channelList staChanList).channel,
      ∃ ch ∈ channelList.channel, ch.key = e.key ∧
        getDataTypeFromKey ch.key = dataType.number ∧
        ∃ p ∈ splitPatterns [] staChanList, ValidPattern p ∧ Covers p ch.name := by
    intro e he
    obtain ⟨p, hp, ch, hch, rfl⟩ := entry_of_mem he
    obtain ⟨h1, h2, h3⟩ := of_mem_taken hch
    exact ⟨ch, h1, rfl, h2, p, hp, h3⟩
  refine ⟨?_, nodup_subset, hsound, fun hnd e he ch hch hk => ?_, fun key => ?_,
    fun key hkey => ?_⟩
  · have hsub : (nmxpChanSubset dataType nd ld channelList staChanList).channel.map (·.key) ⊆
        channelList.channel.map (·.key) := by
      intro key hkey
      obtain ⟨e, he, rfl⟩ := List.mem_map.mp hkey
      obtain ⟨ch, hch, hk, -⟩ := hsound e he
      exact List.mem_map.mpr ⟨ch, hch, hk⟩
    have := (nodup_subset.subperm hsub).length_le
    simpa [NmxpChanListNet.number, NmxpChanList.number] using this
  · obtain ⟨ch', hch', hk', h⟩ := first_wins he
    have : ch = ch' := List.inj_on_of_nodup_map hnd hch hch' (hk.trans hk'.symm)
    rw [this]
    exact h
  · rw [nmxpChanLookupName_eq_none, nmxpChanLookupKeyIndex_eq_neg_one]
  · rw [Ne, nmxpChanLookupKeyIndex_eq_neg_one, not_not] at hkey
    obtain ⟨i, hi, hidx, hk⟩ := nmxpChanLookupKeyIndex_spec hkey
    have hmem : (nmxpChanSubset dataType nd ld channelList staChanList).channel.get ⟨i, hi⟩ ∈
        (nmxpChanSubset dataType nd ld channelList staChanList).channel := List.get_mem _ _
    refine ⟨i, hi, hidx, ?_⟩
    have hname := nmxpChanLookupName_of_nodup nodup_subset hmem
    rw [hk] at hname
    obtain ⟨p, -, ch, -, he⟩ := entry_of_mem hmem
    rw [hname, he]
    congr 1
    exact List.take_of_length_le (length_entryName nd ld p ch.name).le

/-! ### The codes of the names -/

/-- The network code that is put in front of a name. -/
def networkCode (networkCodeDefault pattern : CStr) : CStr :=
  if (codes pattern).network ≠ [] then (codes pattern).network else networkCodeDefault

/-- The location code that is put behind a name. -/
def locationCode (locationCodeDefault pattern : CStr) : CStr :=
  if (codes pattern).location ≠ [] then (codes pattern).location else locationCodeDefault

/-- NET.STA.CHA.LOC. -/
def fullName (net sta cha loc : CStr) : CStr := net ++ '.' :: (sta ++ '.' :: (cha ++ '.' :: loc))

/-- A code that can be read off a name: it has no period, and fits its array with a terminator. -/
structure PlainCode (s : CStr) : Prop where
  noPeriod : '.' ∉ s
  length : s.length < NMXP_CHAN_MAX_SIZE_STR_PATTERN

theorem PlainCode.code {s : CStr} (h : PlainCode s) : code s = s :=
  List.take_of_length_le h.length.le

/-- **A name with four codes** gives them, whether or not one is empty. -/
theorem nmxpChanCpyStaChan_fullName {net sta cha loc : CStr} (hnet : PlainCode net)
    (hsta : PlainCode sta) (hcha : PlainCode cha) (hloc : PlainCode loc) :
    nmxpChanCpyStaChan (fullName net sta cha loc) =
      (true, { network := net, station := sta, channel := cha, location := loc }) := by
  have hsplit : (fullName net sta cha loc).splitOn '.' = [net, sta, cha, loc] := by
    rw [fullName, List.splitOn_append_cons_self_of_not_mem hnet.noPeriod,
      List.splitOn_append_cons_self_of_not_mem hsta.noPeriod,
      List.splitOn_append_cons_self_of_not_mem hcha.noPeriod,
      List.splitOn_eq_singleton hloc.noPeriod]
  unfold nmxpChanCpyStaChan
  rw [hsplit]
  dsimp only
  rw [hnet.code, hsta.code, hcha.code, hloc.code]

/-- The name of an entry, where it fits. -/
theorem entryName_eq {nd ld pattern sta cha : CStr}
    (hlen : (fullName (networkCode nd pattern) sta cha (locationCode ld pattern)).length <
      NMXP_CHAN_MAX_SIZE_NAME) :
    entryName nd ld pattern (sta ++ '.' :: cha) =
      fullName (networkCode nd pattern) sta cha (locationCode ld pattern) := by
  have happend : entryName nd ld pattern (sta ++ '.' :: cha) = snprintf NMXP_CHAN_MAX_SIZE_NAME
      (fullName (networkCode nd pattern) sta cha (locationCode ld pattern)) := by
    simp [entryName, fullName, networkCode, locationCode]
  rw [happend, snprintf]
  exact List.take_of_length_le (by omega)

/-- **The names of the subset.** Every entry is made for a channel of the server and a pattern of
the list; and wherever it is made so, from a name STA.CHA, and has room for NET.STA.CHA.LOC, the
codes read off its name are these four. -/
theorem subset_codes (channelList : NmxpChanList) (dataType : NmxpDatatype)
    (staChanList nd ld : CStr) {e : NmxpChanKeyNet}
    (he : e ∈ (nmxpChanSubset dataType nd ld channelList staChanList).channel) :
    (∃ pattern ∈ splitPatterns [] staChanList, ∃ ch ∈ channelList.channel,
      e = newEntry nd ld pattern ch) ∧
    ∀ (pattern : CStr) (ch : NmxpChanKey), e = newEntry nd ld pattern ch → ∀ sta cha : CStr,
      ch.name = sta ++ '.' :: cha → sta ≠ [] →
      (fullName (networkCode nd pattern) sta cha (locationCode ld pattern)).length ≤ 23 →
      PlainCode (networkCode nd pattern) → PlainCode sta → PlainCode cha →
      PlainCode (locationCode ld pattern) →
      nmxpChanCpyStaChan e.name = (true,
        { network := networkCode nd pattern, station := sta, channel := cha,
          location := locationCode ld pattern }) := by
  refine ⟨?_, ?_⟩
  · obtain ⟨pattern, hpattern, ch, hch, heq⟩ := entry_of_mem he
    exact ⟨pattern, hpattern, ch, (of_mem_taken hch).1, heq⟩
  · rintro pattern ch rfl sta cha hname - hlen hnet hsta hcha hloc
    have hfits : (fullName (networkCode nd pattern) sta cha (locationCode ld pattern)).length <
        NMXP_CHAN_MAX_SIZE_NAME := Nat.lt_succ_of_le hlen
    show nmxpChanCpyStaChan (entryName nd ld pattern ch.name) = _
    rw [hname, entryName_eq hfits, nmxpChanCpyStaChan_fullName hnet hsta hcha hloc]

/-- A channel of a server with one, and its entry. -/
def oneChannel : NmxpChanKey := ⟨0x100, "ACER.BHZ".toList, by decide⟩

theorem subset_codes_one :
    newEntry "IV".toList [] "*.BHZ".toList oneChannel ∈ (nmxpChanSubset .timeseries "IV".toList []
      ⟨[oneChannel]⟩ "*.BHZ".toList).channel ∧
    nmxpChanCpyStaChan (newEntry "IV".toList [] "*.BHZ".toList oneChannel).name = (true,
      { network := "IV".toList, station := "ACER".toList, channel := "BHZ".toList,
        location := [] }) := by
  have hmem : newEntry "IV".toList [] "*.BHZ".toList oneChannel ∈ (nmxpChanSubset .timeseries
      "IV".toList [] ⟨[oneChannel]⟩ "*.BHZ".toList).channel := by decide +kernel
  exact ⟨hmem, (subset_codes ⟨[oneChannel]⟩ .timeseries "*.BHZ".toList "IV".toList [] hmem).2
    "*.BHZ".toList oneChannel rfl "ACER".toList "BHZ".toList rfl (by decide) (by decide +kernel)
    ⟨by decide +kernel, by decide +kernel⟩ ⟨by decide, by decide⟩ ⟨by decide, by decide⟩
    ⟨by decide +kernel, by decide +kernel⟩⟩

end Nmxptool.Chan.Subset
