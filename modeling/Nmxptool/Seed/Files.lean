import Nmxptool.Data.Process
import Nmxptool.Lib.Ring
import Nmxptool.Lib.Run

/-! # The open files of the mini-SEED writer

`NMXP_DATA_SEED` keeps up to 200 files open. A request for a record file looks its name up among the
slots in use, and otherwise opens it in the next slot, which is the oldest once all are in use.

* `SlotsOK`: every slot in use holds a stream for its name, and the names are different;
  `nmxpDataSeedFopen_ok`: a request keeps it, unless `fopen` fails while all slots are in use.
* `truthful_iff`: the slots tell the truth all along a run iff that never happens. -/

namespace Nmxptool.Seed.Files

open Nmxptool.Data.Process Nmxptool.Lib.Ring Nmxptool.Lib.Run

def NMXP_DATA_MAX_SIZE_FILENAME : ℕ := 1024
def NMXP_DATA_MAX_NUM_OPENED_FILE : ℕ := 200

/-- An open `FILE`: the directory and the file name it was opened for. -/
structure Stream where
  dirseedchan : CStr
  filenameMseed : CStr
  deriving DecidableEq

/-- One index of the arrays `filename_mseed` and `outfile_mseed`. -/
structure MseedSlot where
  filenameMseed : CStr
  outfileMseed : Option Stream
  deriving DecidableEq

/-- `NMXP_DATA_SEED`. -/
structure NmxpDataSeed where
  nOpenFiles : ℕ
  lastOpenFile : ℤ
  curOpenFile : ℤ
  errGeneral : ℕ
  slots : List MseedSlot
  deriving DecidableEq

/-- `nmxp_data_seed_init`. -/
def nmxpDataSeedInit : NmxpDataSeed where
  nOpenFiles := 0
  lastOpenFile := -1
  curOpenFile := -1
  errGeneral := 0
  slots := List.replicate NMXP_DATA_MAX_NUM_OPENED_FILE ⟨[], none⟩

/-- What `nmxp_data_get_filename_ms` puts together for the current record: two strings, the name in
an array with its terminator. -/
structure RecordFile where
  dirseedchan : CStr
  filenameMseed : CStr
  filename_lt : filenameMseed.length < NMXP_DATA_MAX_SIZE_FILENAME

/-- How the file system answers a request. -/
structure FileSystem where
  dirExists : Bool
  mkdirp : Bool
  dirExistsNow : Bool
  fopen : Bool

/-- The stream at an index. -/
def NmxpDataSeed.outfile (dataSeed : NmxpDataSeed) (i : ℤ) : Option Stream :=
  if 0 ≤ i then dataSeed.slots[i.toNat]?.bind (·.outfileMseed) else none

/-- `nmxp_data_seed_fclose`. -/
def nmxpDataSeedFclose (dataSeed : NmxpDataSeed) (i : ℕ) : NmxpDataSeed :=
  if i < NMXP_DATA_MAX_NUM_OPENED_FILE ∧ dataSeed.outfile i ≠ none then
    { dataSeed with slots := dataSeed.slots.set i ⟨[], none⟩ }
  else dataSeed

/-- `nmxp_data_seed_fclose_all`. -/
def nmxpDataSeedFcloseAll (dataSeed : NmxpDataSeed) : NmxpDataSeed :=
  { (List.range NMXP_DATA_MAX_NUM_OPENED_FILE).foldl nmxpDataSeedFclose dataSeed with
    nOpenFiles := 0
    lastOpenFile := -1
    curOpenFile := -1 }

/-- The slot in use with a name. -/
def NmxpDataSeed.find (dataSeed : NmxpDataSeed) (filenameMseed : CStr) : Option ℕ :=
  (dataSeed.slots.take dataSeed.nOpenFiles).findIdx? fun slot => filenameMseed = slot.filenameMseed

/-- The next slot to open a file in. -/
def NmxpDataSeed.app (dataSeed : NmxpDataSeed) : ℕ :=
  ((dataSeed.lastOpenFile + 1).tmod NMXP_DATA_MAX_NUM_OPENED_FILE).toNat

/-- `nmxp_data_seed_fopen` and what it returns. -/
def nmxpDataSeedFopen (dataSeed : NmxpDataSeed) (file : RecordFile) (fs : FileSystem) :
    NmxpDataSeed × ℕ :=
  if file.filenameMseed = [] then (dataSeed, 0)
  else match dataSeed.find file.filenameMseed with
    | some i => ({ dataSeed with curOpenFile := i }, 0)
    | none =>
      if !fs.dirExists && !(fs.mkdirp && fs.dirExistsNow) then
        ({ dataSeed with errGeneral := dataSeed.errGeneral + 1 }, 1)
      else
        let app := dataSeed.app
        let dataSeed := nmxpDataSeedFclose dataSeed app
        let name := strncpy file.filenameMseed NMXP_DATA_MAX_SIZE_FILENAME
        if fs.fopen then
          ({ dataSeed with
              slots := dataSeed.slots.set app ⟨name, some ⟨file.dirseedchan, name⟩⟩
              nOpenFiles := if dataSeed.nOpenFiles < NMXP_DATA_MAX_NUM_OPENED_FILE then
                dataSeed.nOpenFiles + 1 else dataSeed.nOpenFiles
              lastOpenFile := app
              curOpenFile := app }, 0)
        else ({ dataSeed with slots := dataSeed.slots.set app ⟨name, none⟩ }, 1)

/-- `nmxp_data_msr_write_handler`: the record goes to the stream it is written to, if to any. -/
def nmxpDataMsrWriteHandler (record : List UInt8) (dataSeed : NmxpDataSeed)
    (pmsr : Option RecordFile) (fs : FileSystem) : NmxpDataSeed × Option (Stream × List UInt8) :=
  match pmsr with
  | none => (dataSeed, none)
  | some file =>
    let r := nmxpDataSeedFopen dataSeed file fs
    if r.2 = 0 then (r.1, (r.1.outfile r.1.curOpenFile).map fun stream => (stream, record))
    else (r.1, none)

/-- A call that a run is made of. -/
inductive SeedCall
  | fopen (file : RecordFile) (fs : FileSystem)
  | fcloseAll

def seedStep (dataSeed : NmxpDataSeed) : SeedCall → NmxpDataSeed
  | .fopen file fs => (nmxpDataSeedFopen dataSeed file fs).1
  | .fcloseAll => nmxpDataSeedFcloseAll dataSeed

def seedRun (dataSeed : NmxpDataSeed) (calls : List SeedCall) : NmxpDataSeed :=
  calls.foldl seedStep dataSeed

/-- The file system can give the requested file. -/
def FileSystem.opens (fs : FileSystem) : Prop :=
  (fs.dirExists || fs.mkdirp && fs.dirExistsNow) = true ∧ fs.fopen = true

/-! ### The slots tell the truth -/

/-- **What the slots promise.** Indices are in range, no file is open twice, and of every request
for a record file that might come next: if it returns `0`, the current stream is one for that file,
and the record is written there; and if the file system can give the file, it does return `0`. -/
structure Truthful (dataSeed : NmxpDataSeed) : Prop where
  nOpenFiles_le : dataSeed.nOpenFiles ≤ NMXP_DATA_MAX_NUM_OPENED_FILE
  lastOpenFile_lt : dataSeed.lastOpenFile < NMXP_DATA_MAX_NUM_OPENED_FILE
  curOpenFile_lt : dataSeed.curOpenFile < NMXP_DATA_MAX_NUM_OPENED_FILE
  app_range : 0 ≤ (dataSeed.lastOpenFile + 1).tmod NMXP_DATA_MAX_NUM_OPENED_FILE ∧
    (dataSeed.lastOpenFile + 1).tmod NMXP_DATA_MAX_NUM_OPENED_FILE < NMXP_DATA_MAX_NUM_OPENED_FILE
  once : ∀ i j stream stream', dataSeed.outfile i = some stream →
    dataSeed.outfile j = some stream' → stream.filenameMseed = stream'.filenameMseed → i = j
  opened : ∀ file fs, file.filenameMseed ≠ [] → (nmxpDataSeedFopen dataSeed file fs).2 = 0 →
    0 ≤ (nmxpDataSeedFopen dataSeed file fs).1.curOpenFile ∧
    (nmxpDataSeedFopen dataSeed file fs).1.curOpenFile < NMXP_DATA_MAX_NUM_OPENED_FILE ∧
    ∃ stream, (nmxpDataSeedFopen dataSeed file fs).1.outfile
        (nmxpDataSeedFopen dataSeed file fs).1.curOpenFile = some stream ∧
      stream.filenameMseed = file.filenameMseed
  can_open : ∀ file fs, file.filenameMseed ≠ [] → fs.opens →
    (nmxpDataSeedFopen dataSeed file fs).2 = 0
  written : ∀ record file fs, file.filenameMseed ≠ [] →
    (nmxpDataSeedFopen dataSeed file fs).2 = 0 →
    ∃ stream, (nmxpDataMsrWriteHandler record dataSeed (some file) fs).2 = some (stream, record) ∧
      stream.filenameMseed = file.filenameMseed

/-- **The step that goes wrong**: all slots are in use, the file is in none of them, and `fopen`
fails. -/
def FailsFull (dataSeed : NmxpDataSeed) : SeedCall → Prop
  | .fopen file fs => dataSeed.nOpenFiles = NMXP_DATA_MAX_NUM_OPENED_FILE ∧
      file.filenameMseed ∉ (dataSeed.slots.take dataSeed.nOpenFiles).map (·.filenameMseed) ∧
      (fs.dirExists || fs.mkdirp && fs.dirExistsNow) = true ∧ fs.fopen = false
  | .fcloseAll => False

/-! ### The invariant -/

/-- The files in use, oldest first. -/
def NmxpDataSeed.files (dataSeed : NmxpDataSeed) : List MseedSlot :=
  content dataSeed.slots dataSeed.nOpenFiles (dataSeed.lastOpenFile + 1).toNat

/-- **The invariant.** -/
structure SlotsOK (dataSeed : NmxpDataSeed) : Prop where
  length : dataSeed.slots.length = NMXP_DATA_MAX_NUM_OPENED_FILE
  nOpenFiles_le : dataSeed.nOpenFiles ≤ NMXP_DATA_MAX_NUM_OPENED_FILE
  last_ge : -1 ≤ dataSeed.lastOpenFile
  last_lt : dataSeed.lastOpenFile < NMXP_DATA_MAX_NUM_OPENED_FILE
  cur_lt : dataSeed.curOpenFile < NMXP_DATA_MAX_NUM_OPENED_FILE
  last_eq : dataSeed.nOpenFiles < NMXP_DATA_MAX_NUM_OPENED_FILE →
    dataSeed.lastOpenFile + 1 = dataSeed.nOpenFiles
  opened : ∀ slot ∈ dataSeed.files, ∃ stream, slot.outfileMseed = some stream ∧
    stream.filenameMseed = slot.filenameMseed
  nodup : (dataSeed.files.map (·.filenameMseed)).Nodup
  closed : ∀ slot ∈ dataSeed.slots.drop dataSeed.nOpenFiles, slot.outfileMseed = none

/-! ### What a request does -/

section Fopen
variable {dataSeed : NmxpDataSeed} {file : RecordFile} {fs : FileSystem}

theorem find_eq_none {name : CStr} : dataSeed.find name = none ↔
    name ∉ (dataSeed.slots.take dataSeed.nOpenFiles).map (·.filenameMseed) := by
  unfold NmxpDataSeed.find
  rw [List.findIdx?_eq_none_iff]
  simp only [List.mem_map, not_exists, not_and, decide_eq_false_iff_not]
  exact forall_congr' fun slot => imp_congr_right fun _ => not_congr eq_comm

theorem find_eq_some {name : CStr} {i : ℕ} (h : dataSeed.find name = some i) :
    ∃ slot ∈ dataSeed.slots.take dataSeed.nOpenFiles, dataSeed.slots[i]? = some slot ∧
      i < dataSeed.nOpenFiles ∧ slot.filenameMseed = name := by
  obtain ⟨hi, hname, -⟩ := List.findIdx?_eq_some_iff_getElem.mp h
  rw [List.length_take, lt_min_iff] at hi
  refine ⟨dataSeed.slots[i], ?_, List.getElem?_eq_getElem hi.2, hi.1, ?_⟩
  · exact List.mem_take_iff_getElem.mpr ⟨i, by omega, rfl⟩
  · rw [List.getElem_take] at hname
    exact (of_decide_eq_true hname).symm

theorem outfile_natCast (i : ℕ) :
    dataSeed.outfile i = dataSeed.slots[i]?.bind (·.outfileMseed) := by
  unfold NmxpDataSeed.outfile
  rw [if_pos (Int.natCast_nonneg i), Int.toNat_natCast]

/-- The slot that is closed is the one that is then written. -/
theorem set_slots_fclose (i : ℕ) (slot : MseedSlot) :
    (nmxpDataSeedFclose dataSeed i).slots.set i slot = dataSeed.slots.set i slot := by
  unfold nmxpDataSeedFclose
  split_ifs
  · exact List.set_set _
  · rfl

theorem fclose_eq (i : ℕ) :
    nmxpDataSeedFclose dataSeed i =
      { dataSeed with slots := (nmxpDataSeedFclose dataSeed i).slots } := by
  unfold nmxpDataSeedFclose
  split_ifs
  · rfl
  · rfl

/-- The state after opening the file in the next slot. -/
def reopened (dataSeed : NmxpDataSeed) (file : RecordFile) : NmxpDataSeed :=
  { dataSeed with
    slots := dataSeed.slots.set dataSeed.app
      ⟨file.filenameMseed, some ⟨file.dirseedchan, file.filenameMseed⟩⟩
    nOpenFiles := if dataSeed.nOpenFiles < NMXP_DATA_MAX_NUM_OPENED_FILE then
      dataSeed.nOpenFiles + 1 else dataSeed.nOpenFiles
    lastOpenFile := dataSeed.app
    curOpenFile := dataSeed.app }

variable (dataSeed fs) in
/-- **All that a request can do**: find the file, fail on the directory, open the file in the next
slot, or fail there after the slot was renamed. -/
theorem fopen_cases (hne : file.filenameMseed ≠ []) :
    (∃ i, dataSeed.find file.filenameMseed = some i ∧
      nmxpDataSeedFopen dataSeed file fs = ({ dataSeed with curOpenFile := i }, 0)) ∨
    dataSeed.find file.filenameMseed = none ∧
      (((fs.dirExists || fs.mkdirp && fs.dirExistsNow) = false ∧
        nmxpDataSeedFopen dataSeed file fs =
          ({ dataSeed with errGeneral := dataSeed.errGeneral + 1 }, 1)) ∨
      (fs.dirExists || fs.mkdirp && fs.dirExistsNow) = true ∧
        (fs.fopen = true ∧ nmxpDataSeedFopen dataSeed file fs = (reopened dataSeed file, 0) ∨
        fs.fopen = false ∧ nmxpDataSeedFopen dataSeed file fs =
          ({ dataSeed with slots := dataSeed.slots.set dataSeed.app ⟨file.filenameMseed, none⟩ },
            1))) := by
  have hname : strncpy file.filenameMseed NMXP_DATA_MAX_SIZE_FILENAME = file.filenameMseed :=
    List.take_of_length_le file.filename_lt.le
  unfold nmxpDataSeedFopen
  rw [if_neg hne]
  cases hfind : dataSeed.find file.filenameMseed with
  | some i => exact Or.inl ⟨i, rfl, rfl⟩
  | none =>
    refine Or.inr ⟨rfl, ?_⟩
    dsimp only
    rw [hname, set_slots_fclose, set_slots_fclose, fclose_eq]
    have hdir : (!fs.dirExists && !(fs.mkdirp && fs.dirExistsNow)) =
        !(fs.dirExists || fs.mkdirp && fs.dirExistsNow) := (Bool.not_or _ _).symm
    rw [hdir]
    cases (fs.dirExists || fs.mkdirp && fs.dirExistsNow) with
    | false => exact Or.inl ⟨rfl, rfl⟩
    | true =>
      refine Or.inr ⟨rfl, ?_⟩
      cases fs.fopen with
      | true => exact Or.inl ⟨rfl, rfl⟩
      | false => exact Or.inr ⟨rfl, rfl⟩

end Fopen

/-! ### The invariant is kept -/

theorem slotsOK_init : SlotsOK nmxpDataSeedInit := by
  have hfiles : nmxpDataSeedInit.files = [] := rfl
  refine ⟨List.length_replicate, Nat.zero_le _, le_rfl, ?_, ?_, fun _ => rfl, ?_, ?_, ?_⟩
  · norm_num [nmxpDataSeedInit, NMXP_DATA_MAX_NUM_OPENED_FILE]
  · norm_num [nmxpDataSeedInit, NMXP_DATA_MAX_NUM_OPENED_FILE]
  · rw [hfiles]
    exact fun slot h => absurd h (by simp)
  · rw [hfiles]
    exact List.nodup_nil
  · intro slot hslot
    rw [(List.mem_replicate.mp (List.mem_of_mem_drop hslot)).2]

namespace SlotsOK
variable {dataSeed : NmxpDataSeed} (h : SlotsOK dataSeed)
include h

theorem app_eq :
    dataSeed.app = (dataSeed.lastOpenFile + 1).toNat % NMXP_DATA_MAX_NUM_OPENED_FILE := by
  have h0 : 0 ≤ dataSeed.lastOpenFile + 1 := by have := h.last_ge; omega
  obtain ⟨k, hk⟩ := Int.eq_ofNat_of_zero_le h0
  unfold NmxpDataSeed.app
  rw [hk, Int.toNat_natCast, Int.tmod_eq_emod_of_nonneg (Int.natCast_nonneg k), ← Int.natCast_emod,
    Int.toNat_natCast]

theorem app_lt : dataSeed.app < NMXP_DATA_MAX_NUM_OPENED_FILE := by
  rw [h.app_eq]
  exact Nat.mod_lt _ (by norm_num [NMXP_DATA_MAX_NUM_OPENED_FILE])

/-- While there are free slots, the next one is the first of them. -/
theorem app_of_lt (hlt : dataSeed.nOpenFiles < NMXP_DATA_MAX_NUM_OPENED_FILE) :
    dataSeed.app = dataSeed.nOpenFiles := by
  rw [h.app_eq, h.last_eq hlt, Int.toNat_natCast, Nat.mod_eq_of_lt hlt]

/-- **Opening a file** is pushing it to the files in use. -/
theorem files_reopened (file : RecordFile) :
    (reopened dataSeed file).files = push NMXP_DATA_MAX_NUM_OPENED_FILE dataSeed.files
      ⟨file.filenameMseed, some ⟨file.dirseedchan, file.filenameMseed⟩⟩ := by
  have hlast : ((reopened dataSeed file).lastOpenFile + 1).toNat = dataSeed.app + 1 := by
    show ((dataSeed.app : ℤ) + 1).toNat = _
    omega
  unfold NmxpDataSeed.files
  rw [hlast, ← h.length]
  by_cases hlt : dataSeed.nOpenFiles < NMXP_DATA_MAX_NUM_OPENED_FILE
  · have hn : (reopened dataSeed file).nOpenFiles = dataSeed.nOpenFiles + 1 := if_pos hlt
    rw [hn, h.last_eq hlt, Int.toNat_natCast, h.app_of_lt hlt,
      ← content_set_free (by rw [h.length]; exact hlt), ← h.app_of_lt hlt]
    rfl
  · have hn : (reopened dataSeed file).nOpenFiles = dataSeed.slots.length := by
      rw [h.length]
      exact (if_neg hlt).trans (le_antisymm h.nOpenFiles_le (not_lt.mp hlt))
    have hn' : dataSeed.nOpenFiles = dataSeed.slots.length := by
      rw [h.length]
      exact le_antisymm h.nOpenFiles_le (not_lt.mp hlt)
    have happ : content dataSeed.slots dataSeed.slots.length (dataSeed.lastOpenFile + 1).toNat =
        content dataSeed.slots dataSeed.slots.length dataSeed.app := by
      unfold content
      rw [List.take_length, h.app_eq, ← h.length, List.rotate_mod]
    rw [hn, hn', happ, ← content_set_full (by rw [h.length]; exact h.app_lt)]
    rfl

theorem reopened {file : RecordFile} (hnew : dataSeed.find file.filenameMseed = none) :
    SlotsOK (reopened dataSeed file) := by
  have happ := h.app_lt
  have hnew' : ∀ slot ∈ dataSeed.files, slot.filenameMseed ≠ file.filenameMseed := by
    intro slot hslot heq
    exact find_eq_none.mp hnew (List.mem_map.mpr ⟨slot, mem_content.mp hslot, heq⟩)
  refine ⟨?_, ?_, ?_, ?_, ?_, ?_, ?_, ?_, ?_⟩
  · exact (List.length_set ..).trans h.length
  · show (if _ then _ else _) ≤ _
    split_ifs with hlt
    · exact hlt
    · exact h.nOpenFiles_le
  · show -1 ≤ (dataSeed.app : ℤ)
    omega
  · show (dataSeed.app : ℤ) < _
    omega
  · show (dataSeed.app : ℤ) < _
    omega
  · show (if _ then _ else _) < _ → (dataSeed.app : ℤ) + 1 = (if _ then _ else _ : ℕ)
    intro hlt
    by_cases hn : dataSeed.nOpenFiles < NMXP_DATA_MAX_NUM_OPENED_FILE
    · rw [if_pos hn, h.app_of_lt hn]
      rfl
    · rw [if_neg hn] at hlt
      exact absurd hlt hn
  · intro slot hslot
    rw [h.files_reopened] at hslot
    rcases mem_push hslot with hslot | rfl
    · exact h.opened slot hslot
    · exact ⟨_, rfl, rfl⟩
  · rw [h.files_reopened]
    exact nodup_push h.nodup hnew'
  · intro slot hslot
    show slot.outfileMseed = none
    by_cases hn : dataSeed.nOpenFiles < NMXP_DATA_MAX_NUM_OPENED_FILE
    · have hn' : (Files.reopened dataSeed file).nOpenFiles = dataSeed.nOpenFiles + 1 := if_pos hn
      rw [hn'] at hslot
      refine h.closed slot ?_
      have : (Files.reopened dataSeed file).slots.drop (dataSeed.nOpenFiles + 1) =
          dataSeed.slots.drop (dataSeed.nOpenFiles + 1) := by
        show (dataSeed.slots.set dataSeed.app _).drop _ = _
        rw [h.app_of_lt hn, List.drop_set_of_lt (Nat.lt_succ_self _)]
      rw [this] at hslot
      exact List.drop_subset_drop_left _ (Nat.le_succ _) hslot
    · have hn' : (Files.reopened dataSeed file).nOpenFiles = dataSeed.nOpenFiles := if_neg hn
      rw [hn', List.drop_of_length_le] at hslot
      · exact absurd hslot (by simp)
      · show (dataSeed.slots.set dataSeed.app _).length ≤ _
        rw [List.length_set, h.length]
        exact not_lt.mp hn

/-- A failing `fopen` renames a slot that is not in use, as long as there is one. -/
theorem failed (hlt : dataSeed.nOpenFiles < NMXP_DATA_MAX_NUM_OPENED_FILE) (name : CStr) :
    SlotsOK { dataSeed with slots := dataSeed.slots.set dataSeed.app ⟨name, none⟩ } := by
  have htake : (dataSeed.slots.set dataSeed.app ⟨name, none⟩).take dataSeed.nOpenFiles =
      dataSeed.slots.take dataSeed.nOpenFiles := by
    rw [h.app_of_lt hlt]
    exact List.take_set_of_le le_rfl
  have hfiles : NmxpDataSeed.files
      { dataSeed with slots := dataSeed.slots.set dataSeed.app ⟨name, none⟩ } = dataSeed.files := by
    unfold NmxpDataSeed.files content
    rw [htake]
  refine ⟨(List.length_set ..).trans h.length, h.nOpenFiles_le, h.last_ge, h.last_lt, h.cur_lt,
    h.last_eq, by rw [hfiles]; exact h.opened, by rw [hfiles]; exact h.nodup, ?_⟩
  intro slot hslot
  have hdrop : (dataSeed.slots.set dataSeed.app ⟨name, none⟩).drop dataSeed.nOpenFiles =
      (dataSeed.slots.drop dataSeed.nOpenFiles).set 0 ⟨name, none⟩ := by
    rw [h.app_of_lt hlt, List.drop_set, if_neg (lt_irrefl _), Nat.sub_self]
  rw [hdrop] at hslot
  rcases List.mem_or_eq_of_mem_set hslot with hmem | rfl
  · exact h.closed slot hmem
  · rfl

/-- A request keeps the invariant, unless `fopen` fails while all slots are in use. -/
theorem fopen {file : RecordFile} {fs : FileSystem} (hne : file.filenameMseed ≠ [])
    (hok : ¬ FailsFull dataSeed (.fopen file fs)) :
    SlotsOK (nmxpDataSeedFopen dataSeed file fs).1 := by
  rcases fopen_cases dataSeed fs hne with
    ⟨i, hfind, heq⟩ | ⟨hnew, ⟨-, heq⟩ | ⟨hdir, ⟨-, heq⟩ | ⟨hfail, heq⟩⟩⟩
  · obtain ⟨-, -, -, hi, -⟩ := find_eq_some hfind
    rw [heq]
    exact ⟨h.length, h.nOpenFiles_le, h.last_ge, h.last_lt,
      Int.ofNat_lt.mpr (hi.trans_le h.nOpenFiles_le), h.last_eq, h.opened, h.nodup, h.closed⟩
  · rw [heq]
    exact ⟨h.length, h.nOpenFiles_le, h.last_ge, h.last_lt, h.cur_lt, h.last_eq, h.opened,
      h.nodup, h.closed⟩
  · rw [heq]
    exact h.reopened hnew
  · rw [heq]
    refine h.failed (lt_of_le_of_ne h.nOpenFiles_le fun hfull => hok ?_) _
    exact ⟨hfull, find_eq_none.mp hnew, hdir, hfail⟩

end SlotsOK

/-! ### Closing all files -/

theorem length_slots_fclose (dataSeed : NmxpDataSeed) (i : ℕ) :
    (nmxpDataSeedFclose dataSeed i).slots.length = dataSeed.slots.length := by
  unfold nmxpDataSeedFclose
  split_ifs
  · exact List.length_set ..
  · rfl

/-- A slot is closed, and the others stay as they are. -/
theorem getElem?_slots_fclose {dataSeed : NmxpDataSeed} {i j : ℕ} {slot : MseedSlot}
    (hi : i < NMXP_DATA_MAX_NUM_OPENED_FILE)
    (hj : (nmxpDataSeedFclose dataSeed i).slots[j]? = some slot) :
    slot.outfileMseed = none ∨ j ≠ i ∧ dataSeed.slots[j]? = some slot := by
  unfold nmxpDataSeedFclose at hj
  split_ifs at hj with h
  · have hj' : (dataSeed.slots.set i ⟨[], none⟩)[j]? = some slot := hj
    rw [List.getElem?_set] at hj'
    split_ifs at hj' with h1 h2
    · left
      rw [← Option.some.inj hj']
    · exact Or.inr ⟨fun he => h1 he.symm, hj'⟩
  · by_cases hji : j = i
    · left
      have hout : dataSeed.outfile i = none := by_contra fun hout => h ⟨hi, hout⟩
      rw [outfile_natCast, ← hji, hj] at hout
      exact hout
    · exact Or.inr ⟨hji, hj⟩

/-- Closing all files empties the table. -/
theorem SlotsOK.fcloseAll {dataSeed : NmxpDataSeed} (h : SlotsOK dataSeed) :
    SlotsOK (nmxpDataSeedFcloseAll dataSeed) := by
  have hloop : ∀ k ≤ NMXP_DATA_MAX_NUM_OPENED_FILE,
      ((List.range k).foldl nmxpDataSeedFclose dataSeed).slots.length =
        NMXP_DATA_MAX_NUM_OPENED_FILE ∧
      ∀ j < k, ∀ slot, ((List.range k).foldl nmxpDataSeedFclose dataSeed).slots[j]? = some slot →
        slot.outfileMseed = none := by
    intro k
    induction k with
    | zero => exact fun _ => ⟨h.length, fun j hj => absurd hj (Nat.not_lt_zero j)⟩
    | succ k ih =>
      intro hk
      obtain ⟨hl, hclosed⟩ := ih (by omega)
      rw [List.range_succ, List.foldl_append, List.foldl_cons, List.foldl_nil]
      refine ⟨(length_slots_fclose _ k).trans hl, fun j hj slot hslot => ?_⟩
      rcases getElem?_slots_fclose (by omega) hslot with hnone | ⟨hjk, hslot⟩
      · exact hnone
      · exact hclosed j (by omega) slot hslot
  obtain ⟨hl, hclosed⟩ := hloop _ le_rfl
  have hpos : (0 : ℤ) < NMXP_DATA_MAX_NUM_OPENED_FILE := by norm_num [NMXP_DATA_MAX_NUM_OPENED_FILE]
  have hfiles : (nmxpDataSeedFcloseAll dataSeed).files = [] := by
    show content _ 0 _ = []
    simp [content]
  have hslots : (nmxpDataSeedFcloseAll dataSeed).slots =
      ((List.range NMXP_DATA_MAX_NUM_OPENED_FILE).foldl nmxpDataSeedFclose dataSeed).slots := by
    simp only [nmxpDataSeedFcloseAll]
  rw [← hslots] at hl hclosed
  refine ⟨hl, Nat.zero_le _, le_rfl, ?_, ?_, ?_, ?_, ?_, ?_⟩
  · show (-1 : ℤ) < _
    omega
  · show (-1 : ℤ) < _
    omega
  · show _ → (-1 : ℤ) + 1 = (0 : ℕ)
    exact fun _ => rfl
  · rw [hfiles]
    exact fun slot h => absurd h (by simp)
  · rw [hfiles]
    exact List.nodup_nil
  · intro slot hslot
    obtain ⟨j, hj, rfl⟩ := List.getElem_of_mem (List.mem_of_mem_drop hslot)
    exact hclosed j (by rw [← hl]; exact hj) _ (List.getElem?_eq_getElem hj)

/-! ### The invariant implies the promises -/

section Truth
variable {dataSeed : NmxpDataSeed} (h : SlotsOK dataSeed)
include h

/-- A stream that is found stands in a slot in use, under its name. -/
theorem SlotsOK.outfile_eq_some {i : ℤ} {stream : Stream}
    (hi : dataSeed.outfile i = some stream) :
    ∃ k : ℕ, i = k ∧ ∃ slot, (dataSeed.slots.take dataSeed.nOpenFiles)[k]? = some slot ∧
      stream.filenameMseed = slot.filenameMseed := by
  unfold NmxpDataSeed.outfile at hi
  split_ifs at hi with h0
  obtain ⟨slot, hslot, hout⟩ := Option.bind_eq_some_iff.mp hi
  have hk : i.toNat < dataSeed.nOpenFiles := by
    by_contra hge
    have hmem : slot ∈ dataSeed.slots.drop dataSeed.nOpenFiles := by
      refine List.mem_of_getElem? (i := i.toNat - dataSeed.nOpenFiles) ?_
      rw [List.getElem?_drop, Nat.add_sub_cancel' (not_lt.mp hge)]
      exact hslot
    rw [h.closed slot hmem] at hout
    exact absurd hout (by simp)
  have htake : (dataSeed.slots.take dataSeed.nOpenFiles)[i.toNat]? = some slot := by
    rw [List.getElem?_take_of_lt hk]
    exact hslot
  obtain ⟨stream', hs, hname⟩ := h.opened slot (mem_content.mpr (List.mem_of_getElem? htake))
  rw [hout, Option.some.injEq] at hs
  exact ⟨i.toNat, by omega, slot, htake, by rw [hs]; exact hname⟩

/-- A request that returns `0` leaves a stream for the file as the current one. -/
theorem SlotsOK.opened_of_fopen {file : RecordFile} {fs : FileSystem}
    (hne : file.filenameMseed ≠ []) (h0 : (nmxpDataSeedFopen dataSeed file fs).2 = 0) :
    ∃ i < NMXP_DATA_MAX_NUM_OPENED_FILE,
      (nmxpDataSeedFopen dataSeed file fs).1.curOpenFile = i ∧
      ∃ stream, (nmxpDataSeedFopen dataSeed file fs).1.outfile i = some stream ∧
        stream.filenameMseed = file.filenameMseed := by
  rcases fopen_cases dataSeed fs hne with
    ⟨i, hfind, heq⟩ | ⟨hnew, ⟨-, heq⟩ | ⟨hdir, ⟨-, heq⟩ | ⟨hfail, heq⟩⟩⟩
  · obtain ⟨slot, hmem, hslot, hi, hname⟩ := find_eq_some hfind
    obtain ⟨stream, hs, hn⟩ := h.opened slot (mem_content.mpr hmem)
    rw [heq]
    refine ⟨i, hi.trans_le h.nOpenFiles_le, rfl, stream, ?_, hn.trans hname⟩
    have hout : dataSeed.outfile i = some stream := by
      rw [outfile_natCast, hslot, Option.bind_some, hs]
    exact hout
  · rw [heq] at h0
    exact absurd h0 one_ne_zero
  · rw [heq]
    refine ⟨dataSeed.app, h.app_lt, rfl, ⟨file.dirseedchan, file.filenameMseed⟩, ?_, rfl⟩
    rw [outfile_natCast]
    show (dataSeed.slots.set dataSeed.app _)[dataSeed.app]?.bind _ = _
    rw [List.getElem?_set_self (by rw [h.length]; exact h.app_lt)]
    rfl
  · rw [heq] at h0
    exact absurd h0 one_ne_zero

/-- **The invariant implies the promises.** -/
theorem SlotsOK.truthful : Truthful dataSeed := by
  refine ⟨h.nOpenFiles_le, h.last_lt, h.cur_lt, ?_, ?_, ?_, ?_, ?_⟩
  · have h0 : 0 ≤ dataSeed.lastOpenFile + 1 := by have := h.last_ge; omega
    have hcap : (0 : ℤ) < NMXP_DATA_MAX_NUM_OPENED_FILE := by
      norm_num [NMXP_DATA_MAX_NUM_OPENED_FILE]
    exact ⟨Int.tmod_nonneg _ h0, Int.tmod_lt_of_pos _ hcap⟩
  · intro i j stream stream' hi hj heq
    obtain ⟨k, rfl, slot, hslot, hname⟩ := h.outfile_eq_some hi
    obtain ⟨k', rfl, slot', hslot', hname'⟩ := h.outfile_eq_some hj
    have hnd := (nodup_map_content _).mp h.nodup
    have hk : k < ((dataSeed.slots.take dataSeed.nOpenFiles).map (·.filenameMseed)).length := by
      rw [List.length_map]
      exact (List.getElem?_eq_some_iff.mp hslot).1
    have hkk : k = k' := by
      rw [← List.getElem?_inj hk hnd, List.getElem?_map, List.getElem?_map, hslot, hslot']
      show some slot.filenameMseed = some slot'.filenameMseed
      rw [← hname, heq, hname']
    rw [hkk]
  · intro file fs hne h0
    obtain ⟨i, hi, hcur, stream, hout, hname⟩ := h.opened_of_fopen hne h0
    rw [hcur]
    exact ⟨Int.natCast_nonneg i, Int.ofNat_lt.mpr hi, stream, hout, hname⟩
  · intro file fs hne hopens
    rcases fopen_cases dataSeed fs hne with
      ⟨i, hfind, heq⟩ | ⟨hnew, ⟨hdir, heq⟩ | ⟨hdir, ⟨-, heq⟩ | ⟨hfail, heq⟩⟩⟩
    · rw [heq]
    · rw [hopens.1] at hdir
      exact absurd hdir (by simp)
    · rw [heq]
    · rw [hopens.2] at hfail
      exact absurd hfail (by simp)
  · intro record file fs hne h0
    obtain ⟨i, hi, hcur, stream, hout, hname⟩ := h.opened_of_fopen hne h0
    refine ⟨stream, ?_, hname⟩
    unfold nmxpDataMsrWriteHandler
    dsimp only
    rw [if_pos h0, hcur, hout]
    rfl

end Truth

/-- **After a failure with all slots in use the promises are broken**: the renamed slot has no
stream, and the next request for the file finds it. -/
theorem SlotsOK.not_truthful {dataSeed : NmxpDataSeed} (h : SlotsOK dataSeed) {file : RecordFile}
    {fs : FileSystem} (hne : file.filenameMseed ≠ [])
    (hbad : FailsFull dataSeed (.fopen file fs)) :
    ¬ Truthful (nmxpDataSeedFopen dataSeed file fs).1 := by
  obtain ⟨hfull, hnew, hdir, hfail⟩ := hbad
  have hfind : dataSeed.find file.filenameMseed = none := find_eq_none.mpr hnew
  have hall : ∀ slots : List MseedSlot, slots.length = NMXP_DATA_MAX_NUM_OPENED_FILE →
      slots.take dataSeed.nOpenFiles = slots :=
    fun slots hl => List.take_of_length_le (by rw [hl, hfull])
  rw [hall _ h.length] at hnew
  set dataSeed' : NmxpDataSeed :=
    { dataSeed with slots := dataSeed.slots.set dataSeed.app ⟨file.filenameMseed, none⟩ } with hdef
  have hstep : (nmxpDataSeedFopen dataSeed file fs).1 = dataSeed' := by
    rcases fopen_cases dataSeed fs hne with
      ⟨i, hi, -⟩ | ⟨-, ⟨hd, -⟩ | ⟨-, ⟨ho, -⟩ | ⟨-, heq⟩⟩⟩
    · rw [hfind] at hi
      exact absurd hi (by simp)
    · rw [hdir] at hd
      exact absurd hd (by simp)
    · rw [hfail] at ho
      exact absurd ho (by simp)
    · rw [heq]
  rw [hstep]
  intro ht
  have hlen' : dataSeed'.slots.length = NMXP_DATA_MAX_NUM_OPENED_FILE :=
    (List.length_set ..).trans h.length
  rcases fopen_cases dataSeed' fs hne with ⟨i, hi, heq⟩ | ⟨hi, -⟩
  · obtain ⟨slot, hmem, hslot, -, hname⟩ := find_eq_some hi
    obtain ⟨-, -, stream, hout, -⟩ := ht.opened file fs hne (by rw [heq])
    rw [heq] at hout
    have hout' : dataSeed'.outfile i = some stream := hout
    rw [outfile_natCast, hslot, Option.bind_some] at hout'
    rcases List.mem_or_eq_of_mem_set (List.mem_of_getElem? hslot) with hold | rfl
    · exact hnew (List.mem_map.mpr ⟨slot, hold, hname⟩)
    · exact absurd hout' (by simp)
  · refine find_eq_none.mp hi (List.mem_map.mpr ⟨⟨file.filenameMseed, none⟩, ?_, rfl⟩)
    show _ ∈ dataSeed'.slots.take dataSeed.nOpenFiles
    rw [hall _ hlen']
    exact List.mem_set (by rw [h.length]; exact h.app_lt) _

/-! ### Runs -/

theorem seedRun_concat (dataSeed : NmxpDataSeed) (calls : List SeedCall) (call : SeedCall) :
    seedRun dataSeed (calls ++ [call]) = seedStep (seedRun dataSeed calls) call := by
  unfold seedRun
  rw [List.foldl_append, List.foldl_cons, List.foldl_nil]

theorem SlotsOK.step {dataSeed : NmxpDataSeed} (h : SlotsOK dataSeed) {call : SeedCall}
    (hne : ∀ file fs, call = .fopen file fs → file.filenameMseed ≠ [])
    (hok : ¬ FailsFull dataSeed call) : SlotsOK (seedStep dataSeed call) := by
  cases call with
  | fopen file fs => exact h.fopen (hne file fs rfl) hok
  | fcloseAll => exact h.fcloseAll

/-- **The slots tell the truth all along a run** iff `fopen` never fails while all of them are in
use and the file is in none of them. -/
theorem truthful_iff (calls : List SeedCall)
    (hne : ∀ file fs, SeedCall.fopen file fs ∈ calls → file.filenameMseed ≠ []) :
    (∀ done rest, calls = done ++ rest → Truthful (seedRun nmxpDataSeedInit done)) ↔
      ∀ done call rest, calls = done ++ call :: rest →
        ¬ FailsFull (seedRun nmxpDataSeedInit done) call := by
  have hD : ∀ call ∈ calls, ∀ file fs, call = .fopen file fs → file.filenameMseed ≠ [] :=
    fun call hmem file fs he => hne file fs (he ▸ hmem)
  have hstates : (∀ done rest, calls = done ++ rest → Truthful (seedRun nmxpDataSeedInit done)) ↔
      Along seedStep (fun s call => Truthful (seedStep s call)) nmxpDataSeedInit calls := by
    constructor
    · intro ht done call rest he
      have := ht (done ++ [call]) rest (by rw [he]; simp)
      rwa [seedRun_concat] at this
    · intro ht done rest he
      rcases List.eq_nil_or_concat done with rfl | ⟨done, call, rfl⟩
      · exact slotsOK_init.truthful
      · rw [List.concat_eq_append, seedRun_concat]
        exact ht done call rest (by rw [he]; simp)
  rw [hstates]
  refine along_iff _ _ (fun s call h hd hc => h.step hd hc) (fun s call h hd => ?_) slotsOK_init hD
  refine ⟨fun ht hbad => ?_, fun hc => (h.step hd hc).truthful⟩
  cases call with
  | fopen file fs => exact h.not_truthful (hd file fs rfl) hbad ht
  | fcloseAll => exact hbad

/-! ### A run that goes wrong -/

/-- The file system gives every file. -/
def willing : FileSystem := ⟨true, true, true, true⟩

/-- The file system has the directory, and no file. -/
def unwilling : FileSystem := ⟨true, true, true, false⟩

/-- The `k`-th of many record files; its name has `k + 1` characters. -/
def recordFile (k : ℕ) : RecordFile := ⟨['d'], List.replicate (k % 1000 + 1) 'r', by
  rw [List.length_replicate]
  have := Nat.mod_lt k (show 0 < 1000 by norm_num)
  show _ < 1024
  omega⟩

theorem recordFile_ne (k : ℕ) : (recordFile k).filenameMseed ≠ [] := by
  rw [Ne, ← List.length_eq_zero_iff, recordFile, List.length_replicate]
  omega

/-- The first `k` record files are opened one after the other. -/
def fill (k : ℕ) : List SeedCall := (List.range k).map fun j => .fopen (recordFile j) willing

theorem fill_ok {k : ℕ} (hk : k ≤ NMXP_DATA_MAX_NUM_OPENED_FILE) :
    SlotsOK (seedRun nmxpDataSeedInit (fill k)) ∧
      (seedRun nmxpDataSeedInit (fill k)).nOpenFiles = k ∧
      ∀ slot ∈ (seedRun nmxpDataSeedInit (fill k)).files, slot.filenameMseed.length ≤ k := by
  induction k with
  | zero =>
    have hfiles : nmxpDataSeedInit.files = [] := rfl
    refine ⟨slotsOK_init, rfl, ?_⟩
    rw [show seedRun nmxpDataSeedInit (fill 0) = nmxpDataSeedInit from rfl, hfiles]
    exact fun slot h => absurd h (by simp)
  | succ k ih =>
    obtain ⟨hok, hn, hlen⟩ := ih (by omega)
    have hk200 : k < 200 := hk
    have hname : (recordFile k).filenameMseed.length = k + 1 := by
      rw [recordFile, List.length_replicate, Nat.mod_eq_of_lt (by omega)]
    have hrun : seedRun nmxpDataSeedInit (fill (k + 1)) =
        (nmxpDataSeedFopen (seedRun nmxpDataSeedInit (fill k)) (recordFile k) willing).1 := by
      have hfill : fill (k + 1) = fill k ++ [.fopen (recordFile k) willing] := by
        unfold fill
        rw [List.range_succ, List.map_append, List.map_singleton]
      rw [hfill, seedRun_concat, seedStep]
    generalize seedRun nmxpDataSeedInit (fill k) = dataSeed at *
    have hnew : dataSeed.find (recordFile k).filenameMseed = none := by
      rw [find_eq_none]
      intro hmem
      obtain ⟨slot, hslot, he⟩ := List.mem_map.mp hmem
      have := hlen slot (mem_content.mpr hslot)
      rw [he, hname] at this
      omega
    have hopen : (nmxpDataSeedFopen dataSeed (recordFile k) willing).1 =
        reopened dataSeed (recordFile k) := by
      rcases fopen_cases dataSeed willing (recordFile_ne k) with
        ⟨i, hi, -⟩ | ⟨-, ⟨hd, -⟩ | ⟨-, ⟨-, heq⟩ | ⟨ho, -⟩⟩⟩
      · rw [hnew] at hi
        exact absurd hi (by simp)
      · exact absurd hd (by simp [willing])
      · rw [heq]
      · exact absurd ho (by simp [willing])
    rw [hrun, hopen]
    refine ⟨hok.reopened hnew, ?_, ?_⟩
    · show (if dataSeed.nOpenFiles < _ then _ else _) = _
      rw [hn]
      exact if_pos hk200
    · intro slot hslot
      rw [hok.files_reopened] at hslot
      rcases mem_push hslot with h | rfl
      · exact (hlen slot h).trans (Nat.le_succ k)
      · exact hname.le

theorem nOpenFiles_seedStep_le (dataSeed : NmxpDataSeed) (call : SeedCall) :
    (seedStep dataSeed call).nOpenFiles ≤ dataSeed.nOpenFiles + 1 := by
  cases call with
  | fopen file fs =>
    rw [seedStep]
    by_cases hne : file.filenameMseed = []
    · rw [nmxpDataSeedFopen, if_pos hne]
      exact Nat.le_succ _
    · rcases fopen_cases dataSeed fs hne with
        ⟨i, -, heq⟩ | ⟨-, ⟨-, heq⟩ | ⟨-, ⟨-, heq⟩ | ⟨-, heq⟩⟩⟩
      · rw [heq]
        exact Nat.le_succ _
      · rw [heq]
        exact Nat.le_succ _
      · rw [heq]
        show (if _ then _ else _) ≤ _
        split_ifs
        · exact le_rfl
        · exact Nat.le_succ _
      · rw [heq]
        exact Nat.le_succ _
  | fcloseAll =>
    rw [seedStep, nmxpDataSeedFcloseAll]
    exact Nat.zero_le _

/-- Two files are opened; of two more one fails on `fopen`, one on its directory. -/
def partlyFailing : List SeedCall :=
  [.fopen (recordFile 0) willing, .fopen (recordFile 1) willing, .fopen (recordFile 2) unwilling,
    .fopen (recordFile 3) ⟨false, false, false, true⟩, .fopen (recordFile 2) willing]

/-- Failures do no harm while there are free slots. -/
theorem truthful_iff_partly : partlyFailing.length < NMXP_DATA_MAX_NUM_OPENED_FILE ∧
    ∀ done rest, partlyFailing = done ++ rest → Truthful (seedRun nmxpDataSeedInit done) := by
  have hfew : ∀ (calls : List SeedCall) (dataSeed : NmxpDataSeed),
      (seedRun dataSeed calls).nOpenFiles ≤ dataSeed.nOpenFiles + calls.length := by
    intro calls
    induction calls with
    | nil => exact fun dataSeed => le_rfl
    | cons call calls ih =>
      intro dataSeed
      have h1 := ih (seedStep dataSeed call)
      have h2 := nOpenFiles_seedStep_le dataSeed call
      rw [List.length_cons]
      exact h1.trans (by omega)
  refine ⟨by decide, (truthful_iff partlyFailing fun file fs hmem => ?_).mpr
    fun done call rest he => ?_⟩
  · simp only [partlyFailing, List.mem_cons, SeedCall.fopen.injEq, List.not_mem_nil,
      or_false] at hmem
    rcases hmem with ⟨rfl, -⟩ | ⟨rfl, -⟩ | ⟨rfl, -⟩ | ⟨rfl, -⟩ | ⟨rfl, -⟩
    all_goals exact recordFile_ne _
  · have hlen : done.length ≤ 5 := by
      have := congrArg List.length he
      rw [List.length_append] at this
      exact (Nat.le_add_right _ _).trans this.ge
    have hn := hfew done nmxpDataSeedInit
    cases call with
    | fopen file fs =>
      rintro ⟨hfull, -⟩
      rw [hfull] at hn
      exact absurd (hn.trans (Nat.add_le_add_left hlen _)) (by decide)
    | fcloseAll => exact id

/-- With all slots in use and one more file that cannot be opened, the next request for it gets no
stream. -/
theorem seed_skips : ¬ ∀ calls : List SeedCall,
    (∀ file fs, SeedCall.fopen file fs ∈ calls → file.filenameMseed ≠ []) →
    ∀ done rest, calls = done ++ rest → Truthful (seedRun nmxpDataSeedInit done) := by
  intro hclaim
  obtain ⟨hok, hn, hlen⟩ := fill_ok (le_refl NMXP_DATA_MAX_NUM_OPENED_FILE)
  have hbad : FailsFull (seedRun nmxpDataSeedInit (fill NMXP_DATA_MAX_NUM_OPENED_FILE))
      (.fopen (recordFile 200) unwilling) := by
    refine ⟨hn, fun hmem => ?_, rfl, rfl⟩
    obtain ⟨slot, hslot, he⟩ := List.mem_map.mp hmem
    have := hlen slot (mem_content.mpr hslot)
    rw [he, recordFile, List.length_replicate] at this
    exact absurd this (by norm_num [NMXP_DATA_MAX_NUM_OPENED_FILE])
  have ht := hclaim (fill NMXP_DATA_MAX_NUM_OPENED_FILE ++ [.fopen (recordFile 200) unwilling])
    (fun file fs hmem => ?_) _ [] (List.append_nil _).symm
  · rw [seedRun_concat, seedStep] at ht
    exact hok.not_truthful (recordFile_ne 200) hbad ht
  · rcases List.mem_append.mp hmem with hmem | hmem
    · obtain ⟨k, -, he⟩ := List.mem_map.mp hmem
      cases he
      exact recordFile_ne k
    · cases List.mem_singleton.mp hmem
      exact recordFile_ne 200

end Nmxptool.Seed.Files
