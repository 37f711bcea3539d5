import Nmxptool.Chan.Subset
import Nmxptool.Data.Date
import Nmxptool.Data.Directories
import Nmxptool.Seed.Files

/-! # The archive of record files

`nmxp_data_get_filename_ms` gives every record the file of its channel and day, in a directory below
the output directory. A file that is not among the open ones is opened again, and its directory is
made if it is missing.

* `dirNames_of_fileParts`: the name of the file tells the directory.
* `fileSystem_spec`: what a request for a file does to the directories.
* `stream_eq_iff`: one file is one channel and one day.
* `archive_run`: every record is appended to the file of its channel and day, and just the
  directories of the records are made. -/

namespace Nmxptool.Seed.Archive

open Nmxptool.Data.Process Nmxptool.Data.Date Nmxptool.Data.Directories
open Nmxptool.Lib.Calendar Nmxptool.Lib.Decimal Nmxptool.Lib.Ring Nmxptool.Lib.Run
open Nmxptool.Seed.Files
open Nmxptool.Chan.Subset (snprintf)

/-! ### The names -/

/-- `NMXP_DATA_SEED_TYPEWRITE`. -/
inductive NmxpDataSeedTypewrite
  | sds
  | bud
  deriving DecidableEq

/-- The fields of `NMXP_DATA_SEED` that say where files go. -/
structure Place where
  outdirseed : CStr
  defaultNetwork : CStr
  typeWriteseed : NmxpDataSeedTypewrite

/-- The fields of an `MSRecord` that its file depends on. -/
structure MsLabel where
  network : CStr
  station : CStr
  location : CStr
  channel : CStr
  starttime : ℚ

/-- `nmxp_data_year_from_epoch`. -/
def nmxpDataYearFromEpoch (timeD : ℚ) : ℤ :=
  (gmtimeR (if timeD > 0 then ⌊timeD⌋ else 0)).year + 1900

/-- `nmxp_data_yday_from_epoch`. -/
def nmxpDataYdayFromEpoch (timeD : ℚ) : ℤ :=
  (gmtimeR (if timeD > 0 then ⌊timeD⌋ else 0)).yday + 1

/-- `NMXP_DATA_NETCODE_OR_DEFAULT_NETWORK`. -/
def Place.netcode (place : Place) (msr : MsLabel) : CStr :=
  if msr.network ≠ [] then msr.network else place.defaultNetwork

/-- `"%d"` of the year. -/
def yearText (msr : MsLabel) : CStr := zeroPadded 0 (nmxpDataYearFromEpoch msr.starttime).toNat

/-- `"%03d"` of the day. -/
def ydayText (msr : MsLabel) : CStr := zeroPadded 3 (nmxpDataYdayFromEpoch msr.starttime).toNat

/-- The directories below `outdirseed`. -/
def Place.dirNames (place : Place) (msr : MsLabel) : Path :=
  match place.typeWriteseed with
  | .sds => [yearText msr, place.netcode msr, msr.station, msr.channel ++ ['.', 'D']]
  | .bud => [place.netcode msr, msr.station]

/-- What stands between the dots of the name. -/
def Place.fileParts (place : Place) (msr : MsLabel) : List CStr :=
  match place.typeWriteseed with
  | .sds => [place.netcode msr, msr.station, msr.location, msr.channel, ['D'], yearText msr,
      ydayText msr]
  | .bud => [msr.station, place.netcode msr, msr.location, msr.channel, yearText msr, ydayText msr]

def Place.dirText (place : Place) (msr : MsLabel) : CStr :=
  place.outdirseed ++ pathText (place.dirNames msr)

def Place.fileText (place : Place) (msr : MsLabel) : CStr := ['.'].intercalate (place.fileParts msr)

theorem length_snprintf_lt (s : CStr) :
    (snprintf NMXP_DATA_MAX_SIZE_FILENAME s).length < NMXP_DATA_MAX_SIZE_FILENAME := by
  have hpos : 0 < NMXP_DATA_MAX_SIZE_FILENAME := by norm_num [NMXP_DATA_MAX_SIZE_FILENAME]
  rw [snprintf, List.length_take]
  omega

/-- `nmxp_data_get_filename_ms`. -/
def nmxpDataGetFilenameMs (place : Place) (msr : MsLabel) : RecordFile where
  dirseedchan := snprintf NMXP_DATA_MAX_SIZE_FILENAME (place.dirText msr)
  filenameMseed := snprintf NMXP_DATA_MAX_SIZE_FILENAME (place.fileText msr)
  filename_lt := length_snprintf_lt _

/-! ### The file system -/

/-- `fopen` with `"a+"`: it makes the file, unless there is a directory or it may not. -/
def fopenAppend (blocked : Blocked) (filename : CStr) (t : Tree) : Bool :=
  match (names filename).getLast? with
  | none => false
  | some name =>
    match walk t.dirs (t.start filename) (names filename).dropLast with
    | none => false
    | some p => !t.hasDir (p ++ [name]) && !blocked (p ++ [name])

/-- How the file system answers a request for a file, one question after the other. -/
def fileSystem (blocked : Blocked) (dirseedchan filename : CStr) (t : Tree) : FileSystem × Tree :=
  let fullpath := snprintf NMXP_DATA_MAX_SIZE_FILENAME (dirseedchan ++ '/' :: filename)
  let found := nmxpDataDirExists dirseedchan t
  if found.1 then (⟨true, false, false, fopenAppend blocked fullpath found.2⟩, found.2)
  else
    let made := nmxpDataMkdirp blocked dirseedchan found.2
    if made.1 = -1 then (⟨false, false, false, false⟩, made.2)
    else
      let now := nmxpDataDirExists dirseedchan made.2
      (⟨false, true, now.1, fopenAppend blocked fullpath now.2⟩, now.2)

/-! ### The run -/

/-- A record that is written. -/
structure Record where
  label : MsLabel
  bytes : List UInt8

/-- The writer, the directories, and what was written where, in order. -/
structure Store where
  dataSeed : NmxpDataSeed
  tree : Tree
  written : List (Stream × List UInt8)

def Store.start (t : Tree) : Store := ⟨nmxpDataSeedInit, t, []⟩

/-- **A record is written**; for a file that is open the file system is not asked. -/
def Store.write (place : Place) (blocked : Blocked) (s : Store) (r : Record) : Store :=
  let file := nmxpDataGetFilenameMs place r.label
  let fs :=
    if file.filenameMseed ≠ [] ∧ s.dataSeed.find file.filenameMseed = none then
      fileSystem blocked file.dirseedchan file.filenameMseed s.tree
    else (⟨false, false, false, false⟩, s.tree)
  let w := nmxpDataMsrWriteHandler r.bytes s.dataSeed (some file) fs.1
  ⟨w.1, fs.2, s.written ++ w.2.toList⟩

/-! ### Codes -/

/-- A code, as in a name between dots. -/
structure IsCode (code : CStr) : Prop where
  ne_nil : code ≠ []
  noDot : '.' ∉ code
  noSlash : '/' ∉ code

theorem IsCode.isName {code : CStr} (h : IsCode code) : IsName code where
  ne_nil := h.ne_nil
  noSlash := h.noSlash
  ne_dot heq := h.noDot (heq ▸ List.mem_cons_self ..)
  ne_dots heq := h.noDot (heq ▸ List.mem_cons_self ..)

/-- **What a record must say of itself.** -/
structure LabelOK (place : Place) (msr : MsLabel) : Prop where
  network : IsCode (place.netcode msr)
  station : IsCode msr.station
  channel : IsCode msr.channel
  location : '.' ∉ msr.location ∧ '/' ∉ msr.location
  fits : (place.dirText msr ++ '/' :: place.fileText msr).length < NMXP_DATA_MAX_SIZE_FILENAME

theorem isCode_zeroPadded (w n : ℕ) : IsCode (zeroPadded w n) where
  ne_nil h := Nat.toDigits_ne_nil (List.append_eq_nil_iff.mp h).2
  noDot h := absurd (isDigit_of_mem_zeroPadded h) (by decide)
  noSlash h := absurd (isDigit_of_mem_zeroPadded h) (by decide)

/-- What a text between separators consists of. -/
theorem mem_intercalate {c sep : Char} {parts : List CStr} (h : c ∈ [sep].intercalate parts)
    (hc : c ≠ sep) : ∃ part ∈ parts, c ∈ part := by
  induction parts with
  | nil => exact absurd h List.not_mem_nil
  | cons part parts ih =>
    cases parts with
    | nil => exact ⟨part, List.mem_cons_self .., by simpa using h⟩
    | cons part' parts =>
      rw [List.intercalate_cons_cons, List.mem_append, List.mem_append, List.mem_singleton] at h
      rcases h with (h | h) | h
      · exact ⟨part, List.mem_cons_self .., h⟩
      · exact absurd h hc
      · obtain ⟨p, hp, hcp⟩ := ih h
        exact ⟨p, List.mem_cons_of_mem _ hp, hcp⟩

section Label
variable {place : Place} {msr : MsLabel} (h : LabelOK place msr)
include h

theorem LabelOK.isName_dirNames : ∀ n ∈ place.dirNames msr, IsName n := by
  have hsta := h.station.isName
  have hnet := h.network.isName
  have hyear : IsName (yearText msr) := (isCode_zeroPadded ..).isName
  have hcha : IsName (msr.channel ++ ['.', 'D']) := by
    have hlen : 2 < (msr.channel ++ ['.', 'D']).length := by
      have := List.length_pos_iff.mpr h.channel.ne_nil
      rw [List.length_append]
      exact Nat.lt_add_of_pos_left this
    have hne {text : CStr} (hshort : text.length ≤ 2) : msr.channel ++ ['.', 'D'] ≠ text :=
      fun heq => absurd hshort (Nat.not_le.mpr (heq ▸ hlen))
    exact ⟨by simp, by simpa using h.channel.noSlash, hne (by decide), hne (by decide)⟩
  intro n hn
  unfold Place.dirNames at hn
  cases hp : place.typeWriteseed with
  | sds =>
    simp only [hp, List.mem_cons, List.not_mem_nil, or_false] at hn
    rcases hn with rfl | rfl | rfl | rfl
    · exact hyear
    · exact hnet
    · exact hsta
    · exact hcha
  | bud =>
    simp only [hp, List.mem_cons, List.not_mem_nil, or_false] at hn
    rcases hn with rfl | rfl
    · exact hnet
    · exact hsta

theorem LabelOK.fileParts : (∀ part ∈ place.fileParts msr, '.' ∉ part ∧ '/' ∉ part) ∧
    6 ≤ (place.fileParts msr).length := by
  have hcode {code : CStr} (hc : IsCode code) : '.' ∉ code ∧ '/' ∉ code := ⟨hc.noDot, hc.noSlash⟩
  have hyear := hcode (isCode_zeroPadded 0 (nmxpDataYearFromEpoch msr.starttime).toNat)
  have hyday := hcode (isCode_zeroPadded 3 (nmxpDataYdayFromEpoch msr.starttime).toNat)
  unfold Place.fileParts
  cases place.typeWriteseed with
  | sds => simp [hcode h.network, hcode h.station, hcode h.channel, h.location, yearText, ydayText,
      hyear, hyday]
  | bud => simp [hcode h.network, hcode h.station, hcode h.channel, h.location, yearText, ydayText,
      hyear, hyday]

/-- The parts can be read off the name. -/
theorem LabelOK.splitOn_fileText : (place.fileText msr).splitOn '.' = place.fileParts msr := by
  refine List.splitOn_intercalate '.' (fun part hpart => (h.fileParts.1 part hpart).1) ?_
  exact List.ne_nil_of_length_pos (Nat.lt_of_lt_of_le (by decide) h.fileParts.2)

theorem LabelOK.isName_fileText : IsName (place.fileText msr) := by
  have hlen := h.fileParts.2
  rw [← h.splitOn_fileText] at hlen
  -- a text with fewer periods is another one
  have hne {text : CStr} (hfew : (text.splitOn '.').length < 6) : place.fileText msr ≠ text :=
    fun heq => absurd hfew (Nat.not_lt.mpr (heq ▸ hlen))
  refine ⟨hne (by decide), fun hmem => ?_, hne (by decide), hne (by decide)⟩
  obtain ⟨part, hpart, hc⟩ := mem_intercalate hmem (by decide)
  exact (h.fileParts.1 part hpart).2 hc

/-- Nothing is cut off. -/
theorem LabelOK.getFilenameMs : (nmxpDataGetFilenameMs place msr).dirseedchan = place.dirText msr ∧
    (nmxpDataGetFilenameMs place msr).filenameMseed = place.fileText msr := by
  have hfits := h.fits
  rw [List.length_append, List.length_cons] at hfits
  exact ⟨List.take_of_length_le (by omega), List.take_of_length_le (by omega)⟩

end Label

/-- **The name of the file tells the directory.** -/
theorem dirNames_of_fileParts {place : Place} {msr msr' : MsLabel}
    (h : place.fileParts msr = place.fileParts msr') :
    place.dirNames msr = place.dirNames msr' := by
  unfold Place.fileParts at h
  unfold Place.dirNames
  cases hp : place.typeWriteseed with
  | sds =>
    simp only [hp, List.cons.injEq] at h
    obtain ⟨hnet, hsta, -, hcha, -, hyear, -⟩ := h
    simp only [hnet, hsta, hcha, hyear]
  | bud =>
    simp only [hp, List.cons.injEq] at h
    obtain ⟨hsta, hnet, -⟩ := h
    simp only [hnet, hsta]

/-! ### What a request does to the directories -/

theorem fopenAppend_pathText (blocked : Blocked) {t : Tree} (ht : Closed t.dirs) {p : Path}
    {n : CStr} (hnames : ∀ m ∈ p ++ [n], IsName m) (hp : p ∈ t.dirs) (hdir : p ++ [n] ∉ t.dirs)
    (hfree : blocked (p ++ [n]) = false) : fopenAppend blocked (pathText (p ++ [n])) t = true := by
  rw [fopenAppend, start_pathText (by simp), names_pathText hnames, List.getLast?_concat,
    List.dropLast_concat]
  simp only
  rw [walk_of_closed ht ht.root fun m hm => hnames m (List.mem_append_left _ hm), List.nil_append,
    if_pos hp]
  simp [Tree.hasDir, hdir, hfree]

/-- **A request for a file in an absolute directory.** If nothing is in the way, the file can be
had; the directories that lead to it are there then, and no others are new. -/
theorem fileSystem_spec (blocked : Blocked) {t : Tree} (ht : Closed t.dirs) (hcwd : t.cwd ∈ t.dirs)
    {p : Path} {n : CStr} (hp : p ≠ []) (hnames : ∀ m ∈ p ++ [n], IsName m)
    (hfits : (pathText p ++ '/' :: n).length < NMXP_DATA_MAX_SIZE_FILENAME)
    (hfree : Free blocked t.dirs p) (hfile : blocked (p ++ [n]) = false)
    (hdir : p ++ [n] ∉ t.dirs) :
    let r := fileSystem blocked (pathText p) n t
    r.1.opens ∧ r.2.cwd = t.cwd ∧ Closed r.2.dirs ∧
      ∀ q, q ∈ r.2.dirs ↔ q ∈ t.dirs ∨ q <+: p := by
  have hpn : ∀ m ∈ p, IsName m := fun m hm => hnames m (List.mem_append_left _ hm)
  have hfull : snprintf NMXP_DATA_MAX_SIZE_FILENAME (pathText p ++ '/' :: n) =
      pathText (p ++ [n]) := by
    rw [pathText_concat]
    exact List.take_of_length_le (by omega)
  have hopen {t' : Tree} (ht' : Closed t'.dirs) (hmem : p ∈ t'.dirs) (hnot : p ++ [n] ∉ t'.dirs) :=
    fopenAppend_pathText blocked ht' hnames hmem hnot hfile
  rw [fileSystem, hfull, nmxpDataDirExists_pathText ht hcwd hp hpn]
  by_cases hmem : p ∈ t.dirs
  · simp only [hmem, decide_true, if_true]
    refine ⟨⟨rfl, hopen ht hmem hdir⟩, trivial, ht, fun q => ⟨.inl, ?_⟩⟩
    exact Or.rec id fun hq => ht.parent p hmem q hq
  · obtain ⟨hcwd', hclosed, hdirs, hret⟩ := mkdirp_absolute blocked ht hcwd hp hpn
    have hret := hret.mpr ⟨hmem, hfree⟩
    have hmem' := (hdirs p).mpr (.inr ⟨List.prefix_rfl, hfree⟩)
    have hnot : p ++ [n] ∉ (nmxpDataMkdirp blocked (pathText p) t).2.dirs := by
      rw [hdirs]
      rintro (h | ⟨h, -⟩)
      · exact hdir h
      · exact absurd h.length_le (by simp)
    have hnow := nmxpDataDirExists_pathText hclosed
      (hcwd' ▸ (hdirs _).mpr (.inl hcwd)) hp hpn
    simp only [hmem, decide_false, hret, hnow, hmem', decide_true]
    rw [if_neg (by simp), if_neg (by simp)]
    refine ⟨⟨rfl, hopen hclosed hmem' hnot⟩, hcwd', hclosed, fun q => (hdirs q).trans ?_⟩
    refine or_congr_right ⟨And.left, fun hq => ⟨hq, fun r hr => hfree r (hr.trans hq)⟩⟩

/-! ### The run -/

/-- The file of a record. -/
def Place.stream (place : Place) (r : Record) : Stream :=
  ⟨place.dirText r.label, place.fileText r.label⟩

/-- A name is that of one stream. -/
theorem stream_of_fileText {place : Place} {r r' : Record} (h : LabelOK place r.label)
    (h' : LabelOK place r'.label) (heq : (place.stream r).filenameMseed = place.fileText r'.label) :
    place.stream r = place.stream r' := by
  have hparts : place.fileParts r.label = place.fileParts r'.label := by
    rw [← h.splitOn_fileText, ← h'.splitOn_fileText]
    exact congrArg _ heq
  have hdir : place.dirText r.label = place.dirText r'.label :=
    congrArg (fun p => place.outdirseed ++ pathText p) (dirNames_of_fileParts hparts)
  exact congrArg₂ Stream.mk hdir heq

/-- The second that the name of the file is made of. -/
def MsLabel.second (msr : MsLabel) : ℤ := if msr.starttime > 0 then ⌊msr.starttime⌋ else 0

/-- The day of a record, counted from 1970. -/
def MsLabel.day (msr : MsLabel) : ℤ := msr.second / 86400

/-- **Records of one channel and one day.** -/
structure SameChannelDay (place : Place) (msr msr' : MsLabel) : Prop where
  network : place.netcode msr = place.netcode msr'
  station : msr.station = msr'.station
  location : msr.location = msr'.location
  channel : msr.channel = msr'.channel
  day : msr.day = msr'.day

theorem zeroPadded_inj {w n n' : ℕ} (h : zeroPadded w n = zeroPadded w n') : n = n' := by
  rw [← ofDigitChars_zeroPadded w n, h, ofDigitChars_zeroPadded]

theorem MsLabel.second_nonneg (msr : MsLabel) : 0 ≤ msr.second := by
  unfold MsLabel.second
  split_ifs with h
  · exact Int.floor_nonneg.mpr h.le
  · exact le_rfl

/-- The year and the day of the year stand for the day. -/
theorem day_eq_iff (msr msr' : MsLabel) : msr.day = msr'.day ↔
    yearText msr = yearText msr' ∧ ydayText msr = ydayText msr' := by
  have hok := gmtimeR_ok msr.second msr.second_nonneg
  have hok' := gmtimeR_ok msr'.second msr'.second_nonneg
  have hyear : yearText msr = zeroPadded 0 ((gmtimeR msr.second).year + 1900).toNat := rfl
  have hyear' : yearText msr' = zeroPadded 0 ((gmtimeR msr'.second).year + 1900).toNat := rfl
  have hyday : ydayText msr = zeroPadded 3 ((gmtimeR msr.second).yday + 1).toNat := rfl
  have hyday' : ydayText msr' = zeroPadded 3 ((gmtimeR msr'.second).yday + 1).toNat := rfl
  rw [hyear, hyear', hyday, hyday']
  constructor
  · intro h
    have hboth : (gmtimeR msr.second).year = (gmtimeR msr'.second).year ∧
        (gmtimeR msr.second).yday = (gmtimeR msr'.second).yday := by
      unfold MsLabel.day at h
      unfold gmtimeR
      rw [h]
      exact ⟨rfl, rfl⟩
    rw [hboth.1, hboth.2]
    exact ⟨rfl, rfl⟩
  · rintro ⟨h1, h2⟩
    have h1 := zeroPadded_inj h1
    have h2 := zeroPadded_inj h2
    obtain ⟨hy, hd, hh, hm, hs, ht⟩ := hok
    obtain ⟨hy', hd', hh', hm', hs', ht'⟩ := hok'
    have hyears : (gmtimeR msr.second).year = (gmtimeR msr'.second).year := by omega
    rw [hyears] at ht
    unfold MsLabel.day
    omega

/-- **One file is one channel and one day.** -/
theorem stream_eq_iff {place : Place} {r r' : Record} (h : LabelOK place r.label)
    (h' : LabelOK place r'.label) :
    place.stream r = place.stream r' ↔ SameChannelDay place r.label r'.label := by
  constructor
  · intro heq
    have hparts : place.fileParts r.label = place.fileParts r'.label := by
      rw [← h.splitOn_fileText, ← h'.splitOn_fileText]
      exact congrArg (fun s : Stream => s.filenameMseed.splitOn '.') heq
    unfold Place.fileParts at hparts
    cases hp : place.typeWriteseed with
    | sds =>
      simp only [hp, List.cons.injEq, and_true, true_and] at hparts
      obtain ⟨hnet, hsta, hloc, hcha, hyear, hyday⟩ := hparts
      exact ⟨hnet, hsta, hloc, hcha, (day_eq_iff ..).mpr ⟨hyear, hyday⟩⟩
    | bud =>
      simp only [hp, List.cons.injEq, and_true] at hparts
      obtain ⟨hsta, hnet, hloc, hcha, hyear, hyday⟩ := hparts
      exact ⟨hnet, hsta, hloc, hcha, (day_eq_iff ..).mpr ⟨hyear, hyday⟩⟩
  · rintro ⟨hnet, hsta, hloc, hcha, hday⟩
    obtain ⟨hyear, hyday⟩ := (day_eq_iff ..).mp hday
    unfold Place.stream Place.dirText Place.fileText Place.dirNames Place.fileParts
    rw [hnet, hsta, hloc, hcha, hyear, hyday]
/-- The directory of a record. -/
def Place.dirPath (place : Place) (out : Path) (r : Record) : Path := out ++ place.dirNames r.label

/-- **What holds all along a run.** -/
structure Kept (place : Place) (out : Path) (t : Tree) (s : Store) (done : List Record) : Prop where
  slots : SlotsOK s.dataSeed
  streams : ∀ slot ∈ s.dataSeed.slots, ∀ stream, slot.outfileMseed = some stream →
    ∃ r ∈ done, stream = place.stream r
  written : s.written = done.map fun r => (place.stream r, r.bytes)
  cwd : s.tree.cwd = t.cwd
  closed : Closed s.tree.dirs
  mem : ∀ q, q ∈ s.tree.dirs ↔ q ∈ t.dirs ∨ ∃ r ∈ done, q <+: place.dirPath out r

theorem length_dirNames (place : Place) (msr msr' : MsLabel) :
    (place.dirNames msr).length = (place.dirNames msr').length := by
  unfold Place.dirNames
  cases place.typeWriteseed with
  | sds => rfl
  | bud => rfl

/-- **A directory that records can go to**: it is there, and nothing below it is in the way. -/
structure OutOK (place : Place) (out : Path) (blocked : Blocked) (t : Tree) : Prop where
  outdirseed : place.outdirseed = pathText out
  ne_nil : out ≠ []
  mem : out ∈ t.dirs
  free : ∀ q, out <+: q → blocked q = false
  closed : Closed t.dirs
  cwd : t.cwd ∈ t.dirs

/-- What is asked of a record: that its file is not a directory. -/
structure RecordOK (place : Place) (out : Path) (t : Tree) (r : Record) : Prop where
  label : LabelOK place r.label
  file : place.dirPath out r ++ [place.fileText r.label] ∉ t.dirs

section Step
variable {place : Place} {out : Path} {blocked : Blocked} {t : Tree} {s : Store}
  {done : List Record} {r : Record} (hout : OutOK place out blocked t)
include hout

/-- The file of a new record can be had. -/
theorem OutOK.fileSystem (h : Kept place out t s done) (hr : RecordOK place out t r) :
    let fs := fileSystem blocked (place.dirText r.label) (place.fileText r.label) s.tree
    fs.1.opens ∧ fs.2.cwd = t.cwd ∧ Closed fs.2.dirs ∧
      ∀ q, q ∈ fs.2.dirs ↔ q ∈ s.tree.dirs ∨ q <+: place.dirPath out r := by
  have htext : place.dirText r.label = pathText (place.dirPath out r) := by
    rw [Place.dirText, Place.dirPath, hout.outdirseed, pathText_append]
  have hcwd : s.tree.cwd ∈ s.tree.dirs := by
    rw [h.cwd, h.mem]
    exact .inl hout.cwd
  have hnames : ∀ m ∈ place.dirPath out r ++ [place.fileText r.label], IsName m := by
    intro m hm
    rw [List.mem_append, List.mem_singleton, Place.dirPath, List.mem_append] at hm
    rcases hm with (hm | hm) | rfl
    · exact hout.closed.plain out hout.mem m hm
    · exact hr.label.isName_dirNames m hm
    · exact hr.label.isName_fileText
  have hfits := hr.label.fits
  have hfree : Free blocked s.tree.dirs (place.dirPath out r) := by
    intro q hq
    rcases List.prefix_or_prefix_of_prefix hq (List.prefix_append out _) with hq | hq
    · exact .inl ((h.mem q).mpr (.inl (hout.closed.parent out hout.mem q hq)))
    · exact .inr (hout.free q hq)
  have hdir : place.dirPath out r ++ [place.fileText r.label] ∉ s.tree.dirs := by
    rw [h.mem]
    rintro (hmem | ⟨r', -, hpre⟩)
    · exact hr.file hmem
    · have hlen := hpre.length_le
      have := length_dirNames place r.label r'.label
      simp only [Place.dirPath, List.length_append, List.length_singleton] at hlen
      omega
  have hne : place.dirPath out r ≠ [] := List.append_ne_nil_of_left_ne_nil hout.ne_nil _
  have hfile : blocked (place.dirPath out r ++ [place.fileText r.label]) = false := by
    refine hout.free _ ⟨place.dirNames r.label ++ [place.fileText r.label], ?_⟩
    rw [Place.dirPath, List.append_assoc]
  rw [htext] at hfits ⊢
  have hspec := fileSystem_spec blocked h.closed hcwd hne hnames hfits hfree hfile hdir
  rwa [h.cwd] at hspec

end Step

/-- A record whose file is found or opened goes to its own stream. -/
theorem handler_of_fopen {place : Place} {rs : List Record} {r : Record} (hr : r ∈ rs)
    (hrs : ∀ r ∈ rs, LabelOK place r.label) {dataSeed : NmxpDataSeed} (h : SlotsOK dataSeed)
    {file : RecordFile} (hfile : file.filenameMseed = place.fileText r.label) {fs : FileSystem}
    (hstreams : ∀ slot ∈ (nmxpDataSeedFopen dataSeed file fs).1.slots, ∀ stream,
      slot.outfileMseed = some stream → ∃ r ∈ rs, stream = place.stream r)
    (h0 : (nmxpDataSeedFopen dataSeed file fs).2 = 0) :
    nmxpDataMsrWriteHandler r.bytes dataSeed (some file) fs =
      ((nmxpDataSeedFopen dataSeed file fs).1, some (place.stream r, r.bytes)) := by
  have hne : file.filenameMseed ≠ [] := hfile ▸ (hrs r hr).isName_fileText.ne_nil
  obtain ⟨i, -, hcur, stream, hstream, hname⟩ := h.opened_of_fopen hne h0
  have hout := hstream
  rw [outfile_natCast] at hout
  obtain ⟨slot, hslot, hopen⟩ := Option.bind_eq_some_iff.mp hout
  obtain ⟨r', hr', rfl⟩ := hstreams slot (List.mem_of_getElem? hslot) _ hopen
  have hown := stream_of_fileText (hrs r' hr') (hrs r hr) (hname.trans hfile)
  rw [nmxpDataMsrWriteHandler]
  simp only [h0, if_true, hcur, hstream, Option.map_some, hown]

/-- Where the streams of a request come from that finds the file or gets it. -/
theorem streams_fopen {place : Place} {done : List Record} {r : Record} {dataSeed : NmxpDataSeed}
    (hstreams : ∀ slot ∈ dataSeed.slots, ∀ stream, slot.outfileMseed = some stream →
      ∃ r ∈ done, stream = place.stream r)
    (hr : LabelOK place r.label) {fs : FileSystem}
    (hgiven : dataSeed.find (nmxpDataGetFilenameMs place r.label).filenameMseed = none → fs.opens) :
    let q := nmxpDataSeedFopen dataSeed (nmxpDataGetFilenameMs place r.label) fs
    q.2 = 0 ∧ ¬ FailsFull dataSeed (.fopen (nmxpDataGetFilenameMs place r.label) fs) ∧
      ∀ slot ∈ q.1.slots, ∀ stream, slot.outfileMseed = some stream →
        ∃ r' ∈ done ++ [r], stream = place.stream r' := by
  obtain ⟨hdirText, hfileText⟩ := hr.getFilenameMs
  have hne : (nmxpDataGetFilenameMs place r.label).filenameMseed ≠ [] :=
    hfileText ▸ hr.isName_fileText.ne_nil
  have hold (slot) (hslot : slot ∈ dataSeed.slots) (stream)
      (hopen : slot.outfileMseed = some stream) : ∃ r' ∈ done ++ [r], stream = place.stream r' :=
    (hstreams slot hslot stream hopen).imp fun r' h => ⟨List.mem_append_left _ h.1, h.2⟩
  intro q
  rcases fopen_cases dataSeed fs hne with
    ⟨i, hfind, heq⟩ | ⟨hnew, ⟨hdir, -⟩ | ⟨-, ⟨hopen, heq⟩ | ⟨hfail, -⟩⟩⟩
  · have hq : q = ({ dataSeed with curOpenFile := i }, 0) := heq
    rw [hq]
    refine ⟨rfl, fun hfails => ?_, hold⟩
    rw [find_eq_none.mpr hfails.2.1] at hfind
    exact absurd hfind (by simp)
  · rw [(hgiven hnew).1] at hdir
    exact absurd hdir (by simp)
  · have hq : q = (reopened dataSeed (nmxpDataGetFilenameMs place r.label), 0) := heq
    rw [hq]
    refine ⟨rfl, fun hfails => ?_, fun slot hslot stream hstream => ?_⟩
    · rw [hfails.2.2.2] at hopen
      exact absurd hopen (by simp)
    · rcases List.mem_or_eq_of_mem_set hslot with hslot | rfl
      · exact hold slot hslot stream hstream
      · refine ⟨r, by simp, ?_⟩
        rw [← Option.some_inj.mp hstream, Place.stream, hdirText, hfileText]
  · rw [(hgiven hnew).2] at hfail
    exact absurd hfail (by simp)

/-- A file that is found was opened for a record with the same directory. -/
theorem Kept.found {place : Place} {out : Path} {t : Tree} {s : Store} {done : List Record}
    {r : Record} (h : Kept place out t s done) (hr : LabelOK place r.label)
    (hdone : ∀ r' ∈ done, LabelOK place r'.label) {i : ℕ}
    (hfind : s.dataSeed.find (nmxpDataGetFilenameMs place r.label).filenameMseed = some i) :
    ∃ r' ∈ done, place.dirNames r'.label = place.dirNames r.label := by
  obtain ⟨slot, hmem, -, -, hname⟩ := find_eq_some hfind
  obtain ⟨stream, hopen, hstream⟩ := h.slots.opened slot (mem_content.mpr hmem)
  obtain ⟨r', hr', rfl⟩ := h.streams slot (List.mem_of_mem_take hmem) stream hopen
  refine ⟨r', hr', dirNames_of_fileParts ?_⟩
  rw [← (hdone r' hr').splitOn_fileText, ← hr.splitOn_fileText, ← hr.getFilenameMs.2, ← hname]
  exact congrArg _ hstream

/-- **Every record keeps it.** -/
theorem Kept.write {place : Place} {out : Path} {blocked : Blocked} {t : Tree} {s : Store}
    {done : List Record} {r : Record} (hout : OutOK place out blocked t)
    (h : Kept place out t s done) (hdone : ∀ r' ∈ done ++ [r], RecordOK place out t r') :
    Kept place out t (s.write place blocked r) (done ++ [r]) := by
  have hr := hdone r (by simp)
  have hlabel : ∀ r' ∈ done ++ [r], LabelOK place r'.label := fun r' hr' => (hdone r' hr').label
  obtain ⟨hdirText, hfileText⟩ := hr.label.getFilenameMs
  have hne : (nmxpDataGetFilenameMs place r.label).filenameMseed ≠ [] :=
    hfileText ▸ hr.label.isName_fileText.ne_nil
  -- whatever the file system said, as long as it gave a file that was not open
  have hkept {fs : FileSystem} {t' : Tree} (hgiven : s.dataSeed.find
        (nmxpDataGetFilenameMs place r.label).filenameMseed = none → fs.opens)
      (hcwd : t'.cwd = t.cwd) (hclosed : Closed t'.dirs)
      (hmem : ∀ q, q ∈ t'.dirs ↔ q ∈ s.tree.dirs ∨ q <+: place.dirPath out r) :
      Kept place out t
        ⟨(nmxpDataMsrWriteHandler r.bytes s.dataSeed
            (some (nmxpDataGetFilenameMs place r.label)) fs).1, t',
          s.written ++ (nmxpDataMsrWriteHandler r.bytes s.dataSeed
            (some (nmxpDataGetFilenameMs place r.label)) fs).2.toList⟩ (done ++ [r]) := by
    obtain ⟨h0, hok, hstreams⟩ := streams_fopen h.streams hr.label hgiven
    rw [handler_of_fopen (by simp) hlabel h.slots hfileText hstreams h0]
    refine ⟨h.slots.fopen hne hok, hstreams, ?_, hcwd, hclosed, fun q => ?_⟩
    · rw [h.written, List.map_append]; rfl
    · rw [hmem, h.mem, or_assoc]
      simp [or_and_right, exists_or]
  rw [Store.write]
  cases hfind : s.dataSeed.find (nmxpDataGetFilenameMs place r.label).filenameMseed with
  | some i =>
    obtain ⟨r', hr', hsame⟩ := h.found hr.label (fun r hr => (hdone r (by simp [hr])).label) hfind
    have hdir : place.dirPath out r' = place.dirPath out r := congrArg (out ++ ·) hsame
    simp only [reduceCtorEq, and_false, if_false]
    refine hkept (fun hnone => ?_) h.cwd h.closed fun q => ⟨.inl, ?_⟩
    · rw [hfind] at hnone
      exact absurd hnone (by simp)
    · rintro (hq | hq)
      · exact hq
      · exact (h.mem q).mpr (.inr ⟨r', hr', hdir ▸ hq⟩)
  | none =>
    have hspec := hout.fileSystem h hr
    simp only [hne, ne_eq, not_false_eq_true, and_self, if_true]
    rw [hdirText, hfileText] at *
    exact hkept (fun _ => hspec.1) hspec.2.1 hspec.2.2.1 hspec.2.2.2

theorem kept_start (place : Place) (out : Path) {t : Tree} (ht : Closed t.dirs) :
    Kept place out t (.start t) [] where
  slots := slotsOK_init
  streams slot hslot stream hopen := by
    rw [List.eq_of_mem_replicate hslot] at hopen
    exact absurd hopen (by simp)
  written := rfl
  cwd := rfl
  closed := ht
  mem q := by simp [Store.start]

/-- **Every record is appended to the file of its channel and day**, in the order in which they come
and however often the file had to be opened again: two records have one file if and only if they are
of one channel and one day. The directories of the records are made, and no others. -/
theorem archive_run {place : Place} {out : Path} {blocked : Blocked} {t : Tree}
    (hout : OutOK place out blocked t) (records : List Record)
    (hrecords : ∀ r ∈ records, RecordOK place out t r) :
    let s := records.foldl (Store.write place blocked) (.start t)
    s.written = records.map (fun r => (place.stream r, r.bytes)) ∧
      (∀ r ∈ records, ∀ r' ∈ records,
        (place.stream r = place.stream r' ↔ SameChannelDay place r.label r'.label)) ∧
      s.tree.cwd = t.cwd ∧
      ∀ q, q ∈ s.tree.dirs ↔ q ∈ t.dirs ∨ ∃ r ∈ records, q <+: place.dirPath out r := by
  have hstep (s : Store) (done : List Record) (r : Record)
      (h : Kept place out t s done ∧ ∀ r' ∈ done, RecordOK place out t r')
      (hr : RecordOK place out t r) :
      Kept place out t (s.write place blocked r) (done ++ [r]) ∧
        ∀ r' ∈ done ++ [r], RecordOK place out t r' := by
    have hdone : ∀ r' ∈ done ++ [r], RecordOK place out t r' := by
      intro r' hr'
      rcases List.mem_append.mp hr' with hr' | hr'
      · exact h.2 r' hr'
      · exact List.mem_singleton.mp hr' ▸ hr
    exact ⟨h.1.write hout hdone, hdone⟩
  have halong : Along (Store.write place blocked) (fun _ r => RecordOK place out t r) (.start t)
      records := fun done r rest he => hrecords r (by rw [he]; simp)
  have hrun := foldl_inv _ hstep [] ⟨kept_start place out hout.closed, by simp⟩ halong
  exact ⟨hrun.1.written, fun r hr r' hr' =>
    stream_eq_iff (hrecords r hr).label (hrecords r' hr').label, hrun.1.cwd, hrun.1.mem⟩

/-! ### Two days -/

def sdsPlace : Place := ⟨pathText [['a']], ['N', 'N'], .sds⟩

def emptyTree : Tree := ⟨[[]] ++ [[] ++ [['a']]], []⟩

/-- A directory elsewhere cannot be made. -/
def elsewhere : Blocked := fun p => p = [['b']]

/-- A record of a day, without a network. -/
def dayRecord (day : ℕ) : Record := ⟨⟨[], ['S', 'T'], [], ['H', 'H', 'Z'], day * 86400⟩, [1, 2]⟩

theorem outOK_sds : OutOK sdsPlace [['a']] elsewhere emptyTree where
  outdirseed := rfl
  ne_nil := by decide
  mem := by decide
  free q hq := by
    refine decide_eq_false ?_
    rintro rfl
    exact absurd hq (by decide)
  closed := closed_root.concat (by decide) ⟨by decide, by decide, by decide, by decide⟩
  cwd := by decide

theorem recordOK_day {day : ℕ} (hday : day = 0 ∨ day = 1) :
    RecordOK sdsPlace [['a']] emptyTree (dayRecord day) where
  label := by
    have hnet : IsCode ['N', 'N'] := ⟨by decide, by decide, by decide⟩
    have hsta : IsCode ['S', 'T'] := ⟨by decide, by decide, by decide⟩
    have hcha : IsCode ['H', 'H', 'Z'] := ⟨by decide, by decide, by decide⟩
    refine ⟨hnet, hsta, hcha, ⟨List.not_mem_nil, List.not_mem_nil⟩, ?_⟩
    rcases hday with rfl | rfl
    · decide +kernel
    · decide +kernel
  file := by
    rcases hday with rfl | rfl
    · decide
    · decide

/-- A record of the first day, one of the second, and one of the first again. -/
theorem archive_run_days :
    (([0, 1, 0].map dayRecord).foldl (Store.write sdsPlace elsewhere) (.start emptyTree)).written =
      ([0, 1, 0].map dayRecord).map (fun r => (sdsPlace.stream r, r.bytes)) ∧
    sdsPlace.stream (dayRecord 0) ≠ sdsPlace.stream (dayRecord 1) := by
  obtain ⟨hwritten, hfiles, -⟩ :=
    archive_run outOK_sds ([0, 1, 0].map dayRecord) (by simp [recordOK_day])
  refine ⟨hwritten, fun heq => ?_⟩
  have hday := ((hfiles _ (by simp) _ (by simp)).mp heq).day
  exact absurd hday (by decide +kernel)

end Nmxptool.Seed.Archive
