import Mathlib.Data.List.Infix
import Nmxptool.Data.Process

/-! # Directories

Record files are kept in a tree of directories, and `nmxp_data_mkdirp` makes those that are missing.
To find out whether a directory exists it goes there.

* `walk_of_closed`: where a path of plain names leads.
* `mkdirpLoop_spec`: what the loop over the separators makes.
* `mkdirp_absolute`: for an absolute path, the missing directories are made up to the first one that
  cannot be, and nothing else. -/

namespace Nmxptool.Data.Directories

open Nmxptool.Data.Process

/-! ### The file system -/

/-- The names from the root on. -/
abbrev Path := List CStr

/-- The directories that there are, and the one the process is in. There are no links. -/
structure Tree where
  dirs : List Path
  cwd : Path
  deriving DecidableEq

/-- What the system refuses to make, because of a file with this name or for lack of a right. -/
abbrev Blocked := Path → Bool

/-- The names in a text. -/
def names (text : CStr) : List CStr := (text.splitOn '/').filter (· ≠ [])

/-- Where a text starts from. -/
def Tree.start (t : Tree) (text : CStr) : Path := if text.head? = some '/' then [] else t.cwd

/-- Whether there is a directory. -/
def Tree.hasDir (t : Tree) (p : Path) : Bool := decide (p ∈ t.dirs)

/-- From directory to directory. -/
def walk (dirs : List Path) : Path → List CStr → Option Path
  | p, [] => some p
  | p, name :: rest =>
    if name = ['.'] then walk dirs p rest
    else if name = ['.', '.'] then walk dirs p.dropLast rest
    else if p ++ [name] ∈ dirs then walk dirs (p ++ [name]) rest
    else none

def chdir (text : CStr) (t : Tree) : Option Tree :=
  if text = [] then none
  else (walk t.dirs (t.start text) (names text)).map fun p => { t with cwd := p }

def mkdir (blocked : Blocked) (text : CStr) (t : Tree) : Option Tree :=
  match (names text).getLast? with
  | none => none
  | some name =>
    if name = ['.'] ∨ name = ['.', '.'] then none
    else
      match walk t.dirs (t.start text) (names text).dropLast with
      | none => none
      | some p =>
        if p ++ [name] ∈ t.dirs ∨ blocked (p ++ [name]) then none
        else some { t with dirs := t.dirs ++ [p ++ [name]] }

/-- The text of an absolute path that is not the root. -/
def pathText (p : Path) : CStr := p.flatMap fun name => '/' :: name

/-- `nmxp_data_gnu_getcwd` -/
def nmxpDataGnuGetcwd (t : Tree) : CStr := if t.cwd = [] then ['/'] else pathText t.cwd

/-! ### The functions -/

/-- `chdir`, the result of which does not matter. -/
def goBack (curDir : CStr) (t : Tree) : Tree := (chdir curDir t).getD t

/-- `nmxp_data_dir_exists` -/
def nmxpDataDirExists (dirname : CStr) (t : Tree) : Bool × Tree :=
  let curDir := nmxpDataGnuGetcwd t
  match chdir dirname t with
  | none => (false, goBack curDir t)
  | some t => (true, goBack curDir t)

/-- `nmxp_data_mkdir` -/
def nmxpDataMkdir (blocked : Blocked) (dirname : CStr) (t : Tree) : ℤ × Tree :=
  match mkdir blocked dirname t with
  | none => (-1, t)
  | some t => (0, t)

/-- The loop over the characters, with those before the current one. -/
def mkdirpLoop (blocked : Blocked) : CStr → CStr → Tree → ℤ × Tree
  | _, [], t => (0, t)
  | dir, c :: rest, t =>
    if c = '/' ∧ dir ≠ [] then
      match chdir dir t with
      | some t => mkdirpLoop blocked (dir ++ [c]) rest t
      | none =>
        let r := nmxpDataMkdir blocked dir t
        if r.1 = -1 then r else mkdirpLoop blocked (dir ++ [c]) rest r.2
    else mkdirpLoop blocked (dir ++ [c]) rest t

/-- What is made before going back. -/
def mkdirpThere (blocked : Blocked) (filename : CStr) (t : Tree) : ℤ × Tree :=
  let r := mkdirpLoop blocked [] filename t
  if r.1 ≠ -1 then nmxpDataMkdir blocked filename r.2 else r

/-- **`nmxp_data_mkdirp`.** -/
def nmxpDataMkdirp (blocked : Blocked) (filename : CStr) (t : Tree) : ℤ × Tree :=
  let curDir := nmxpDataGnuGetcwd t
  let r := mkdirpThere blocked filename t
  (r.1, goBack curDir r.2)

/-! ### Plain names -/

/-- A name that a directory may have. -/
structure IsName (name : CStr) : Prop where
  ne_nil : name ≠ []
  noSlash : '/' ∉ name
  ne_dot : name ≠ ['.']
  ne_dots : name ≠ ['.', '.']

/-- **The directories make up a tree** with a root. -/
structure Closed (dirs : List Path) : Prop where
  root : [] ∈ dirs
  parent : ∀ p ∈ dirs, ∀ q, q <+: p → q ∈ dirs
  plain : ∀ p ∈ dirs, ∀ n ∈ p, IsName n

/-- Nothing is in the way of making a path. -/
def Free (blocked : Blocked) (dirs : List Path) (p : Path) : Prop :=
  ∀ q, q <+: p → q ∈ dirs ∨ blocked q = false

theorem closed_root : Closed [[]] where
  root := List.mem_singleton_self _
  parent p hp q hq := by
    rw [List.mem_singleton.mp hp, List.prefix_nil] at hq
    exact List.mem_singleton.mpr hq
  plain p hp n hn := by
    rw [List.mem_singleton.mp hp] at hn
    exact absurd hn List.not_mem_nil

theorem splitOn_pathText {name : CStr} {p : Path} (hname : '/' ∉ name) (hp : ∀ n ∈ p, IsName n) :
    (name ++ pathText p).splitOn '/' = name :: p := by
  induction p generalizing name with
  | nil => rw [pathText, List.flatMap_nil, List.append_nil, List.splitOn_eq_singleton hname]
  | cons n p ih =>
    have hrest := ih (hp n (List.mem_cons_self ..)).noSlash
      fun m hm => hp m (List.mem_cons_of_mem _ hm)
    rw [pathText, List.flatMap_cons, List.cons_append,
      List.splitOn_append_cons_self_of_not_mem hname, ← pathText, hrest]

/-- A plain name is not empty. -/
theorem filter_ne_nil {p : Path} (hp : ∀ n ∈ p, IsName n) : p.filter (· ≠ []) = p :=
  List.filter_eq_self.mpr fun m hm => by simpa using (hp m hm).ne_nil

theorem names_pathText {p : Path} (hp : ∀ n ∈ p, IsName n) : names (pathText p) = p := by
  have hsplit := @splitOn_pathText [] p List.not_mem_nil hp
  rw [List.nil_append] at hsplit
  rw [names, hsplit, List.filter_cons_of_neg (by simp), filter_ne_nil hp]

theorem pathText_ne_nil {p : Path} (hp : p ≠ []) : pathText p ≠ [] := by
  obtain ⟨n, p, rfl⟩ := List.exists_cons_of_ne_nil hp
  simp [pathText]

theorem pathText_cons (n : CStr) (p : Path) : pathText (n :: p) = '/' :: n ++ pathText p :=
  List.flatMap_cons

theorem pathText_append (p q : Path) : pathText (p ++ q) = pathText p ++ pathText q :=
  List.flatMap_append

theorem pathText_concat (p : Path) (n : CStr) : pathText (p ++ [n]) = pathText p ++ '/' :: n := by
  simp [pathText]

theorem start_pathText {p : Path} (hp : p ≠ []) (t : Tree) : t.start (pathText p) = [] := by
  obtain ⟨n, p, rfl⟩ := List.exists_cons_of_ne_nil hp
  rfl

/-- **Where a path of plain names leads.** -/
theorem walk_of_closed {dirs : List Path} (hdirs : Closed dirs) {p : Path} (hp : p ∈ dirs)
    {rest : List CStr} (hrest : ∀ n ∈ rest, IsName n) :
    walk dirs p rest = if p ++ rest ∈ dirs then some (p ++ rest) else none := by
  induction rest generalizing p with
  | nil => rw [walk, List.append_nil, if_pos hp]
  | cons n rest ih =>
    have hn := hrest n (List.mem_cons_self ..)
    have happend : p ++ n :: rest = p ++ [n] ++ rest := by rw [List.append_assoc]; rfl
    rw [walk, if_neg hn.ne_dot, if_neg hn.ne_dots, happend]
    split_ifs with h1 h2 h2
    · rw [ih h1 fun m hm => hrest m (List.mem_cons_of_mem _ hm), if_pos h2]
    · rw [ih h1 fun m hm => hrest m (List.mem_cons_of_mem _ hm), if_neg h2]
    · exact absurd (hdirs.parent _ h2 _ (List.prefix_append _ _)) h1
    · rfl

/-! ### Absolute paths -/

theorem chdir_pathText {t : Tree} (ht : Closed t.dirs) {p : Path} (hp : p ≠ [])
    (hnames : ∀ n ∈ p, IsName n) :
    chdir (pathText p) t = if p ∈ t.dirs then some { t with cwd := p } else none := by
  rw [chdir, if_neg (pathText_ne_nil hp), start_pathText hp, names_pathText hnames,
    walk_of_closed ht ht.root hnames, List.nil_append]
  split_ifs <;> rfl

theorem mkdir_pathText {blocked : Blocked} {t : Tree} (ht : Closed t.dirs) {p : Path} {n : CStr}
    (hnames : ∀ m ∈ p ++ [n], IsName m) :
    mkdir blocked (pathText (p ++ [n])) t =
      if p ∈ t.dirs ∧ p ++ [n] ∉ t.dirs ∧ blocked (p ++ [n]) = false then
        some { t with dirs := t.dirs ++ [p ++ [n]] }
      else none := by
  have hn := hnames n (by simp)
  rw [mkdir, start_pathText (by simp), names_pathText hnames, List.getLast?_concat,
    List.dropLast_concat]
  simp only [hn.ne_dot, hn.ne_dots, or_self, if_false]
  rw [walk_of_closed ht ht.root fun m hm => hnames m (List.mem_append_left _ hm), List.nil_append]
  by_cases hp : p ∈ t.dirs
  · rw [if_pos hp]
    by_cases hq : p ++ [n] ∈ t.dirs
    · simp [hp, hq]
    · cases hb : blocked (p ++ [n]) <;> simp [hp, hq, hb]
  · simp [hp]

/-- To go back to where one was changes the directory only. -/
theorem goBack_getcwd {t u : Tree} (hu : Closed u.dirs) (hcwd : t.cwd ∈ u.dirs) :
    goBack (nmxpDataGnuGetcwd t) u = { u with cwd := t.cwd } := by
  rw [goBack, nmxpDataGnuGetcwd]
  split_ifs with hroot
  · rw [hroot]; rfl
  · rw [chdir_pathText hu hroot (hu.plain _ hcwd), if_pos hcwd]; rfl

theorem nmxpDataDirExists_pathText {t : Tree} (ht : Closed t.dirs) (hcwd : t.cwd ∈ t.dirs)
    {p : Path} (hp : p ≠ []) (hnames : ∀ n ∈ p, IsName n) :
    nmxpDataDirExists (pathText p) t = (decide (p ∈ t.dirs), t) := by
  rw [nmxpDataDirExists, chdir_pathText ht hp hnames]
  by_cases hmem : p ∈ t.dirs
  · rw [if_pos hmem]
    simp only [goBack_getcwd (u := { t with cwd := p }) ht hcwd, hmem, decide_true]
  · rw [if_neg hmem]
    simp only [goBack_getcwd ht hcwd, hmem, decide_false]

/-! ### The loop -/

/-- The characters of a name are passed over. -/
theorem mkdirpLoop_name (blocked : Blocked) {name : CStr} (hname : '/' ∉ name) (dir rest : CStr)
    (t : Tree) :
    mkdirpLoop blocked dir (name ++ rest) t = mkdirpLoop blocked (dir ++ name) rest t := by
  induction name generalizing dir with
  | nil => rw [List.nil_append, List.append_nil]
  | cons c name ih =>
    have hc : ¬ (c = '/' ∧ dir ≠ []) := fun h => hname (h.1 ▸ List.mem_cons_self ..)
    rw [List.cons_append, mkdirpLoop, if_neg hc, ih fun h => hname (List.mem_cons_of_mem _ h),
      List.append_assoc, List.singleton_append]

/-- There is nothing to look at before the first name. -/
theorem mkdirpLoop_root (blocked : Blocked) {n : CStr} (hn : IsName n) (rest : Path) (t : Tree) :
    mkdirpLoop blocked (pathText []) (pathText (n :: rest)) t =
      mkdirpLoop blocked (pathText [n]) (pathText rest) t := by
  rw [pathText_cons, List.cons_append, mkdirpLoop, if_neg (by simp [pathText]),
    mkdirpLoop_name blocked hn.noSlash]
  simp [pathText]

/-- At the separator after a directory. -/
theorem mkdirpLoop_dir (blocked : Blocked) {t : Tree} (ht : Closed t.dirs) {p : Path} {m n : CStr}
    (hnames : ∀ k ∈ p ++ [m], IsName k) (hn : IsName n) (rest : Path) :
    mkdirpLoop blocked (pathText (p ++ [m])) (pathText (n :: rest)) t =
      if p ++ [m] ∈ t.dirs then
        mkdirpLoop blocked (pathText (p ++ [m] ++ [n])) (pathText rest) { t with cwd := p ++ [m] }
      else if p ∈ t.dirs ∧ p ++ [m] ∉ t.dirs ∧ blocked (p ++ [m]) = false then
        mkdirpLoop blocked (pathText (p ++ [m] ++ [n])) (pathText rest)
          { t with dirs := t.dirs ++ [p ++ [m]] }
      else (-1, t) := by
  have hne : p ++ [m] ≠ [] := by simp
  have hskip (t : Tree) :
      mkdirpLoop blocked (pathText (p ++ [m]) ++ ['/']) (n ++ pathText rest) t =
        mkdirpLoop blocked (pathText (p ++ [m] ++ [n])) (pathText rest) t := by
    rw [mkdirpLoop_name blocked hn.noSlash, pathText_concat _ n, List.append_assoc]; rfl
  rw [pathText_cons, List.cons_append, mkdirpLoop, if_pos ⟨rfl, pathText_ne_nil hne⟩,
    nmxpDataMkdir, chdir_pathText ht hne hnames, mkdir_pathText ht hnames]
  by_cases h1 : p ++ [m] ∈ t.dirs
  · rw [if_pos h1, if_pos h1]
    exact hskip _
  · rw [if_neg h1, if_neg h1]
    by_cases h2 : p ∈ t.dirs ∧ p ++ [m] ∉ t.dirs ∧ blocked (p ++ [m]) = false
    · rw [if_pos h2, if_pos h2]
      exact hskip _
    · rw [if_neg h2, if_neg h2]
      rfl

/-- The paths between two. -/
theorem between_cons {done : Path} {n : CStr} {rest p : Path} :
    done <+: p ∧ p <+: done ++ n :: rest ↔
      p = done ∨ (done ++ [n] <+: p ∧ p <+: done ++ [n] ++ rest) := by
  constructor
  · rintro ⟨⟨q, rfl⟩, hq⟩
    cases q with
    | nil => exact .inl (List.append_nil _)
    | cons m q =>
      obtain ⟨rfl, hq⟩ := List.cons_prefix_cons.mp ((List.prefix_append_right_inj done).mp hq)
      refine .inr ⟨⟨q, by simp⟩, ?_⟩
      simpa [List.prefix_append_right_inj] using hq
  · rintro (rfl | ⟨h1, h2⟩)
    · exact ⟨List.prefix_rfl, List.prefix_append ..⟩
    · exact ⟨(List.prefix_append ..).trans h1, by simpa using h2⟩

/-- A new directory inside one that exists. -/
theorem Closed.concat {dirs : List Path} (hdirs : Closed dirs) {p : Path} (hp : p ∈ dirs) {n : CStr}
    (hn : IsName n) : Closed (dirs ++ [p ++ [n]]) where
  root := List.mem_append_left _ hdirs.root
  parent q hq r hr := by
    rcases List.mem_append.mp hq with hq | hq
    · exact List.mem_append_left _ (hdirs.parent q hq r hr)
    · rw [List.mem_singleton.mp hq, List.prefix_concat_iff] at hr
      rcases hr with rfl | hr
      · simp
      · exact List.mem_append_left _ (hdirs.parent p hp r hr)
  plain q hq m hm := by
    rcases List.mem_append.mp hq with hq | hq
    · exact hdirs.plain q hq m hm
    · rw [List.mem_singleton.mp hq, List.mem_append, List.mem_singleton] at hm
      rcases hm with hm | rfl
      · exact hdirs.plain p hp m hm
      · exact hn

/-- To have made a directory that can be made changes nothing about the others. -/
theorem free_congr {blocked : Blocked} {dirs dirs' : List Path} {q : Path}
    (hmem : ∀ p, p ∈ dirs' ↔ p ∈ dirs ∨ p = q) (hq : q ∈ dirs ∨ blocked q = false) (p : Path) :
    Free blocked dirs' p ↔ Free blocked dirs p := by
  refine forall_congr' fun r => imp_congr_right fun _ => ?_
  rw [hmem]
  constructor
  · rintro ((h | rfl) | h)
    · exact .inl h
    · exact hq
    · exact .inr h
  · exact fun h => h.imp_left .inl

/-- What the loop has made, from the directories it was to look at. -/
structure Made (blocked : Blocked) (dirs : List Path) (done path : Path) (r : ℤ × Tree) : Prop where
  closed : Closed r.2.dirs
  mem : ∀ p, p ∈ r.2.dirs ↔
    p ∈ dirs ∨ ((done <+: p ∧ p <+: path) ∧ p ≠ path ∧ Free blocked dirs p)
  failed : r.1 = -1 ↔ ¬ Free blocked dirs path.dropLast

/-- One directory further. -/
theorem Made.of_next {blocked : Blocked} {dirs dirs' : List Path} {done rest : Path} {n : CStr}
    {r : ℤ × Tree} (hdirs : Closed dirs') (hmem : ∀ p, p ∈ dirs' ↔ p ∈ dirs ∨ p = done)
    (hdone : done ∈ dirs ∨ blocked done = false)
    (h : Made blocked dirs' (done ++ [n]) (done ++ n :: rest) r) :
    Made blocked dirs done (done ++ n :: rest) r := by
  have hfree := free_congr hmem hdone
  refine ⟨h.closed, fun p => ?_, by rw [h.failed, hfree]⟩
  rw [h.mem, hmem, hfree, between_cons, ← List.append_cons]
  constructor
  · rintro ((hp | rfl) | hp)
    · exact .inl hp
    · refine .inr ⟨.inl rfl, by simp, fun q hq => ?_⟩
      rcases (hmem q).mp (hdirs.parent p ((hmem p).mpr (.inr rfl)) q hq) with hq | rfl
      · exact .inl hq
      · exact hdone
    · exact .inr ⟨.inr hp.1, hp.2⟩
  · rintro (hp | ⟨rfl | hp, hrest⟩)
    · exact .inl (.inl hp)
    · exact .inl (.inr rfl)
    · exact .inr ⟨hp, hrest⟩

/-- **What the loop makes**, when the directory of the one it has come to exists. -/
theorem mkdirpLoop_spec (blocked : Blocked) {rest : Path} {done : Path} {t : Tree}
    (ht : Closed t.dirs) (hdone : done.dropLast ∈ t.dirs) (hnames : ∀ n ∈ done ++ rest, IsName n) :
    Made blocked t.dirs done (done ++ rest)
      (mkdirpLoop blocked (pathText done) (pathText rest) t) := by
  induction rest generalizing done t with
  | nil =>
    rw [List.append_nil]
    refine ⟨ht, fun p => ⟨.inl, ?_⟩, ?_⟩
    · rintro (h | ⟨⟨h1, h2⟩, hne, -⟩)
      · exact h
      · exact absurd (h2.eq_of_length_le h1.length_le) hne
    · have hfree : Free blocked t.dirs done.dropLast := fun q hq => .inl (ht.parent _ hdone q hq)
      simp [pathText, mkdirpLoop, hfree]
  | cons n rest ih =>
    have hn := hnames n (by simp)
    have happend : done ++ n :: rest = done ++ [n] ++ rest := List.append_cons ..
    -- the current directory is there, and the next one is looked at
    have hthere (t' : Tree) (ht' : Closed t'.dirs) (hmem : ∀ p, p ∈ t'.dirs ↔ p ∈ t.dirs ∨ p = done)
        (hfree : done ∈ t.dirs ∨ blocked done = false) :
        Made blocked t.dirs done (done ++ n :: rest)
          (mkdirpLoop blocked (pathText (done ++ [n])) (pathText rest) t') := by
      refine .of_next ht' hmem hfree ?_
      rw [happend]
      exact ih ht' (by rw [List.dropLast_concat, hmem]; exact .inr rfl) (happend ▸ hnames)
    have hsame {q : Path} (hq : q ∈ t.dirs) (p : Path) : p ∈ t.dirs ↔ p ∈ t.dirs ∨ p = q :=
      ⟨.inl, Or.rec id (· ▸ hq)⟩
    rcases List.eq_nil_or_concat' done with rfl | ⟨d, m, rfl⟩
    · rw [mkdirpLoop_root blocked hn]
      exact hthere t ht (hsame ht.root) (.inl ht.root)
    · rw [List.dropLast_concat] at hdone
      have hd : ∀ k ∈ d ++ [m], IsName k := fun k hk => hnames k (List.mem_append_left _ hk)
      rw [mkdirpLoop_dir blocked ht hd hn]
      split_ifs with h1 h2
      · exact hthere _ ht (hsame h1) (.inl h1)
      · refine hthere _ (ht.concat hdone (hd m (by simp))) (fun p => ?_) (.inr h2.2.2)
        rw [List.mem_append, List.mem_singleton]
      · have hblocked : ¬ (d ++ [m] ∈ t.dirs ∨ blocked (d ++ [m]) = false) := by
          rintro (h | h)
          · exact h1 h
          · exact h2 ⟨hdone, h1, h⟩
        refine ⟨ht, fun p => ⟨.inl, ?_⟩, ?_⟩
        · rintro (h | ⟨⟨hp, -⟩, -, hfree⟩)
          · exact h
          · exact absurd (hfree _ hp) hblocked
        · refine iff_of_true rfl fun hfree => hblocked (hfree _ ?_)
          rw [List.dropLast_append_cons]
          exact List.prefix_append ..

/-- What is free for a path and for the one it is in. -/
theorem free_concat_iff {blocked : Blocked} {dirs : List Path} (p : Path) (n : CStr) :
    Free blocked dirs (p ++ [n]) ↔
      Free blocked dirs p ∧ (p ++ [n] ∈ dirs ∨ blocked (p ++ [n]) = false) := by
  simp only [Free, List.prefix_concat_iff]
  constructor
  · exact fun h => ⟨fun q hq => h q (.inr hq), h _ (.inl rfl)⟩
  · rintro ⟨h1, h2⟩ q (rfl | hq)
    · exact h2
    · exact h1 q hq

/-- What is there when the last step makes nothing. -/
theorem Made.mem_of_not {blocked : Blocked} {dirs : List Path} {path : Path} {r : ℤ × Tree}
    (h : Made blocked dirs [] path r) (hpath : Free blocked dirs path → path ∈ dirs) (q : Path) :
    q ∈ r.2.dirs ↔ q ∈ dirs ∨ (q <+: path ∧ Free blocked dirs q) := by
  rw [h.mem]
  constructor
  · rintro (hq | ⟨⟨-, hq⟩, -, hfree⟩)
    · exact .inl hq
    · exact .inr ⟨hq, hfree⟩
  · rintro (hq | ⟨hq, hfree⟩)
    · exact .inl hq
    · by_cases heq : q = path
      · exact .inl (heq ▸ hpath (heq ▸ hfree))
      · exact .inr ⟨⟨q.nil_prefix, hq⟩, heq, hfree⟩

/-- The last step makes the directory itself. -/
theorem mkdirpThere_spec (blocked : Blocked) {t : Tree} (ht : Closed t.dirs) {p : Path} {n : CStr}
    (hnames : ∀ m ∈ p ++ [n], IsName m) :
    let r := mkdirpThere blocked (pathText (p ++ [n])) t
    Closed r.2.dirs ∧
      (∀ q, q ∈ r.2.dirs ↔ q ∈ t.dirs ∨ (q <+: p ++ [n] ∧ Free blocked t.dirs q)) ∧
      (r.1 = 0 ↔ p ++ [n] ∉ t.dirs ∧ Free blocked t.dirs (p ++ [n])) := by
  have h : Made blocked t.dirs [] (p ++ [n]) (mkdirpLoop blocked [] (pathText (p ++ [n])) t) :=
    mkdirpLoop_spec blocked ht ht.root hnames
  rw [mkdirpThere]
  generalize mkdirpLoop blocked [] (pathText (p ++ [n])) t = r at h
  have hfailed := h.failed
  have hself : p ++ [n] ∈ r.2.dirs ↔ p ++ [n] ∈ t.dirs := by rw [h.mem]; simp
  rw [List.dropLast_concat] at hfailed
  by_cases hr : r.1 = -1
  · have hnot : ¬ Free blocked t.dirs (p ++ [n]) :=
      fun h => hfailed.mp hr ((free_concat_iff p n).mp h).1
    simp only [ne_eq, hr, not_true_eq_false, if_false]
    refine ⟨h.closed, h.mem_of_not fun h => absurd h hnot, ?_⟩
    exact iff_of_false (by decide) fun h => hnot h.2
  · have hfree : Free blocked t.dirs p := not_not.mp (hfailed.not.mp hr)
    have hp : p ∈ r.2.dirs :=
      (h.mem p).mpr (.inr ⟨⟨p.nil_prefix, p.prefix_append _⟩, by simp, hfree⟩)
    simp only [ne_eq, hr, not_false_eq_true, if_true, nmxpDataMkdir, mkdir_pathText h.closed hnames,
      hp, true_and, hself]
    rw [free_concat_iff]
    by_cases hnew : p ++ [n] ∉ t.dirs ∧ blocked (p ++ [n]) = false
    · rw [if_pos hnew]
      refine ⟨h.closed.concat hp (hnames n (by simp)), fun q => ?_, ?_⟩
      · rw [List.mem_append, List.mem_singleton, h.mem]
        constructor
        · rintro ((hq | ⟨⟨-, hq⟩, -, hf⟩) | rfl)
          · exact .inl hq
          · exact .inr ⟨hq, hf⟩
          · exact .inr ⟨List.prefix_rfl, (free_concat_iff p n).mpr ⟨hfree, .inr hnew.2⟩⟩
        · rintro (hq | ⟨hq, hf⟩)
          · exact .inl (.inl hq)
          · by_cases heq : q = p ++ [n]
            · exact .inr heq
            · exact .inl (.inr ⟨⟨q.nil_prefix, hq⟩, heq, hf⟩)
      · exact iff_of_true rfl ⟨hnew.1, hfree, .inr hnew.2⟩
    · rw [if_neg hnew]
      refine ⟨h.closed, h.mem_of_not fun hf => ?_, iff_of_false (neg_ne_zero.mpr one_ne_zero) ?_⟩
      · by_contra hpn
        exact hnew ⟨hpn, ((free_concat_iff p n).mp hf).2.resolve_left hpn⟩
      · exact fun h => hnew ⟨h.1, h.2.2.resolve_left h.1⟩

/-- **What is made for an absolute path.** One is where one was. The path and what leads to it are
made, up to the first that cannot be, and nothing else; and it fails iff there is such a one, or the
path is there already. -/
theorem mkdirp_absolute (blocked : Blocked) {t : Tree} (ht : Closed t.dirs) (hcwd : t.cwd ∈ t.dirs)
    {path : Path} (hpath : path ≠ []) (hnames : ∀ n ∈ path, IsName n) :
    let r := nmxpDataMkdirp blocked (pathText path) t
    r.2.cwd = t.cwd ∧ Closed r.2.dirs ∧
      (∀ p, p ∈ r.2.dirs ↔ p ∈ t.dirs ∨ (p <+: path ∧ Free blocked t.dirs p)) ∧
      (r.1 = 0 ↔ path ∉ t.dirs ∧ Free blocked t.dirs path) := by
  obtain ⟨p, n, rfl⟩ := (List.eq_nil_or_concat' path).resolve_left hpath
  obtain ⟨hclosed, hmem, hret⟩ := mkdirpThere_spec blocked ht hnames
  rw [nmxpDataMkdirp, goBack_getcwd hclosed ((hmem _).mpr (.inl hcwd))]
  exact ⟨rfl, hclosed, hmem, hret⟩

end Nmxptool.Data.Directories
