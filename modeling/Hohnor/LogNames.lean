import Hohnor.LogFile
import Hohnor.Timestamp

/-!
# The names of the log files

The names that getLogFileName of src/file/LogFile.cpp gives out in GMT, as
texts.  The time and the counter have fixed widths in them, so the names are in
the order of the times and, within one second, of the counter.

A directory is listed by name.  As long as the clock does not go back, that is
the order in which the files were created, and `listing_is_log` reads the
records back from a listing.
-/

namespace Hohnor

open FixedWidth TransitionRuns

/-- `strftime(timebuf, sizeof timebuf, ".%Y%m%d-%H%M%S-", &tm)`. -/
def nameTime (tm : Tm) : List Char :=
  '.' :: StringConverter.decimalText (tm.tm_year + 1900) ++
    zeroPadded 2 (tm.tm_mon + 1) ++ zeroPadded 2 tm.tm_mday ++
    '-' :: zeroPadded 2 tm.tm_hour ++ zeroPadded 2 tm.tm_min ++
    zeroPadded 2 tm.tm_sec ++ ['-']

/-- The k-th call of getLogFileName with the standard GMT; `clock` is what
time() answers it and `counter` what it reads from logFileCounter. -/
def gmtNaming
    (basename dir : List Char) (clock : Nat → Int) (counter : Nat → Nat)
    (k : Nat) : Int × List Char :=
  getLogFileName basename dir (fun now => nameTime (gmtime_r now))
    (clock k) (counter k)

/-- The columns of a name, with the counter as the last one. -/
def nameColumns : List (Column Char) :=
  [⟨['.'], 4⟩, ⟨[], 2⟩, ⟨[], 2⟩, ⟨['-'], 2⟩, ⟨[], 2⟩, ⟨[], 2⟩] ++
    [⟨['-'], 8⟩]

theorem to8DigitString_eq_numeral
    {n : Nat} (hn : n < 10 ^ 8) :
    to8DigitString n = numeral Nat.digitChar 10 8 n :=
  leftpad_toDigits (by decide) hn

theorem nameTime_eq_render
    {seconds : Int} (hlow : 0 ≤ seconds) (hhigh : seconds < fourDigitYears)
    {n : Nat} (hn : n < 10 ^ 8) :
    nameTime (gmtime_r seconds) ++ to8DigitString n =
      render Nat.digitChar 10 nameColumns (numbers seconds ++ [n]) := by
  obtain ⟨hyear, -, hmonth, hday, hhour, hmin, hsec⟩ :=
    gmtime_r_padded hlow hhigh
  rw [nameTime, hyear, hmonth, hday, hhour, hmin, hsec,
    to8DigitString_eq_numeral hn]
  simp [render, nameColumns, numbers, dateNumbers, timeNumbers]

theorem nameColumns_fit
    {seconds : Int} (hlow : 0 ≤ seconds) (hhigh : seconds < fourDigitYears)
    {n : Nat} (hn : n < 10 ^ 8) :
    Fits 10 nameColumns (numbers seconds ++ [n]) :=
  ((numbers_fit hlow hhigh).congr rfl).append ⟨hn, trivial⟩

section Naming

variable (basename dir : List Char)
variable {clock : Nat → Int} {counter : Nat → Nat}

/-- A later name has a later time, or the same one and a greater count. -/
theorem gmtNaming_lt_iff
    {j k : Nat}
    (hj : 0 ≤ clock j) (hj' : clock j < fourDigitYears)
    (hk : 0 ≤ clock k) (hk' : clock k < fourDigitYears)
    (hcj : counter j < 10 ^ 8) (hck : counter k < 10 ^ 8) :
    (gmtNaming basename dir clock counter j).2 <
        (gmtNaming basename dir clock counter k).2 ↔
      clock j < clock k ∨ clock j = clock k ∧ counter j < counter k := by
  have hfit := nameColumns_fit hj hj' hcj
  have hfit' := nameColumns_fit hk hk' hck
  have hlt := numbers_lt_iff hj hj' hk hk'
  have heq := eq_iff_of_lt_iff hlt (numbers_lt_iff hk hk' hj hj')
  rw [gmtNaming, gmtNaming, getLogFileName, getLogFileName]
  simp only [List.append_assoc _ (nameTime _) (to8DigitString _)]
  rw [nameTime_eq_render hj hj' hcj, nameTime_eq_render hk hk' hck,
    append_lt_append_right _ (by
      rw [List.length_append, length_render hfit hfit',
        ← List.length_append]),
    append_lt_append_left, render_lt_iff (by decide) digitChar_lt hfit hfit',
    append_lt_append_iff (by rw [length_numbers, length_numbers]), hlt, heq,
    List.cons_lt_cons_iff]
  simp

theorem nameTime_getLast?
    (tm : Tm) :
    (nameTime tm).getLast? = some '-' := by
  rw [nameTime, List.getLast?_concat]

/-- Different counts make the names new. -/
theorem gmtNaming_newNames
    (clock : Nat → Int) (hcounter : StrictMono counter) {disk : Disk}
    (hfresh :
      ∀ f ∈ disk, ∀ k, f.name ≠ (gmtNaming basename dir clock counter k).2) :
    LogFile.NewNames (gmtNaming basename dir clock counter) disk :=
  LogFile.newNames_of_counter basename dir
    (fun now => nameTime_getLast? (gmtime_r now)) clock
    hcounter.injective hfresh

end Naming

namespace LogFile

section Names

variable {naming : Nat → Int × List Char} {disk : Disk}

/-- The new files have the names that were given out, in that order. -/
def NamesInOrder
    (naming : Nat → Int × List Char) (disk : Disk) (s : LogFile) : Prop :=
  s.disk.map DiskFile.name =
    disk.map DiskFile.name ++
      (List.range s.named).map fun k => (naming k).2

theorem map_name_write
    (d : Disk) (filename : List Char) (bytes : Bytes) :
    (d.write filename bytes).map DiskFile.name = d.map DiskFile.name := by
  rw [Disk.write, List.map_map]
  refine List.map_congr_left fun f _ => ?_
  simp only [Function.comp]
  split <;> rfl

/-- Rolling adds the next name. -/
theorem NamesInOrder.rollFile
    {s : LogFile} (hs : NamesInOrder naming disk s)
    (hunnamed : ∀ f ∈ s.disk, f.name ≠ (naming s.named).2) :
    NamesInOrder naming disk (s.rollFile naming) := by
  rw [NamesInOrder] at hs ⊢
  change (s.disk.fopen (naming s.named).2).map DiskFile.name =
    disk.map DiskFile.name ++
      (List.range (s.named + 1)).map fun k => (naming k).2
  rw [Disk.fopen_new hunnamed, List.map_append, hs, List.range_succ,
    List.map_append, List.append_assoc]
  rfl

/-- An append keeps the names or adds the next one. -/
theorem NamesInOrder.append
    {records : List Bytes} {closed : Disk} {groups : List (List Bytes)}
    {current : List Bytes} {s s' : LogFile} {c : AppendCall}
    (hs : NamesInOrder naming disk s)
    (hholds : Holds naming disk records s closed groups current)
    (hnew : NewNames naming disk) (hc : c.WritesAll)
    (happend : LogFile.append naming s c = some s') :
    NamesInOrder naming disk s' := by
  have hunnamed := (hholds.written hnew c.logline).unnamed hnew
  have hwritten : NamesInOrder naming disk (s.written c.logline) := by
    exact (map_name_write s.disk s.file_.fp_ c.logline).trans hs
  obtain ⟨w, hwrite, hafter⟩ := append_cases happend
  rw [appendToFile_eq hc] at hwrite
  cases hwrite
  cases hafter with
  | bySize hsize => exact hwritten.rollFile hunnamed
  | counted hsize hcount => exact hwritten
  | byTime hsize => exact NamesInOrder.rollFile hwritten hunnamed
  | checked hsize lastFlush => exact hwritten

theorem create_namesInOrder
    (checkEveryN flushInterval rollSize rollInterval time time' : Int)
    (hnew : NewNames naming disk) :
    NamesInOrder naming disk
      (create naming checkEveryN flushInterval rollSize rollInterval
        time time' disk) := by
  rw [create]
  refine NamesInOrder.rollFile ?_ fun f hf => hnew.fresh f hf 0
  rw [NamesInOrder]
  simp

/-- The files hold the records, under the names that were given out. -/
structure Listed
    (naming : Nat → Int × List Char) (disk : Disk) (records : List Bytes)
    (s : LogFile) : Prop where
  holds :
    ∃ closed groups current,
      Holds naming disk records s closed groups current
  names : NamesInOrder naming disk s

theorem Listed.append
    {records : List Bytes} {s : LogFile} {c : AppendCall}
    (hs : Listed naming disk records s)
    (hnew : NewNames naming disk) (hc : c.WritesAll) :
    ∃ s', LogFile.append naming s c = some s' ∧
      Listed naming disk (records ++ [c.logline]) s' := by
  obtain ⟨closed, groups, current, hholds⟩ := hs.holds
  obtain ⟨s', happend⟩ := append_returns naming s hc
  obtain ⟨closed', groups', current', hholds', -⟩ :=
    hholds.append hnew hc happend
  exact ⟨s', happend, ⟨closed', groups', current', hholds'⟩,
    hs.names.append hholds hnew hc happend⟩

theorem Listed.run
    {records : List Bytes} {s : LogFile} {calls : List AppendCall}
    (hs : Listed naming disk records s)
    (hnew : NewNames naming disk) (hcalls : ∀ c ∈ calls, c.WritesAll) :
    ∃ t, TransitionRuns.run (LogFile.append naming) s calls = some t ∧
      Listed naming disk (records ++ calls.map AppendCall.logline) t := by
  induction calls generalizing s records with
  | nil =>
      exact ⟨s, rfl, by rwa [List.map_nil, List.append_nil]⟩
  | cons c calls ih =>
      obtain ⟨s₁, happend, hs₁⟩ :=
        hs.append hnew (hcalls c (List.mem_cons_self ..))
      obtain ⟨t, hrun, ht⟩ :=
        ih hs₁ fun c' hc' => hcalls c' (List.mem_cons_of_mem c hc')
      rw [List.append_assoc] at ht
      exact ⟨t, by rw [run_cons, happend, Option.bind_some, hrun], ht⟩

/-- A listing in the order of the names is the list of files itself. -/
theorem listing_eq
    {files listing : Disk}
    (hfiles : files.Pairwise fun f g => f.name < g.name)
    (hlisting : listing.Pairwise fun f g => f.name ≤ g.name)
    (hperm : listing.Perm files) :
    listing = files := by
  have hnodup : (files.map DiskFile.name).Nodup :=
    List.pairwise_map.mpr (hfiles.imp fun hlt => hlt.ne)
  refine hperm.eq_of_pairwise ?_ hlisting (hfiles.imp fun hlt => hlt.le)
  intro f g hf hg hfg hgf
  exact List.inj_on_of_nodup_map hnodup (hperm.subset hf) hg
    (le_antisymm hfg hgf)

/-- The new files are in the order of their names. -/
theorem NamesInOrder.sorted
    {basename dir : List Char} {clock : Nat → Int} {counter : Nat → Nat}
    (hclock : Monotone clock) (hcounter : StrictMono counter)
    {files : Disk} {s : LogFile}
    (hs : NamesInOrder (gmtNaming basename dir clock counter) disk s)
    (hfiles : s.disk = disk ++ files)
    (hrange :
      ∀ k < s.named, 0 ≤ clock k ∧ clock k < fourDigitYears ∧
        counter k < 10 ^ 8) :
    files.Pairwise fun f g => f.name < g.name := by
  rw [NamesInOrder, hfiles, List.map_append] at hs
  have hnames := List.append_cancel_left hs
  have hpairwise :
      (files.map DiskFile.name).Pairwise (· < ·) := by
    rw [hnames, List.pairwise_map]
    refine List.pairwise_lt_range.imp_of_mem ?_
    intro j k hj hk hjk
    obtain ⟨hlow, hhigh, hcount⟩ := hrange j (List.mem_range.mp hj)
    obtain ⟨hlow', hhigh', hcount'⟩ := hrange k (List.mem_range.mp hk)
    rw [gmtNaming_lt_iff basename dir hlow hhigh hlow' hhigh' hcount hcount']
    have htime := hclock hjk.le
    have hless := hcounter hjk
    omega
  exact List.pairwise_map.mp hpairwise

/-- A log in GMT whose clock does not go back, in a run of appends to a
directory without files of these names, fwrite writing what it is given: the new
files, flushed or closed, hold the records one after the other when they are
listed by name. -/
theorem listing_is_log
    (checkEveryN flushInterval rollSize rollInterval time time' : Int)
    (basename dir : List Char) {clock : Nat → Int} {counter : Nat → Nat}
    (hclock : Monotone clock) (hcounter : StrictMono counter)
    {disk : Disk}
    (hfresh :
      ∀ f ∈ disk, ∀ k, f.name ≠ (gmtNaming basename dir clock counter k).2)
    {calls : List AppendCall} (hcalls : ∀ c ∈ calls, c.WritesAll) :
    ∃ t files,
      run (LogFile.append (gmtNaming basename dir clock counter))
        (create (gmtNaming basename dir clock counter) checkEveryN
          flushInterval rollSize rollInterval time time' disk) calls =
        some t ∧
      t.disk = disk ++ files ∧
      ((∀ k < t.named, 0 ≤ clock k ∧ clock k < fourDigitYears ∧
          counter k < 10 ^ 8) →
        ∀ listing : Disk, listing.Perm files →
          (listing.Pairwise fun f g => f.name ≤ g.name) →
          (listing.map DiskFile.contents).flatten =
            (calls.map AppendCall.logline).flatten) := by
  have hnew :=
    gmtNaming_newNames basename dir clock hcounter hfresh
  have hcreate :
      Listed (gmtNaming basename dir clock counter) disk []
        (create (gmtNaming basename dir clock counter) checkEveryN
          flushInterval rollSize rollInterval time time' disk) :=
    { holds := ⟨[], [], [], create_holds checkEveryN flushInterval rollSize
        rollInterval time time' hnew⟩
      names := create_namesInOrder checkEveryN flushInterval rollSize
        rollInterval time time' hnew }
  obtain ⟨t, hrun, ht⟩ := hcreate.run hnew hcalls
  obtain ⟨closed, groups, current, hholds⟩ := ht.holds
  obtain ⟨files, hdisk, hwhole⟩ := hholds.holdsWhole
  refine ⟨t, files, hrun, hdisk, ?_⟩
  intro hrange listing hperm hlisting
  rw [listing_eq (ht.names.sorted hclock hcounter hdisk hrange) hlisting
    hperm]
  exact hwhole.flatten

/-- Two records that fill a file each, with a second between them. -/
theorem listing_is_log_two :
    let clock := fun k : Nat => (1700000000 + k : Int)
    let naming := gmtNaming ['h'] ['.'] clock fun k => k
    let disk : Disk := [{ name := ['a'], contents := [9] }]
    let calls : List AppendCall :=
      [[1, 2], [3, 4]].map fun logline =>
        { logline := logline
          fwrites := [{ n := 2, err := false }]
          now := 5
          flushed := 5 }
    ∃ t files,
      run (LogFile.append naming)
        (create naming 1024 3 1 86400 0 0 disk) calls = some t ∧
      t.disk = disk ++ files ∧
      ((∀ k < t.named, 0 ≤ clock k ∧ clock k < fourDigitYears ∧
          k < 10 ^ 8) →
        ∀ listing : Disk, listing.Perm files →
          (listing.Pairwise fun f g => f.name ≤ g.name) →
          (listing.map DiskFile.contents).flatten = [1, 2, 3, 4]) := by
  intro clock naming disk calls
  have hclock : Monotone clock := by
    intro j k hjk
    simp only [clock]
    omega
  have hcalls : ∀ c ∈ calls, c.WritesAll := by
    have hshort :
        ∀ c ∈ calls, c.fwrites = [{ n := 2, err := false }] ∧
          c.logline.length ≤ 2 := by decide
    intro c hc
    exact ⟨_, [], (hshort c hc).1, (hshort c hc).2⟩
  refine listing_is_log 1024 3 1 86400 0 0 ['h'] ['.']
    hclock strictMono_id ?_ hcalls
  intro f hf k hname
  rw [List.mem_singleton.mp hf] at hname
  have hlength := congrArg List.length hname
  simp [gmtNaming, getLogFileName] at hlength

end Names

end LogFile

end Hohnor
