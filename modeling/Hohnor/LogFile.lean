import Hohnor.SystemCalls
import Hohnor.TransitionRuns
import Mathlib.Tactic

/-!
# The rolling log file

`LogFile` of src/file/LogFile.cpp over `AppendFile` of src/file/FileUtils.cpp.
The files of the directory are listed in the order in which they were created,
each with the bytes handed to its stream, which the kernel has once the file has
been flushed or closed.  The answers of fwrite and the readings of the clock
come with the call that asks for them.

`append_keeps_records` is the main result: the files hold the records one
after the other, each record whole in one file, no file that is being written
outgrows `rollSize_`, and the clock is read once in every `checkEveryN_`
appends that do not roll by size.
-/

namespace Hohnor

open TransitionRuns

/-- A file: its name and the bytes handed to its stream. -/
structure DiskFile where
  name : List Char
  contents : Bytes
deriving DecidableEq, Repr

/-- The files of a directory in order of creation. -/
abbrev Disk := List DiskFile

namespace Disk

/-- `fopen(filename, "ae+")`: a file that exists is continued. -/
def fopen (d : Disk) (filename : List Char) : Disk :=
  if ∃ f ∈ d, f.name = filename then d
  else d ++ [{ name := filename, contents := [] }]

/-- Append bytes to the file of this name. -/
def write (d : Disk) (filename : List Char) (bytes : Bytes) : Disk :=
  d.map fun f =>
    if f.name = filename then
      { f with contents := f.contents ++ bytes }
    else f

theorem fopen_new
    {d : Disk} {filename : List Char}
    (hnew : ∀ f ∈ d, f.name ≠ filename) :
    d.fopen filename =
      d ++ [{ name := filename, contents := [] }] := by
  have hnone : ¬ ∃ f ∈ d, f.name = filename := by
    rintro ⟨f, hf, hname⟩
    exact hnew f hf hname
  rw [fopen, if_neg hnone]

theorem write_other
    {d : Disk} {filename : List Char} {bytes : Bytes}
    (hother : ∀ f ∈ d, f.name ≠ filename) :
    d.write filename bytes = d := by
  induction d with
  | nil =>
      rfl
  | cons f d ih =>
      have htail := ih fun g hg => hother g (List.mem_cons_of_mem f hg)
      have hhead := hother f (List.mem_cons_self ..)
      simp only [write, List.map_cons, if_neg hhead] at htail ⊢
      rw [htail]

/-- Writing to the file opened last. -/
theorem write_last
    {d : Disk} {filename : List Char} {contents bytes : Bytes}
    (hother : ∀ f ∈ d, f.name ≠ filename) :
    write (d ++ [{ name := filename, contents }]) filename bytes =
      d ++ [{ name := filename, contents := contents ++ bytes }] := by
  have hfront : d.write filename bytes = d := write_other hother
  simp only [write, List.map_append, List.map_cons, List.map_nil,
    if_true] at hfront ⊢
  rw [hfront]

@[simp] theorem write_nil
    (d : Disk) (filename : List Char) :
    d.write filename [] = d := by
  induction d with
  | nil =>
      rfl
  | cons f d ih =>
      have hhead :
          (if f.name = filename then
            { f with contents := f.contents ++ [] } else f) = f := by
        simp
      simp only [write, List.map_cons] at ih ⊢
      rw [hhead, ih]

end Disk

/-- What one `fwrite_unlocked` answers: it takes up to `n` bytes, and `err` is
what `ferror` says then. -/
structure FwriteResult where
  n : Nat
  err : Bool
deriving DecidableEq, Repr

/-- An open file; `fp_` stands for the stream by the name it was opened with. -/
structure AppendFile where
  fp_ : List Char
  writtenBytes_ : Nat
deriving DecidableEq, Repr

namespace AppendFile

/-- The loop of append(), with what is left of the line; none as long as it is
waiting for another answer. -/
def appendLoop (fp : List Char) :
    Disk → Bytes → Nat → List FwriteResult → Option (Disk × Nat)
  | d, [], written, _ => some (d, written)
  | _, _ :: _, _, [] => none
  | d, b :: rest, written, r :: rs =>
      let remain := b :: rest
      let n := min r.n remain.length
      let d := d.write fp (remain.take n)
      if n ≠ remain.length ∧ r.err = true then
        some (d, written)
      else
        appendLoop fp d (remain.drop n) (written + n) rs

def append
    (f : AppendFile) (d : Disk) (logline : Bytes)
    (fwrites : List FwriteResult) : Option (AppendFile × Disk) :=
  (appendLoop f.fp_ d logline 0 fwrites).map fun p =>
    ({ f with writtenBytes_ := f.writtenBytes_ + p.2 }, p.1)

/-- One call of fwrite that takes the whole line is enough. -/
theorem append_whole
    (f : AppendFile) (d : Disk) {logline : Bytes}
    {r : FwriteResult} (rs : List FwriteResult)
    (hr : logline.length ≤ r.n) :
    f.append d logline (r :: rs) =
      some
        ({ f with writtenBytes_ := f.writtenBytes_ + logline.length },
          d.write f.fp_ logline) := by
  cases logline with
  | nil =>
      simp [append, appendLoop]
  | cons b rest =>
      have hn : min r.n (b :: rest).length = (b :: rest).length :=
        Nat.min_eq_right hr
      simp only [append, appendLoop, hn, ne_eq, not_true_eq_false,
        false_and, if_false, List.take_length, List.drop_length,
        Nat.zero_add, Option.map_some]

end AppendFile

/-- Eight digits, padded with zeros from the left. -/
def to8DigitString (number : Nat) : List Char :=
  (Nat.toDigits 10 number).leftpad 8 '0'

/-- The time and the name of a new log file; `timebuf` is what strftime makes
of the time, and `logFileCounter` the value read from the counter. -/
def getLogFileName
    (basename dir : List Char) (timebuf : Int → List Char)
    (now : Int) (logFileCounter : Nat) : Int × List Char :=
  let res := if dir.getLast? = some '/' then dir else dir ++ ['/']
  (now,
    res ++ basename ++ timebuf now ++ to8DigitString logFileCounter ++
      ['.', 'l', 'o', 'g'])

theorem to8DigitString_value (number : Nat) :
    Nat.ofDigitChars 10 (to8DigitString number) 0 = number := by
  rw [to8DigitString, List.leftpad, Nat.ofDigitChars_append,
    Nat.ofDigitChars_replicate_zero, Nat.mul_zero,
    Nat.ofDigitChars_ten_toDigits]

theorem to8DigitString_isDigit
    {number : Nat} {c : Char}
    (hc : c ∈ to8DigitString number) :
    c.isDigit = true := by
  rw [to8DigitString, List.leftpad, List.mem_append] at hc
  rcases hc with hzero | hdigit
  · rw [(List.mem_replicate.mp hzero).2]
    rfl
  · exact Nat.isDigit_of_mem_toDigits (by decide) (by decide) hdigit

/-- A text that ends in a dash, followed by digits, determines the digits. -/
theorem digits_after_dash
    {p q : List Char} {m n : Nat}
    (hp : p.getLast? = some '-') (hq : q.getLast? = some '-')
    (h : p ++ to8DigitString m = q ++ to8DigitString n) :
    m = n := by
  have hdash :
      ∀ {r l : List Char} {k : Nat},
        (r ++ l).getLast? = some '-' →
          (∀ c ∈ l, c ∈ to8DigitString k) → l = [] := by
    intro r l k hlast hl
    by_contra hne
    rw [List.getLast?_append_of_ne_nil r hne] at hlast
    have hmem := hl '-' (List.mem_of_getLast? hlast)
    exact absurd (to8DigitString_isDigit hmem) (by decide)
  have hdigits : to8DigitString m = to8DigitString n := by
    rcases List.append_eq_append_iff.mp h with
      ⟨l, rfl, hm⟩ | ⟨l, rfl, hn⟩
    · have hnil := hdash (k := m) hq fun c hc => by
        rw [hm]
        exact List.mem_append_left _ hc
      rw [hm, hnil]
      rfl
    · have hnil := hdash (k := n) hp fun c hc => by
        rw [hn]
        exact List.mem_append_left _ hc
      rw [hn, hnil]
      rfl
  rw [← to8DigitString_value m, hdigits, to8DigitString_value]

/-- As long as the counter moves on, whatever the times, the names are
different. -/
theorem getLogFileName_injective
    (basename dir : List Char) {timebuf : Int → List Char}
    (hdash : ∀ now, (timebuf now).getLast? = some '-')
    {now now' : Int} {m n : Nat}
    (h : (getLogFileName basename dir timebuf now m).2 =
      (getLogFileName basename dir timebuf now' n).2) :
    m = n := by
  have hlast :
      ∀ (p : List Char) (now : Int),
        (p ++ timebuf now).getLast? = some '-' := by
    intro p now
    have hne : timebuf now ≠ [] := by
      intro hnil
      have := hdash now
      simp [hnil] at this
    rw [List.getLast?_append_of_ne_nil p hne]
    exact hdash now
  have hdigits := List.append_cancel_right h
  exact digits_after_dash (hlast _ now) (hlast _ now') hdigits

/-- The fields of a LogFile that its methods use, with the directory, the
number of names handed out to it and the readings of the clock that append()
itself has taken. -/
structure LogFile where
  checkEveryN_ : Int
  flushInterval_ : Int
  rollSize_ : Int
  rollInterval_ : Int
  count_ : Int
  lastRoll_ : Int
  lastFlush_ : Int
  file_ : AppendFile
  disk : Disk
  named : Nat
  checked : List Int
deriving DecidableEq, Repr

/-- A call of append(): the line, the answers of fwrite, the time of the check
and the time that a flush after it reads. -/
structure AppendCall where
  logline : Bytes
  fwrites : List FwriteResult
  now : Int
  flushed : Int
deriving DecidableEq, Repr

/-- Each fwrite of the call takes what it is given. -/
def AppendCall.WritesAll (c : AppendCall) : Prop :=
  ∃ r rs, c.fwrites = r :: rs ∧ c.logline.length ≤ r.n

namespace LogFile

section LogFile

variable (naming : Nat → Int × List Char)

/-- `rollFile`; `naming k` is the time and the name that the k-th call of
getLogFileName returns. -/
def rollFile (s : LogFile) : LogFile :=
  let pair := naming s.named
  { s with
    lastRoll_ := pair.1
    lastFlush_ := pair.1
    file_ := { fp_ := pair.2, writtenBytes_ := 0 }
    disk := s.disk.fopen pair.2
    named := s.named + 1 }

/-- `time` is what flush() reads; fflush moves no byte to another file. -/
def flush (s : LogFile) (time : Int) : LogFile :=
  { s with lastFlush_ := time }

/-- The constructor; `time` and `time'` are its two readings of the clock. -/
def create
    (checkEveryN flushInterval rollSize rollInterval : Int)
    (time time' : Int) (disk : Disk) : LogFile :=
  rollFile naming
    { checkEveryN_ := checkEveryN
      flushInterval_ := flushInterval
      rollSize_ := rollSize
      rollInterval_ := rollInterval
      count_ := 0
      lastRoll_ := time
      lastFlush_ := time'
      file_ := { fp_ := [], writtenBytes_ := 0 }
      disk
      named := 0
      checked := [] }

/-- `file_->append(logline, len)`. -/
def appendToFile (s : LogFile) (c : AppendCall) : Option LogFile :=
  (s.file_.append s.disk c.logline c.fwrites).map fun p =>
    { s with file_ := p.1, disk := p.2 }

/-- `file_->writtenBytes() > rollSize_`. -/
def exceedsRollSize (s : LogFile) : Prop :=
  s.rollSize_ < s.file_.writtenBytes_

instance (s : LogFile) : Decidable s.exceedsRollSize :=
  inferInstanceAs (Decidable (_ < _))

/-- What follows when `count_` has been reset. -/
def checkTime (s : LogFile) (c : AppendCall) : LogFile :=
  let s := { s with checked := s.checked ++ [c.now] }
  if c.now - s.lastRoll_ > s.rollInterval_ then
    rollFile naming s
  else if c.now - s.lastFlush_ > s.flushInterval_ then
    s.flush c.flushed
  else s

/-- The branch of append() for a file that has not outgrown its size. -/
def countAppend (s : LogFile) (c : AppendCall) : LogFile :=
  let s := { s with count_ := s.count_ + 1 }
  if s.count_ ≥ s.checkEveryN_ then
    checkTime naming { s with count_ := 0 } c
  else s

def append (s : LogFile) (c : AppendCall) : Option LogFile :=
  (s.appendToFile c).map fun s =>
    if s.exceedsRollSize then rollFile naming s
    else countAppend naming s c

/-- The call closes the file because of its size. -/
def RollsBySize (s : LogFile) (c : AppendCall) : Prop :=
  ∃ s', s.appendToFile c = some s' ∧ s'.exceedsRollSize

/-- The ways in which append() goes on when the line has been written. -/
inductive AfterWrite (s : LogFile) (c : AppendCall) : LogFile → Prop
  | bySize
      (hsize : s.exceedsRollSize) :
      AfterWrite s c (rollFile naming s)
  | counted
      (hsize : ¬ s.exceedsRollSize)
      (hcount : s.count_ + 1 < s.checkEveryN_) :
      AfterWrite s c { s with count_ := s.count_ + 1 }
  | byTime
      (hsize : ¬ s.exceedsRollSize) :
      AfterWrite s c
        (rollFile naming
          { s with count_ := 0, checked := s.checked ++ [c.now] })
  | checked
      (hsize : ¬ s.exceedsRollSize)
      (lastFlush : Int) :
      AfterWrite s c
        { s with
          count_ := 0
          checked := s.checked ++ [c.now]
          lastFlush_ := lastFlush }

variable {naming}

theorem append_cases
    {s s' : LogFile} {c : AppendCall}
    (happend : append naming s c = some s') :
    ∃ w, s.appendToFile c = some w ∧ AfterWrite naming w c s' := by
  obtain ⟨w, hw, rfl⟩ := Option.map_eq_some_iff.mp happend
  refine ⟨w, hw, ?_⟩
  by_cases hsize : w.exceedsRollSize
  · rw [if_pos hsize]
    exact .bySize hsize
  · rw [if_neg hsize]
    by_cases hcount : w.count_ + 1 < w.checkEveryN_
    · rw [countAppend, if_neg (by simpa using hcount)]
      exact .counted hsize hcount
    · rw [countAppend, if_pos (by simpa using hcount), checkTime]
      split
      · exact .byTime hsize
      · split
        · exact .checked hsize c.flushed
        · exact .checked hsize w.lastFlush_

/-- The state in which the whole line has been written. -/
def written (s : LogFile) (logline : Bytes) : LogFile :=
  { s with
    file_ :=
      { s.file_ with
        writtenBytes_ := s.file_.writtenBytes_ + logline.length }
    disk := s.disk.write s.file_.fp_ logline }

theorem appendToFile_eq
    {c : AppendCall} (hc : c.WritesAll) (s : LogFile) :
    s.appendToFile c = some (s.written c.logline) := by
  obtain ⟨r, rs, hfwrites, hr⟩ := hc
  rw [appendToFile, hfwrites, AppendFile.append_whole _ _ _ hr]
  rfl

/-- The names that are given out are new: different from each other and from
the files that the directory `disk` holds at first. -/
structure NewNames
    (naming : Nat → Int × List Char) (disk : Disk) : Prop where
  injective : Function.Injective fun k => (naming k).2
  fresh : ∀ f ∈ disk, ∀ k, f.name ≠ (naming k).2

/-- The names of getLogFileName are new as long as no two calls read the same
count and the directory holds none of them. -/
theorem newNames_of_counter
    (basename dir : List Char) {timebuf : Int → List Char}
    (hdash : ∀ now, (timebuf now).getLast? = some '-')
    (now : Nat → Int) {logFileCounter : Nat → Nat}
    (hcounter : Function.Injective logFileCounter)
    {disk : Disk}
    (hfresh :
      ∀ f ∈ disk, ∀ k,
        f.name ≠
          (getLogFileName basename dir timebuf (now k)
            (logFileCounter k)).2) :
    NewNames
      (fun k =>
        getLogFileName basename dir timebuf (now k) (logFileCounter k))
      disk :=
  ⟨fun _ _ h => hcounter (getLogFileName_injective basename dir hdash h),
    hfresh⟩

/-- The files created after those of `disk` hold the records one after the
other: `groups` are the records of the closed files and `current` those of the
file that is open. -/
structure Holds
    (naming : Nat → Int × List Char) (disk : Disk)
    (records : List Bytes) (s : LogFile)
    (closed : Disk) (groups : List (List Bytes))
    (current : List Bytes) : Prop where
  files :
    s.disk = disk ++ closed ++
      [{ name := s.file_.fp_, contents := current.flatten }]
  contents : closed.map DiskFile.contents = groups.map List.flatten
  records : groups.flatten ++ current = records
  size : s.file_.writtenBytes_ = current.flatten.length
  names : ∀ f ∈ closed, ∃ k, k + 1 < s.named ∧ f.name = (naming k).2
  name : ∃ k, k + 1 = s.named ∧ s.file_.fp_ = (naming k).2

variable {disk closed : Disk}
variable {records : List Bytes}
variable {groups : List (List Bytes)}
variable {current : List Bytes}
variable {s s' : LogFile}

/-- The open file has another name than the files before it. -/
theorem Holds.other
    (hs : Holds naming disk records s closed groups current)
    (hnew : NewNames naming disk) :
    ∀ f ∈ disk ++ closed, f.name ≠ s.file_.fp_ := by
  obtain ⟨k, hk, hname⟩ := hs.name
  intro f hf
  rw [hname]
  rcases List.mem_append.mp hf with hdisk | hclosed
  · exact hnew.fresh f hdisk k
  · obtain ⟨j, hj, hfname⟩ := hs.names f hclosed
    rw [hfname]
    intro heq
    have hjk : j = k := hnew.injective heq
    omega

/-- Every file of the directory has an old name or one already given out. -/
theorem Holds.unnamed
    (hs : Holds naming disk records s closed groups current)
    (hnew : NewNames naming disk) :
    ∀ f ∈ s.disk, f.name ≠ (naming s.named).2 := by
  obtain ⟨k, hk, hname⟩ := hs.name
  intro f hf
  rw [hs.files, List.append_assoc, List.mem_append,
    List.mem_append, List.mem_singleton] at hf
  rcases hf with hdisk | hclosed | rfl
  · exact hnew.fresh f hdisk s.named
  · obtain ⟨j, hj, hfname⟩ := hs.names f hclosed
    rw [hfname]
    intro heq
    have hjs : j = s.named := hnew.injective heq
    omega
  · rw [hname]
    intro heq
    have hks : k = s.named := hnew.injective heq
    omega

theorem Holds.written
    (hs : Holds naming disk records s closed groups current)
    (hnew : NewNames naming disk) (logline : Bytes) :
    Holds naming disk (records ++ [logline]) (s.written logline)
      closed groups (current ++ [logline]) := by
  have hflatten :
      (current ++ [logline]).flatten = current.flatten ++ logline := by
    simp
  constructor
  · rw [hflatten]
    change s.disk.write s.file_.fp_ logline = _
    rw [hs.files, Disk.write_last (hs.other hnew)]
    rfl
  · exact hs.contents
  · rw [← hs.records, List.append_assoc]
  · rw [hflatten, List.length_append, ← hs.size]
    rfl
  · exact hs.names
  · exact hs.name

/-- Rolling closes the open file as it is and opens an empty one. -/
theorem Holds.rollFile
    (hs : Holds naming disk records s closed groups current)
    (hnew : NewNames naming disk) :
    Holds naming disk records (rollFile naming s)
      (closed ++
        [{ name := s.file_.fp_, contents := current.flatten }])
      (groups ++ [current]) [] := by
  obtain ⟨k, hk, hname⟩ := hs.name
  constructor
  · change s.disk.fopen (naming s.named).2 = _
    rw [Disk.fopen_new (hs.unnamed hnew), hs.files,
      List.append_assoc disk]
    rfl
  · simp [hs.contents]
  · rw [← hs.records]
    simp
  · rfl
  · intro f hf
    change ∃ k, k + 1 < s.named + 1 ∧ f.name = (naming k).2
    rcases List.mem_append.mp hf with hclosed | hlast
    · obtain ⟨j, hj, hfname⟩ := hs.names f hclosed
      exact ⟨j, by omega, hfname⟩
    · rw [List.mem_singleton.mp hlast]
      exact ⟨k, by omega, hname⟩
  · exact ⟨s.named, rfl, rfl⟩

/-- A change of the counters and of the times leaves the files. -/
theorem Holds.frame
    (hs : Holds naming disk records s closed groups current)
    (count lastFlush : Int) (checked : List Int) :
    Holds naming disk records
      { s with
        count_ := count, checked := checked, lastFlush_ := lastFlush }
      closed groups current :=
  ⟨hs.files, hs.contents, hs.records, hs.size, hs.names, hs.name⟩

/-- One append puts the line at the end of the open file, and closes that file
if it has to. -/
theorem Holds.append
    (hs : Holds naming disk records s closed groups current)
    (hnew : NewNames naming disk)
    {c : AppendCall} (hc : c.WritesAll)
    (happend : append naming s c = some s') :
    ∃ closed' groups' current',
      Holds naming disk (records ++ [c.logline]) s'
        closed' groups' current' ∧
      closed <+: closed' ∧
      (s.RollsBySize c →
        closed' =
          closed ++
            [{ name := s.file_.fp_,
               contents := (current ++ [c.logline]).flatten }]) := by
  have hw := hs.written hnew c.logline
  obtain ⟨w, hwrite, hafter⟩ := append_cases happend
  rw [appendToFile_eq hc] at hwrite
  cases hwrite
  have hstays :
      ¬ (s.written c.logline).exceedsRollSize → ¬ s.RollsBySize c := by
    rintro hsize ⟨w, hwrite, hexceeds⟩
    rw [appendToFile_eq hc] at hwrite
    cases hwrite
    exact hsize hexceeds
  cases hafter with
  | bySize hsize =>
      exact ⟨_, _, _, hw.rollFile hnew, List.prefix_append _ _,
        fun _ => rfl⟩
  | counted hsize hcount =>
      exact ⟨_, _, _, hw.frame _ _ _, List.prefix_refl _,
        fun h => absurd h (hstays hsize)⟩
  | byTime hsize =>
      have hframed := hw.frame 0 s.lastFlush_ (s.checked ++ [c.now])
      exact ⟨_, _, _, hframed.rollFile hnew, List.prefix_append _ _,
        fun _ => rfl⟩
  | checked hsize lastFlush =>
      exact ⟨_, _, _, hw.frame _ _ _, List.prefix_refl _,
        fun h => absurd h (hstays hsize)⟩

/-- The bounds between two calls. -/
structure Bounded
    (rollSize checkEveryN : Int) (s : LogFile) : Prop where
  rolls : s.rollSize_ = rollSize
  checks : s.checkEveryN_ = checkEveryN
  size : s.file_.writtenBytes_ ≤ rollSize
  count_nonneg : 0 ≤ s.count_
  count_lt : s.count_ < checkEveryN

variable {rollSize checkEveryN : Int}

theorem Bounded.append
    (hs : Bounded rollSize checkEveryN s)
    (hroll : 0 ≤ rollSize) (hN : 1 ≤ checkEveryN)
    {c : AppendCall} (hc : c.WritesAll)
    (happend : LogFile.append naming s c = some s') :
    Bounded rollSize checkEveryN s' := by
  obtain ⟨w, hwrite, hafter⟩ := append_cases happend
  rw [appendToFile_eq hc] at hwrite
  cases hwrite
  have hle :
      ∀ {w : LogFile}, ¬ w.exceedsRollSize →
        w.file_.writtenBytes_ ≤ w.rollSize_ :=
    fun h => Int.not_lt.mp h
  have hcount := hs.count_nonneg
  have hlt := hs.count_lt
  have hM := hs.checks
  cases hafter with
  | bySize hsize =>
      exact ⟨hs.rolls, hs.checks, hroll, hcount, hlt⟩
  | counted hsize hnext =>
      have hsmall := hle hsize
      refine ⟨hs.rolls, hs.checks, ?_, ?_, ?_⟩
      · exact hs.rolls ▸ hsmall
      · change 0 ≤ s.count_ + 1
        omega
      · change s.count_ + 1 < checkEveryN
        exact hM ▸ hnext
  | byTime hsize =>
      exact ⟨hs.rolls, hs.checks, hroll, Int.le_refl 0,
        Int.lt_of_lt_of_le Int.zero_lt_one hN⟩
  | checked hsize lastFlush =>
      have hsmall := hle hsize
      exact ⟨hs.rolls, hs.checks, hs.rolls ▸ hsmall,
        Int.le_refl 0, Int.lt_of_lt_of_le Int.zero_lt_one hN⟩

/-- The clock is read, or the counter goes up by one. -/
theorem append_counts
    {c : AppendCall} (hc : c.WritesAll)
    (hstay : ¬ s.RollsBySize c)
    (happend : LogFile.append naming s c = some s') :
    s.checked.length < s'.checked.length ∨
      s'.checked = s.checked ∧ s'.count_ = s.count_ + 1 := by
  obtain ⟨w, hwrite, hafter⟩ := append_cases happend
  have hw := hwrite
  rw [appendToFile_eq hc] at hw
  cases hw
  have hread :
      s.checked.length < (s.checked ++ [c.now]).length := by
    simp
  cases hafter with
  | bySize hsize =>
      exact absurd ⟨_, hwrite, hsize⟩ hstay
  | counted hsize hnext =>
      exact Or.inr ⟨rfl, rfl⟩
  | byTime hsize =>
      exact Or.inl hread
  | checked hsize lastFlush =>
      exact Or.inl hread

/-- No call forgets a reading of the clock. -/
theorem append_checked_le
    {c : AppendCall} (hc : c.WritesAll)
    (happend : LogFile.append naming s c = some s') :
    s.checked.length ≤ s'.checked.length := by
  obtain ⟨w, hwrite, hafter⟩ := append_cases happend
  rw [appendToFile_eq hc] at hwrite
  cases hwrite
  have hread :
      s.checked.length ≤ (s.checked ++ [c.now]).length := by
    simp
  cases hafter with
  | bySize hsize =>
      exact Nat.le_refl _
  | counted hsize hnext =>
      exact Nat.le_refl _
  | byTime hsize =>
      exact hread
  | checked hsize lastFlush =>
      exact hread

theorem run_checked_le
    {calls : List AppendCall}
    (hcalls : ∀ c ∈ calls, c.WritesAll)
    (hrun : run (LogFile.append naming) s calls = some s') :
    s.checked.length ≤ s'.checked.length :=
  invariant_of_run
    (I := fun t => s.checked.length ≤ t.checked.length)
    (fun _ _ _ hle hc happend =>
      Nat.le_trans hle (append_checked_le hc happend))
    (Nat.le_refl _) hcalls hrun

/-- Over calls that do not roll by size the clock is read, or the counter
counts them all. -/
theorem run_counts
    {calls : List AppendCall}
    (hcalls : ∀ c ∈ calls, c.WritesAll)
    (hstay :
      Along (LogFile.append naming)
        (fun s c => ¬ s.RollsBySize c) s calls)
    (hrun : run (LogFile.append naming) s calls = some s') :
    s.checked.length < s'.checked.length ∨
      s'.count_ = s.count_ + calls.length := by
  induction calls generalizing s with
  | nil =>
      rw [run_nil] at hrun
      cases hrun
      exact Or.inr (by simp)
  | cons c calls ih =>
      obtain ⟨s₁, hfirst, hrest⟩ := run_cons_success hrun
      have hc := hcalls c (List.mem_cons_self ..)
      have htail : ∀ c ∈ calls, c.WritesAll :=
        fun c' hc' => hcalls c' (List.mem_cons_of_mem c hc')
      have hle := run_checked_le htail hrest
      rcases append_counts hc hstay.1 hfirst with hread | ⟨hsame, hcount⟩
      · exact Or.inl (Nat.lt_of_lt_of_le hread hle)
      · rcases ih htail (hstay.2 s₁ hfirst) hrest with hread | hcounts
        · exact Or.inl (hsame ▸ hread)
        · right
          rw [hcounts, hcount, List.length_cons]
          push_cast
          omega

/-- The file that is being written holds at most `rollSize` bytes. -/
def CurrentWithin (rollSize : Int) (s : LogFile) : Prop :=
  ∃ f, s.disk.getLast? = some f ∧ f.name = s.file_.fp_ ∧
    f.contents.length ≤ rollSize

/-- What holds between two calls. -/
structure LogInv
    (naming : Nat → Int × List Char) (disk : Disk)
    (rollSize checkEveryN : Int)
    (before : List AppendCall) (s : LogFile) : Prop where
  holds :
    ∃ closed groups current,
      Holds naming disk (before.map AppendCall.logline) s
        closed groups current
  bounded : Bounded rollSize checkEveryN s

theorem LogInv.currentWithin
    {before : List AppendCall}
    (hs : LogInv naming disk rollSize checkEveryN before s) :
    CurrentWithin rollSize s := by
  obtain ⟨closed, groups, current, hholds⟩ := hs.holds
  refine ⟨{ name := s.file_.fp_, contents := current.flatten },
    ?_, rfl, ?_⟩
  · rw [hholds.files, List.getLast?_append_of_ne_nil _ (by simp)]
    rfl
  · have hsize := hs.bounded.size
    rw [hholds.size] at hsize
    exact hsize

/-- The constructor opens an empty file. -/
theorem create_holds
    (checkEveryN flushInterval rollSize rollInterval time time' : Int)
    (hnew : NewNames naming disk) :
    Holds naming disk []
      (create naming checkEveryN flushInterval rollSize rollInterval
        time time' disk) [] [] [] := by
  refine ⟨?_, rfl, rfl, rfl, ?_, 0, rfl, rfl⟩
  · have hfopen := Disk.fopen_new fun f hf => hnew.fresh f hf 0
    rw [List.append_nil]
    exact hfopen
  · intro f hf
    cases hf

theorem LogInv.create
    (flushInterval time time' : Int)
    (hroll : 0 ≤ rollSize) (hN : 1 ≤ checkEveryN)
    (hnew : NewNames naming disk) :
    LogInv naming disk rollSize checkEveryN []
      (create naming checkEveryN flushInterval rollSize rollInterval
        time time' disk) where
  holds := ⟨[], [], [], create_holds checkEveryN flushInterval rollSize
    rollInterval time time' hnew⟩
  bounded := ⟨rfl, rfl, hroll, Int.le_refl 0,
    Int.lt_of_lt_of_le Int.zero_lt_one hN⟩

/-- A call whose line is written returns. -/
theorem append_returns
    (naming : Nat → Int × List Char) (s : LogFile)
    {c : AppendCall} (hc : c.WritesAll) :
    ∃ s', LogFile.append naming s c = some s' := by
  rw [LogFile.append, appendToFile_eq hc]
  exact ⟨_, rfl⟩

theorem LogInv.append
    {before : List AppendCall}
    (hroll : 0 ≤ rollSize) (hN : 1 ≤ checkEveryN)
    (hnew : NewNames naming disk)
    (hs : LogInv naming disk rollSize checkEveryN before s)
    {c : AppendCall} (hc : c.WritesAll) :
    ∃ s', LogFile.append naming s c = some s' ∧
      LogInv naming disk rollSize checkEveryN (before ++ [c]) s' := by
  obtain ⟨closed, groups, current, hholds⟩ := hs.holds
  obtain ⟨s', hs'⟩ := append_returns naming s hc
  obtain ⟨closed', groups', current', hnext, _⟩ :=
    hholds.append hnew hc hs'
  refine ⟨s', hs', ?_, hs.bounded.append hroll hN hc hs'⟩
  refine ⟨closed', groups', current', ?_⟩
  rw [List.map_append]
  exact hnext

/-- The files hold the records one after the other, each record whole in one
of them. -/
def HoldsWhole (files : Disk) (records : List Bytes) : Prop :=
  ∃ groups : List (List Bytes),
    files.map DiskFile.contents = groups.map List.flatten ∧
      groups.flatten = records

theorem Holds.holdsWhole
    (hholds : Holds naming disk records s closed groups current) :
    ∃ files, s.disk = disk ++ files ∧ HoldsWhole files records := by
  refine
    ⟨closed ++
        [{ name := s.file_.fp_, contents := current.flatten }],
      ?_, groups ++ [current], ?_, ?_⟩
  · rw [hholds.files, List.append_assoc]
  · simp [hholds.contents]
  · rw [List.flatten_append, ← hholds.records]
    simp

theorem LogInv.holdsWhole
    {before : List AppendCall}
    (hs : LogInv naming disk rollSize checkEveryN before s) :
    ∃ files, s.disk = disk ++ files ∧
      HoldsWhole files (before.map AppendCall.logline) := by
  obtain ⟨closed, groups, current, hholds⟩ := hs.holds
  exact hholds.holdsWhole

theorem HoldsWhole.flatten
    {files : Disk}
    (h : HoldsWhole files records) :
    (files.map DiskFile.contents).flatten = records.flatten := by
  obtain ⟨groups, hfiles, hrecords⟩ := h
  rw [hfiles, ← hrecords, List.flatten_flatten]

/-- The file that `s` was writing, in the directory that `t` leaves: its last
record is that of `c`, with which it outgrew `rollSize`. -/
def ClosedForSize
    (rollSize : Int) (s : LogFile) (c : AppendCall) (t : LogFile) :
    Prop :=
  ∃ f, t.disk[s.disk.length - 1]? = some f ∧
    f.name = s.file_.fp_ ∧
    c.logline <:+ f.contents ∧
    rollSize < f.contents.length ∧
    f.contents.length ≤ rollSize + c.logline.length

/-- A closed file stays as it is. -/
theorem closed_kept
    (hnew : NewNames naming disk)
    (hs : Holds naming disk records s closed groups current)
    {calls : List AppendCall}
    (hcalls : ∀ c ∈ calls, c.WritesAll)
    (hrun : run (LogFile.append naming) s calls = some s') :
    ∃ rest, s'.disk = disk ++ closed ++ rest := by
  have hkept :
      ∃ records closed' groups current,
        Holds naming disk records s' closed' groups current ∧
          closed <+: closed' := by
    refine invariant_of_run
      (I := fun t => ∃ records closed' groups current,
        Holds naming disk records t closed' groups current ∧
          closed <+: closed')
      ?_ ⟨_, _, _, _, hs, List.prefix_refl _⟩ hcalls hrun
    rintro t c t' ⟨_, _, _, _, ht, hprefix⟩ hc happend
    obtain ⟨_, _, _, ht', hnext, _⟩ := ht.append hnew hc happend
    exact ⟨_, _, _, _, ht', hprefix.trans hnext⟩
  obtain ⟨_, closed', _, current', hholds, rest, hrest⟩ := hkept
  refine
    ⟨rest ++
      [{ name := s'.file_.fp_, contents := current'.flatten }], ?_⟩
  rw [hholds.files, ← hrest]
  simp

theorem closedForSize
    {before : List AppendCall} {t : LogFile}
    (hnew : NewNames naming disk)
    (hs : LogInv naming disk rollSize checkEveryN before s)
    {c : AppendCall} (hc : c.WritesAll)
    (hrolls : s.RollsBySize c)
    (happend : LogFile.append naming s c = some s')
    {after : List AppendCall}
    (hafter : ∀ c ∈ after, c.WritesAll)
    (hrun : run (LogFile.append naming) s' after = some t) :
    ClosedForSize rollSize s c t := by
  obtain ⟨closed, groups, current, hholds⟩ := hs.holds
  obtain ⟨closed', groups', current', hnext, _, hclosed⟩ :=
    hholds.append hnew hc happend
  obtain ⟨rest, hdisk⟩ := closed_kept hnew hnext hafter hrun
  have hlength :
      s.disk.length - 1 = (disk ++ closed).length := by
    rw [hholds.files]
    simp
  have hflatten :
      (current ++ [c.logline]).flatten = current.flatten ++ c.logline := by
    simp
  have hexceeds :
      rollSize < (s.file_.writtenBytes_ + c.logline.length : Nat) := by
    obtain ⟨w, hwrite, hexceeds⟩ := hrolls
    rw [appendToFile_eq hc] at hwrite
    cases hwrite
    exact hs.bounded.rolls ▸ hexceeds
  have hsize := hs.bounded.size
  rw [hholds.size] at hexceeds hsize
  refine ⟨{ name := s.file_.fp_,
            contents := (current ++ [c.logline]).flatten },
    ?_, rfl, ?_, ?_, ?_⟩
  · rw [hdisk, hclosed hrolls, hlength]
    simp
  · exact hflatten ▸ List.suffix_append _ _
  · simp only [hflatten, List.length_append]
    exact hexceeds
  · simp only [hflatten, List.length_append]
    push_cast
    omega

/-- What a run of append() from `s₀` to `t` makes of its records. -/
structure KeepsRecords
    (naming : Nat → Int × List Char) (disk : Disk)
    (rollSize checkEveryN : Int) (s₀ : LogFile)
    (calls : List AppendCall) (t : LogFile) : Prop where
  files :
    ∃ files, t.disk = disk ++ files ∧
      HoldsWhole files (calls.map AppendCall.logline) ∧
      (files.map DiskFile.contents).flatten =
        (calls.map AppendCall.logline).flatten
  within :
    EveryStep (LogFile.append naming)
      (fun _ _ s' => CurrentWithin rollSize s') s₀ calls
  closed :
    ∀ before c after s, calls = before ++ c :: after →
      run (LogFile.append naming) s₀ before = some s →
      s.RollsBySize c → ClosedForSize rollSize s c t
  checked :
    ∀ before mid after s s', calls = before ++ mid ++ after →
      run (LogFile.append naming) s₀ before = some s →
      run (LogFile.append naming) s mid = some s' →
      Along (LogFile.append naming)
        (fun s c => ¬ s.RollsBySize c) s mid →
      checkEveryN ≤ mid.length →
      s.checked.length < s'.checked.length

/-- A run keeps the invariant and completes. -/
theorem LogInv.run
    {before calls : List AppendCall}
    (hroll : 0 ≤ rollSize) (hN : 1 ≤ checkEveryN)
    (hnew : NewNames naming disk)
    (hs : LogInv naming disk rollSize checkEveryN before s)
    (hcalls : ∀ c ∈ calls, c.WritesAll) :
    ∃ t, TransitionRuns.run (LogFile.append naming) s calls = some t ∧
      LogInv naming disk rollSize checkEveryN (before ++ calls) t :=
  run_of_along (LogInv naming disk rollSize checkEveryN)
    (fun _ _ _ hs hc _ => hs.append hroll hN hnew hc)
    hs hcalls (along_true _ s calls)

/-- The invariant in the state that a run has reached. -/
theorem LogInv.reached
    {before calls : List AppendCall} {t : LogFile}
    (hroll : 0 ≤ rollSize) (hN : 1 ≤ checkEveryN)
    (hnew : NewNames naming disk)
    (hs : LogInv naming disk rollSize checkEveryN before s)
    (hcalls : ∀ c ∈ calls, c.WritesAll)
    (hrun : TransitionRuns.run (LogFile.append naming) s calls = some t) :
    LogInv naming disk rollSize checkEveryN (before ++ calls) t := by
  obtain ⟨t', ht', hinv⟩ := hs.run hroll hN hnew hcalls
  rw [hrun] at ht'
  cases ht'
  exact hinv

theorem LogInv.within
    {before calls : List AppendCall}
    (hroll : 0 ≤ rollSize) (hN : 1 ≤ checkEveryN)
    (hnew : NewNames naming disk)
    (hs : LogInv naming disk rollSize checkEveryN before s)
    (hcalls : ∀ c ∈ calls, c.WritesAll) :
    EveryStep (LogFile.append naming)
      (fun _ _ s' => CurrentWithin rollSize s') s calls := by
  refine everyStep_of_invariant
    (I := fun s => ∃ before,
      LogInv naming disk rollSize checkEveryN before s)
    ?_ ⟨before, hs⟩ hcalls
  rintro s c s' ⟨before, hs⟩ hc happend
  obtain ⟨t, ht, hinv⟩ := hs.append hroll hN hnew hc
  rw [happend] at ht
  cases ht
  exact ⟨⟨before ++ [c], hinv⟩, hinv.currentWithin⟩

theorem LogInv.keepsRecords
    {calls : List AppendCall} {t : LogFile}
    (hroll : 0 ≤ rollSize) (hN : 1 ≤ checkEveryN)
    (hnew : NewNames naming disk)
    (hs : LogInv naming disk rollSize checkEveryN [] s)
    (hcalls : ∀ c ∈ calls, c.WritesAll)
    (hrun : TransitionRuns.run (LogFile.append naming) s calls = some t) :
    KeepsRecords naming disk rollSize checkEveryN s calls t := by
  have hlast := hs.reached hroll hN hnew hcalls hrun
  constructor
  · obtain ⟨files, hdisk, hwhole⟩ := hlast.holdsWhole
    exact ⟨files, hdisk, hwhole, hwhole.flatten⟩
  · exact hs.within hroll hN hnew hcalls
  · rintro before c after s' rfl hbefore hrolls
    have hc := hcalls c (by simp)
    have hinv := hs.reached hroll hN hnew
      (fun c' hc' => hcalls c' (List.mem_append_left _ hc')) hbefore
    rw [run_append, hbefore, Option.bind_some] at hrun
    obtain ⟨s'', happend, hafter⟩ := run_cons_success hrun
    exact closedForSize hnew hinv hc hrolls happend
      (fun c' hc' => hcalls c'
        (List.mem_append_right _ (List.mem_cons_of_mem c hc'))) hafter
  · rintro before mid after u v rfl hbefore hmid hstay hlong
    have hmidCalls : ∀ c ∈ mid, c.WritesAll :=
      fun c hc => hcalls c
        (List.mem_append_left _ (List.mem_append_right _ hc))
    have hu := hs.reached hroll hN hnew
      (fun c hc => hcalls c
        (List.mem_append_left _ (List.mem_append_left _ hc))) hbefore
    have hv := hu.reached hroll hN hnew hmidCalls hmid
    rcases run_counts hmidCalls hstay hmid with hread | hcounts
    · exact hread
    · -- the counter cannot have passed `checkEveryN`
      have hlow := hu.bounded.count_nonneg
      have hhigh := hv.bounded.count_lt
      omega

/-- Log file rolling keeps every record whole. -/
theorem append_keeps_records
    {checkEveryN rollSize : Int}
    (flushInterval rollInterval time time' : Int)
    (hN : 1 ≤ checkEveryN) (hroll : 0 ≤ rollSize)
    {naming : Nat → Int × List Char} {disk : Disk}
    (hnew : NewNames naming disk)
    {calls : List AppendCall}
    (hcalls : ∀ c ∈ calls, c.WritesAll) :
    ∃ t,
      run (LogFile.append naming)
        (create naming checkEveryN flushInterval rollSize rollInterval
          time time' disk) calls = some t ∧
      KeepsRecords naming disk rollSize checkEveryN
        (create naming checkEveryN flushInterval rollSize rollInterval
          time time' disk) calls t := by
  have hcreate :
      LogInv naming disk rollSize checkEveryN []
        (create naming checkEveryN flushInterval rollSize rollInterval
          time time' disk) :=
    LogInv.create flushInterval time time' hroll hN hnew
  obtain ⟨t, hrun, _⟩ := hcreate.run hroll hN hnew hcalls
  exact ⟨t, hrun, hcreate.keepsRecords hroll hN hnew hcalls hrun⟩

/-- Three records with a file size of two bytes: the second one fills the first
file of the run beyond its size. -/
theorem append_keeps_records_three :
    let naming := fun k : Nat =>
      getLogFileName ['h'] ['.'] (fun _ => ['.', '7', '-']) k k
    let disk : Disk := [{ name := ['a'], contents := [9] }]
    let calls : List AppendCall :=
      [[1], [2, 3], [4]].map fun logline =>
        { logline := logline
          fwrites := [{ n := 2, err := false }]
          now := 5
          flushed := 5 }
    ∃ t,
      run (LogFile.append naming)
        (create naming 1024 3 2 86400 0 0 disk) calls = some t ∧
      KeepsRecords naming disk 2 1024
        (create naming 1024 3 2 86400 0 0 disk) calls t := by
  intro naming disk calls
  have hnew : NewNames naming disk := by
    refine newNames_of_counter ['h'] ['.'] (fun _ => rfl) _
      (fun _ _ h => h) ?_
    intro f hf k hname
    rw [List.mem_singleton.mp hf] at hname
    have hlength := congrArg List.length hname
    simp [getLogFileName] at hlength
  have hcalls : ∀ c ∈ calls, c.WritesAll := by
    have hshort :
        ∀ c ∈ calls, c.fwrites = [{ n := 2, err := false }] ∧
          c.logline.length ≤ 2 := by decide
    intro c hc
    exact ⟨_, [], (hshort c hc).1, (hshort c hc).2⟩
  exact append_keeps_records 3 86400 0 0 (by decide) (by decide)
    hnew hcalls

end LogFile

end LogFile

end Hohnor
