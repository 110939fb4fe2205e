import Hohnor.LogFile
import Hohnor.LogStream

/-!
# Writing a file and reading it back

`ReadSmallFile` and `readFile` of src/file/FileUtils.cpp and its header, for
any answers of the kernel: a read may take fewer bytes than it is asked for, or
fail.

readToString reads on until it has `maxSize` bytes or a read comes back with
none, so short reads do not show.  `append_then_read` puts it behind
AppendFile, whose loop does the same for short writes.

stdio keeps up to 64 KiB of what AppendFile has written in `buffer_`, and open()
for reading finds only what it has passed on to the kernel.  `BufferedFile` has
both; the files of `Disk` as the log file sees them are its `handed`.
-/

namespace Hohnor

open TransitionRuns

/-- What a read answers: up to `n + 1` bytes, which is none only at the end of
the file, or an error number. -/
inductive ReadAnswer where
  | takes (n : Nat)
  | fails (e : Errno)
deriving DecidableEq, Repr

namespace ReadSmallFile

/-- What a loop that has come to its end has read: a first part of the file, of
at most `maxSize` bytes, and all of it that fits unless a read has failed. -/
structure Reads
    (maxSize : Nat) (content rest : Bytes) (answers : List ReadAnswer)
    (err : Option Errno) (out : Bytes) : Prop where
  part : ∃ data left, rest = data ++ left ∧ out = content ++ data ∧
    (err = none → out.length = maxSize ∨ left = [])
  short : out.length ≤ maxSize
  failed : ∀ e, err = some e → ReadAnswer.fails e ∈ answers

/-- One read before the others. -/
theorem Reads.more
    {maxSize : Nat} {content rest buf : Bytes} {answers : List ReadAnswer}
    {err : Option Errno} {out : Bytes}
    (h : Reads maxSize (content ++ buf) (rest.drop buf.length) answers err out)
    (answer : ReadAnswer) (hbuf : buf <+: rest) :
    Reads maxSize content rest (answer :: answers) err out := by
  obtain ⟨⟨data, left, hrest, hout, hall⟩, hshort, hfailed⟩ := h
  refine ⟨⟨buf ++ data, left, ?_, ?_, hall⟩, hshort, fun e he =>
    List.mem_cons_of_mem _ (hfailed e he)⟩
  · rw [List.append_assoc, ← hrest]
    exact List.prefix_append_drop hbuf
  · rw [hout, List.append_assoc]

end ReadSmallFile

namespace Disk

/-- What open() for reading finds under a name. -/
def lookup (d : Disk) (filename : List Char) : Option Bytes :=
  (d.find? fun f => f.name = filename).map DiskFile.contents

theorem lookup_cons
    (f : DiskFile) (d : Disk) (filename : List Char) :
    lookup (f :: d) filename =
      if f.name = filename then some f.contents else d.lookup filename := by
  rw [lookup, List.find?_cons]
  by_cases hname : f.name = filename
  · simp [hname]
  · simp [hname, lookup]

theorem lookup_write
    {d : Disk} {filename : List Char} {contents : Bytes}
    (h : d.lookup filename = some contents) (bytes : Bytes) :
    (d.write filename bytes).lookup filename = some (contents ++ bytes) := by
  induction d with
  | nil => cases h
  | cons f d ih =>
      rw [lookup_cons] at h
      rw [write, List.map_cons, lookup_cons]
      by_cases hname : f.name = filename
      · rw [if_pos hname] at h ⊢
        rw [if_pos hname]
        cases h
        rfl
      · rw [if_neg hname] at h ⊢
        rw [if_neg hname]
        exact ih h

end Disk

namespace AppendFile

/-- `sizeof buffer_`. -/
def bufferSize : Nat :=
  64 * 1024

/-- Short writes do not show either: a loop that comes to its end without an
error has written the whole line. -/
theorem appendLoop_whole
    {fp : List Char} {d d' : Disk} {line contents : Bytes}
    {written written' : Nat} {fwrites : List FwriteResult}
    (hok : ∀ r ∈ fwrites, r.err = false)
    (hfile : d.lookup fp = some contents)
    (h : appendLoop fp d line written fwrites = some (d', written')) :
    d'.lookup fp = some (contents ++ line) ∧
      written' = written + line.length := by
  induction fwrites generalizing d line contents written with
  | nil =>
      cases line with
      | nil =>
          cases h
          exact ⟨by rw [hfile, List.append_nil], rfl⟩
      | cons b line => cases h
  | cons r fwrites ih =>
      cases line with
      | nil =>
          cases h
          exact ⟨by rw [hfile, List.append_nil], rfl⟩
      | cons b line =>
          rw [appendLoop] at h
          rw [if_neg (by
            rintro ⟨-, herr⟩
            rw [hok r (List.mem_cons_self ..)] at herr
            cases herr)] at h
          obtain ⟨hfile', hwritten⟩ :=
            ih (fun r' hr' => hok r' (List.mem_cons_of_mem r hr'))
              (Disk.lookup_write hfile _) h
          constructor
          · rw [hfile', List.append_assoc, List.take_append_drop]
          · rw [hwritten, List.length_drop]
            omega

theorem append_eq
    {f f' : AppendFile} {d d' : Disk} {line contents : Bytes}
    {fwrites : List FwriteResult} (hok : ∀ r ∈ fwrites, r.err = false)
    (hfile : d.lookup f.fp_ = some contents)
    (h : f.append d line fwrites = some (f', d')) :
    f'.fp_ = f.fp_ ∧ f'.writtenBytes_ = f.writtenBytes_ + line.length ∧
      d'.lookup f.fp_ = some (contents ++ line) := by
  obtain ⟨⟨e, written⟩, hloop, heq⟩ := Option.map_eq_some_iff.mp h
  obtain ⟨hfile', hwritten⟩ := appendLoop_whole hok hfile hloop
  cases heq
  exact ⟨rfl, by rw [hwritten, Nat.zero_add], hfile'⟩

end AppendFile

/-- The answer of `fwrite_unlocked`, and how many bytes of its buffer stdio
passes on to the kernel in the call, if it can choose. -/
structure StdioWrite extends FwriteResult where
  passed : Nat
deriving DecidableEq, Repr

/-- What fflush and fclose do: they pass on the whole buffer, or fail after some
bytes of it. -/
inductive FlushAnswer where
  | whole
  | fails (n : Nat)
deriving DecidableEq, Repr

/-- A call of append(), with what its calls of fwrite do, or of flush(). -/
inductive AppendFileOp where
  | append (logline : Bytes) (fwrites : List StdioWrite)
  | flush (answer : FlushAnswer)
deriving DecidableEq, Repr

/-- No error of stdio. -/
def AppendFileOp.Succeeds : AppendFileOp → Prop
  | .append _ fwrites => ∀ r ∈ fwrites, r.err = false
  | .flush answer => answer = .whole

instance : DecidablePred AppendFileOp.Succeeds
  | .append _ fwrites =>
      inferInstanceAs (Decidable (∀ r ∈ fwrites, r.err = false))
  | .flush answer => inferInstanceAs (Decidable (answer = .whole))

/-- What the calls of append() are given. -/
def appended (ops : List AppendFileOp) : Bytes :=
  ops.flatMap fun op =>
    match op with
    | .append logline _ => logline
    | .flush _ => []

/-- An AppendFile with the buffer of its stream, and the files as the kernel has
them. -/
structure BufferedFile where
  file : AppendFile
  buffer_ : Bytes
  disk : Disk
deriving DecidableEq, Repr

namespace BufferedFile

/-- The constructor, with the directory in which the file is opened. -/
def create (d : Disk) (filename : List Char) : BufferedFile where
  file := { fp_ := filename, writtenBytes_ := 0 }
  buffer_ := []
  disk := d.fopen filename

/-- stdio passes on the first `n` bytes of its buffer. -/
def pass (s : BufferedFile) (n : Nat) : BufferedFile :=
  { s with
    buffer_ := s.buffer_.drop n
    disk := s.disk.write s.file.fp_ (s.buffer_.take n) }

/-- stdio takes the bytes; what does not fit into the buffer is passed on. -/
def fwrite (s : BufferedFile) (bytes : Bytes) (passed : Nat) : BufferedFile :=
  { s with buffer_ := s.buffer_ ++ bytes }.pass
    (max passed ((s.buffer_ ++ bytes).length - AppendFile.bufferSize))

/-- The loop of append(), as in `AppendFile.appendLoop`. -/
def appendLoop :
    BufferedFile → Bytes → Nat → List StdioWrite →
      Option (BufferedFile × Nat)
  | s, [], written, _ => some (s, written)
  | _, _ :: _, _, [] => none
  | s, b :: rest, written, r :: rs =>
      let remain := b :: rest
      let n := min r.n remain.length
      let s := s.fwrite (remain.take n) r.passed
      if n ≠ remain.length ∧ r.err = true then
        some (s, written)
      else
        appendLoop s (remain.drop n) (written + n) rs

def append
    (s : BufferedFile) (logline : Bytes) (fwrites : List StdioWrite) :
    Option BufferedFile :=
  (s.appendLoop logline 0 fwrites).map fun p =>
    { p.1 with
      file := { p.1.file with writtenBytes_ := p.1.file.writtenBytes_ + p.2 } }

/-- `flush`, and what the destructor does to the files. -/
def flush (s : BufferedFile) : FlushAnswer → BufferedFile
  | .whole => s.pass s.buffer_.length
  | .fails n => s.pass n

def step (s : BufferedFile) : AppendFileOp → Option BufferedFile
  | .append logline fwrites => s.append logline fwrites
  | .flush answer => some (s.flush answer)

/-- The files with all that was handed to the stream. -/
def handed (s : BufferedFile) : Disk :=
  s.disk.write s.file.fp_ s.buffer_

theorem write_write
    (d : Disk) (filename : List Char) (bytes bytes' : Bytes) :
    (d.write filename bytes).write filename bytes' =
      d.write filename (bytes ++ bytes') := by
  rw [Disk.write, Disk.write, Disk.write, List.map_map]
  refine List.map_congr_left fun f _ => ?_
  simp only [Function.comp]
  by_cases hname : f.name = filename
  · simp only [hname, if_true, List.append_assoc]
  · simp only [hname, if_false]

@[simp] theorem pass_handed
    (s : BufferedFile) (n : Nat) :
    (s.pass n).handed = s.handed := by
  simp only [handed, pass]
  rw [write_write, List.take_append_drop]

@[simp] theorem pass_file
    (s : BufferedFile) (n : Nat) :
    (s.pass n).file = s.file := by
  rfl

theorem fwrite_handed
    (s : BufferedFile) (bytes : Bytes) (passed : Nat) :
    (s.fwrite bytes passed).handed =
      s.handed.write s.file.fp_ bytes := by
  rw [fwrite, pass_handed, handed, handed, write_write]

@[simp] theorem fwrite_file
    (s : BufferedFile) (bytes : Bytes) (passed : Nat) :
    (s.fwrite bytes passed).file = s.file := by
  rfl

/-- The buffer is never too long for stdio. -/
theorem fwrite_room
    (s : BufferedFile) (bytes : Bytes) (passed : Nat) :
    (s.fwrite bytes passed).buffer_.length ≤ AppendFile.bufferSize := by
  simp only [fwrite, pass, List.length_drop]
  omega

/-- The loop with the buffer is the loop without it on what was handed over. -/
theorem appendLoop_handed
    {s s' : BufferedFile} {line : Bytes} {written written' : Nat}
    {fwrites : List StdioWrite}
    (h : s.appendLoop line written fwrites = some (s', written')) :
    AppendFile.appendLoop s.file.fp_ s.handed line written
        (fwrites.map StdioWrite.toFwriteResult) =
      some (s'.handed, written') ∧
    s'.file = s.file ∧
    (s.buffer_.length ≤ AppendFile.bufferSize →
      s'.buffer_.length ≤ AppendFile.bufferSize) := by
  induction fwrites generalizing s line written with
  | nil =>
      cases line with
      | nil =>
          cases h
          exact ⟨rfl, rfl, id⟩
      | cons b line => cases h
  | cons r fwrites ih =>
      cases line with
      | nil =>
          cases h
          exact ⟨rfl, rfl, id⟩
      | cons b line =>
          rw [appendLoop] at h
          rw [List.map_cons, AppendFile.appendLoop,
            ← fwrite_handed s _ r.passed]
          split at h
          next herr =>
            rw [if_pos herr]
            cases h
            exact ⟨rfl, rfl, fun _ => fwrite_room ..⟩
          next hgoes =>
            rw [if_neg hgoes]
            obtain ⟨hloop, hfile, hroom⟩ := ih h
            exact ⟨hloop, hfile, fun _ => hroom (fwrite_room ..)⟩

/-- append() is AppendFile's on what was handed over. -/
theorem append_handed
    {s s' : BufferedFile} {line : Bytes} {fwrites : List StdioWrite}
    (h : s.append line fwrites = some s') :
    s.file.append s.handed line (fwrites.map StdioWrite.toFwriteResult) =
        some (s'.file, s'.handed) ∧
      (s.buffer_.length ≤ AppendFile.bufferSize →
        s'.buffer_.length ≤ AppendFile.bufferSize) := by
  obtain ⟨⟨t, written⟩, hloop, rfl⟩ := Option.map_eq_some_iff.mp h
  obtain ⟨hhanded, hfile, hroom⟩ := appendLoop_handed hloop
  refine ⟨?_, hroom⟩
  rw [AppendFile.append, hhanded, Option.map_some]
  simp only [handed, hfile]

/-- What was handed to the stream of `filename`, and the room in its buffer. -/
structure Keeps
    (filename : List Char) (bytes : Bytes) (written : Nat)
    (s : BufferedFile) : Prop where
  name : s.file.fp_ = filename
  contents : s.handed.lookup filename = some bytes
  size : s.file.writtenBytes_ = written
  room : s.buffer_.length ≤ AppendFile.bufferSize

theorem step_keeps
    {filename : List Char} {bytes : Bytes} {written : Nat}
    {s s' : BufferedFile} {op : AppendFileOp}
    (hs : Keeps filename bytes written s) (hop : op.Succeeds)
    (hstep : s.step op = some s') :
    Keeps filename (bytes ++ appended [op])
      (written + (appended [op]).length) s' := by
  cases op with
  | append logline fwrites =>
      obtain ⟨happend, hroom⟩ := append_handed hstep
      have hok :
          ∀ r ∈ fwrites.map StdioWrite.toFwriteResult, r.err = false := by
        intro r hr
        obtain ⟨w, hw, rfl⟩ := List.mem_map.mp hr
        exact hop w hw
      have hcontents := hs.contents
      rw [← hs.name] at hcontents
      obtain ⟨hname, hsize, hcontents'⟩ :=
        AppendFile.append_eq hok hcontents happend
      have hline : appended [.append logline fwrites] = logline := by
        simp [appended]
      rw [hline]
      exact
        { name := hname.trans hs.name
          contents := by rw [← hs.name, hcontents']
          size := by rw [hsize, hs.size]
          room := hroom hs.room }
  | flush answer =>
      cases hop
      cases hstep
      have hnone : appended [.flush .whole] = [] := rfl
      rw [hnone, List.append_nil]
      exact
        { name := hs.name
          contents := by
            rw [flush, pass_handed]
            exact hs.contents
          size := hs.size
          room := by
            simp only [flush, pass, List.drop_length]
            exact Nat.zero_le _ }

theorem run_keeps
    {filename : List Char} {bytes : Bytes} {written : Nat}
    {s s' : BufferedFile} {ops : List AppendFileOp}
    (hs : Keeps filename bytes written s) (hops : ∀ op ∈ ops, op.Succeeds)
    (hrun : run step s ops = some s') :
    Keeps filename (bytes ++ appended ops)
      (written + (appended ops).length) s' := by
  induction ops generalizing s bytes written with
  | nil =>
      cases hrun
      simpa [appended] using hs
  | cons op ops ih =>
      obtain ⟨s₁, hstep, hrest⟩ := run_cons_success hrun
      have hs₁ := step_keeps hs (hops op (List.mem_cons_self ..)) hstep
      have hs' :=
        ih hs₁ (fun op' hop' => hops op' (List.mem_cons_of_mem _ hop')) hrest
      have hcons : appended (op :: ops) = appended [op] ++ appended ops := by
        simp [appended]
      rw [hcons, ← List.append_assoc, List.length_append, ← Nat.add_assoc]
      exact hs'

end BufferedFile

end Hohnor
