import Hohnor.LogStream

/-!
# Log records

`Logger` of include/hohnor/log/Logging.h and src/log/Logging.cpp: the
constructors write what a record begins with into the stream of the logger, the
user inserts values, and the destructor writes where the record comes from and a
newline, and hands the buffer over.

What does not fit is dropped piece by piece, the end of the record as well.
`record_is_line_iff` says when the end is whole.
-/

namespace Hohnor

inductive LogLevel where
  | TRACE
  | DEBUG
  | INFO
  | WARN
  | ERROR
  | FATAL
deriving DecidableEq, Repr

def LogLevelName : LogLevel → List Char
  | .TRACE => ['T', 'R', 'A', 'C', 'E', ' ']
  | .DEBUG => ['D', 'E', 'B', 'U', 'G', ' ']
  | .INFO => ['I', 'N', 'F', 'O', ' ', ' ']
  | .WARN => ['W', 'A', 'R', 'N', ' ', ' ']
  | .ERROR => ['E', 'R', 'R', 'O', 'R', ' ']
  | .FATAL => ['F', 'A', 'T', 'A', 'L', ' ']

/-- level >= WARN -/
def LogLevel.atLeastWarn : LogLevel → Bool
  | .WARN | .ERROR | .FATAL => true
  | _ => false

/-- `strrchr`: the rest of the string from the last place of the char on. -/
def strrchr (c : Char) : List Char → Option (List Char)
  | [] => none
  | x :: xs =>
      match strrchr c xs with
      | some rest => some rest
      | none => if x = c then some (x :: xs) else none

/-- The overload for a pointer. -/
def sourceFileName (filename : List Char) : CharPiece :=
  match strrchr '/' filename with
  | some slash => CharPiece.set slash.tail
  | none => CharPiece.empty

/-- What stands behind the last slash. -/
def baseName (filename : List Char) : List Char :=
  (filename.reverse.takeWhile fun c => c != '/').reverse

/-- What the C library and the thread supply: the texts of the date and of the
microseconds, the name of the thread, and the texts of the errors. -/
structure LogEnv where
  t_time : List Char
  us : List Char
  name : List Char
  strerror_tl : Int32 → List Char

structure Logger where
  stream_ : LogStream
  line_ : Int32
  fileBaseName_ : CharPiece
  level_ : LogLevel

/-- Which of the constructors is called, with what is not the place. -/
inductive LoggerCall where
  | plain
  | withFunc (level : LogLevel) (func : List Char)
  | withLevel (level : LogLevel)
  | withErrno (toAbort : Bool) (errno : Int32)

namespace Logger

def formatTime (env : LogEnv) : List Inserted :=
  [.cstr (some env.t_time), .cstr (some env.us)]

/-- What `init` inserts. -/
def header (env : LogEnv) (level : LogLevel) (savedErrno : Int32) :
    List Inserted :=
  formatTime env ++
    [.string env.name, .char ' '] ++
    (if level.atLeastWarn then
      [.char '!', .cstr (some (LogLevelName level))]
    else [.cstr (some (LogLevelName level))]) ++
    (if savedErrno ≠ 0 then
      [.string (env.strerror_tl savedErrno),
        .cstr (some [' ', '(', 'e', 'r', 'r', 'n', 'o', '=']),
        .int savedErrno, .cstr (some [')', ' '])]
    else [])

def init
    (env : LogEnv) (level : LogLevel) (savedErrno : Int32)
    (file : List Char) (line : Int32) : Option Logger :=
  (LogStream.create.insertAll (header env level savedErrno)).map fun s =>
    { stream_ := s
      line_ := line
      fileBaseName_ := sourceFileName file
      level_ := level }

def insertAll (l : Logger) (vs : List Inserted) : Option Logger :=
  (l.stream_.insertAll vs).map fun s => { l with stream_ := s }

/-- The constructors. -/
def construct
    (env : LogEnv) (file : List Char) (line : Int32) :
    LoggerCall → Option Logger
  | .plain => init env .INFO 0 file line
  | .withFunc level func =>
      (init env level 0 file line).bind fun l =>
        l.insertAll
          [.cstr (some ['I', 'n', ' ']), .cstr (some func),
            .cstr (some ['(', ')', ':', ' '])]
  | .withLevel level => init env level 0 file line
  | .withErrno toAbort errno =>
      init env (if toAbort then .FATAL else .ERROR) errno file line

/-- What the destructor inserts. -/
def ending (l : Logger) : List Inserted :=
  [.cstr (some [' ', '-', ' ']), .piece l.fileBaseName_, .char ':',
    .int l.line_, .char (Char.ofNat 10)]

/-- The destructor: the buffer that goes to addLog, and whether a flush and
abort() follow. -/
def destroy (l : Logger) :
    Option (FixedBuffer kSmallBuffer × Bool) :=
  (l.stream_.insertAll l.ending).map fun s =>
    (s.buffer_, decide (l.level_ = .FATAL))

def text (l : Logger) : List Char :=
  l.stream_.text

end Logger

/-- The end of a record from this place. -/
def recordEnd (file : List Char) (line : Int32) : List Char :=
  [' ', '-', ' '] ++ baseName file ++ [':'] ++
    StringConverter.decimalText line.toInt ++ [Char.ofNat 10]

theorem strrchr_eq_none
    {c : Char} {cs : List Char} (hc : c ∉ cs) : strrchr c cs = none := by
  induction cs with
  | nil =>
      rfl
  | cons x xs ih =>
      rw [List.mem_cons, not_or] at hc
      rw [strrchr, ih hc.2]
      exact if_neg (Ne.symm hc.1)

theorem strrchr_append
    (c : Char) (before : List Char) {after : List Char}
    (hafter : c ∉ after) :
    strrchr c (before ++ c :: after) = some (c :: after) := by
  induction before with
  | nil =>
      rw [List.nil_append, strrchr, strrchr_eq_none hafter]
      exact if_pos rfl
  | cons x before ih =>
      rw [List.cons_append, strrchr, ih]

/-- A path with a slash, split at its last one. -/
theorem exists_baseName
    {file : List Char} (hslash : '/' ∈ file) :
    ∃ before, file = before ++ '/' :: baseName file ∧
      '/' ∉ baseName file := by
  obtain ⟨after, before, hfile, hafter⟩ :=
    List.eq_append_cons_of_mem (List.mem_reverse.mpr hslash)
  have hall : ∀ c ∈ after, (c != '/') = true := by
    intro c hc
    rw [bne_iff_ne]
    rintro rfl
    exact hafter hc
  have htake :
      file.reverse.takeWhile (fun c => c != '/') = after := by
    rw [hfile, List.takeWhile_append_of_pos hall]
    simp
  refine ⟨before.reverse, ?_, ?_⟩
  · rw [baseName, htake, ← List.reverse_reverse file, hfile]
    simp
  · rw [baseName, htake, List.mem_reverse]
    exact hafter

theorem sourceFileName_eq
    {file : List Char} (hslash : '/' ∈ file) :
    sourceFileName file = CharPiece.set (baseName file) := by
  obtain ⟨before, hfile, hbase⟩ := exists_baseName hslash
  have hfound := strrchr_append '/' before hbase
  rw [← hfile] at hfound
  rw [sourceFileName, hfound]
  rfl

namespace Logger

def Valid (l : Logger) : Prop :=
  l.stream_.buffer_.Valid

theorem insertAll_eq
    {l : Logger} (hl : l.Valid) (vs : List Inserted) :
    ∃ l', l.insertAll vs = some l' ∧ l'.Valid ∧
      l'.text = inserted l.text vs ∧
      l'.fileBaseName_ = l.fileBaseName_ ∧ l'.line_ = l.line_ := by
  obtain ⟨s, hinsert, hs, htext⟩ := LogStream.insertAll_eq hl vs
  refine ⟨{ l with stream_ := s }, ?_, hs, htext, rfl, rfl⟩
  rw [insertAll, hinsert, Option.map_some]

theorem init_eq
    (env : LogEnv) (level : LogLevel) (savedErrno : Int32)
    (file : List Char) (line : Int32) :
    ∃ l, init env level savedErrno file line = some l ∧ l.Valid ∧
      l.text = inserted [] (header env level savedErrno) ∧
      l.fileBaseName_ = sourceFileName file ∧ l.line_ = line := by
  obtain ⟨s, hinsert, hs, htext⟩ :=
    LogStream.insertAll_eq LogStream.create_valid
      (header env level savedErrno)
  refine
    ⟨{ stream_ := s
       line_ := line
       fileBaseName_ := sourceFileName file
       level_ := level }, ?_, hs, htext, rfl, rfl⟩
  rw [init, hinsert, Option.map_some]

/-- What a constructor writes, for each of them. -/
def opening (env : LogEnv) : LoggerCall → List Inserted
  | .plain => header env .INFO 0
  | .withFunc level func =>
      header env level 0 ++
        [.cstr (some ['I', 'n', ' ']), .cstr (some func),
          .cstr (some ['(', ')', ':', ' '])]
  | .withLevel level => header env level 0
  | .withErrno toAbort errno =>
      header env (if toAbort then .FATAL else .ERROR) errno

theorem construct_eq
    (env : LogEnv) (file : List Char) (line : Int32)
    (call : LoggerCall) :
    ∃ l, construct env file line call = some l ∧ l.Valid ∧
      l.text = inserted [] (opening env call) ∧
      l.fileBaseName_ = sourceFileName file ∧ l.line_ = line := by
  cases call with
  | plain =>
      exact init_eq env .INFO 0 file line
  | withFunc level func =>
      obtain ⟨l, hinit, hl, htext, hfile, hline⟩ :=
        init_eq env level 0 file line
      obtain ⟨l', hinsert, hl', htext', hfile', hline'⟩ :=
        insertAll_eq hl
          [.cstr (some ['I', 'n', ' ']), .cstr (some func),
            .cstr (some ['(', ')', ':', ' '])]
      refine ⟨l', ?_, hl', ?_, hfile'.trans hfile, hline'.trans hline⟩
      · rw [construct, hinit, Option.bind_some, hinsert]
      · rw [htext', htext, opening, inserted_append]
  | withLevel level =>
      exact init_eq env level 0 file line
  | withErrno toAbort errno =>
      exact init_eq env (if toAbort then .FATAL else .ERROR) errno file line

theorem destroy_eq
    {l : Logger} (hl : l.Valid) :
    ∃ record fatal, l.destroy = some (record, fatal) ∧ record.Valid ∧
      record.toString = inserted l.text l.ending := by
  obtain ⟨s, hinsert, hs, htext⟩ := LogStream.insertAll_eq hl l.ending
  refine ⟨s.buffer_, decide (l.level_ = .FATAL), ?_, hs, htext⟩
  rw [destroy, hinsert, Option.map_some]

theorem length_decimalText_line
    (line : Int32) :
    (StringConverter.decimalText line.toInt).length ≤ 21 := by
  have hhigh := line.toInt_lt
  have hlow := line.le_toInt
  exact StringConverter.length_decimalText_le (by omega)

/-- A base name that is not longer than an int can say. -/
theorem set_short
    {cs : List Char} (h : cs.length < 2 ^ 31) :
    (CharPiece.set cs).text = cs ∧
      sizeCast (CharPiece.set cs).length_.toInt = cs.length := by
  have hlength : (CharPiece.set cs).length_.toInt = cs.length :=
    Int32.toInt_ofNat_of_lt h
  constructor
  · rw [CharPiece.text, hlength]
    exact List.take_length
  · rw [hlength]
    unfold sizeCast
    omega

/-- The line number asks for the most room. -/
theorem ending_allFit_iff
    {l : Logger} {base : List Char} (hbase : base.length < 2 ^ 31)
    (hfile : l.fileBaseName_ = CharPiece.set base) (n : Nat) :
    AllFit n l.ending ↔ n + base.length + 52 ≤ kSmallBuffer := by
  have hline := length_decimalText_line l.line_
  have hdigits : StringConverter.decimalText l.line_.toInt ≠ [] := by
    rw [StringConverter.decimalText]
    exact List.append_ne_nil_of_right_ne_nil _ Nat.toDigits_ne_nil
  obtain ⟨htext, hsize⟩ := set_short hbase
  simp only [ending, hfile, AllFit, Inserted.fits_iff, Inserted.needs,
    Inserted.text, htext, hsize, Option.map_some, Option.getD_some,
    List.length_cons, List.length_nil, kMaxNumericSize, reduceCtorEq,
    hdigits, or_false, and_true, ← List.length_eq_zero_iff]
  unfold kSmallBuffer
  omega

theorem allText_ending
    {l : Logger} {file : List Char} {line : Int32}
    (hbase : (baseName file).length < 2 ^ 31)
    (hfile : l.fileBaseName_ = CharPiece.set (baseName file))
    (hline : l.line_ = line) :
    allText l.ending = recordEnd file line := by
  obtain ⟨htext, _⟩ := set_short hbase
  simp [allText, ending, hfile, hline, Inserted.text, htext, recordEnd]

/-- For every place in a file with a slash in its path, every constructor and
every sequence of values: what the destructor hands over is what the stream held
before, the end of the record and a newline, exactly when these leave the room
that a line number asks for. -/
theorem record_is_line_iff
    (env : LogEnv) (file : List Char) (line : Int32) (call : LoggerCall)
    (vs : List Inserted) (hslash : '/' ∈ file) :
    ∃ l record fatal,
      (construct env file line call).bind (·.insertAll vs) = some l ∧
      l.destroy = some (record, fatal) ∧
      (record.toString = l.text ++ recordEnd file line ↔
        l.text.length + (baseName file).length + 52 ≤ kSmallBuffer) := by
  obtain ⟨l₀, hconstruct, hl₀, -, hfile₀, hline₀⟩ :=
    construct_eq env file line call
  obtain ⟨l, hinsert, hl, -, hfile, hline⟩ := insertAll_eq hl₀ vs
  obtain ⟨record, fatal, hdestroy, hrecord, htext⟩ := destroy_eq hl
  have hbaseName : l.fileBaseName_ = CharPiece.set (baseName file) := by
    rw [hfile, hfile₀, sourceFileName_eq hslash]
  refine ⟨l, record, fatal, ?_, hdestroy, ?_⟩
  · rw [hconstruct, Option.bind_some, hinsert]
  · have hroom := hrecord.room
    have hlength := hrecord.length
    constructor
    · intro hwhole
      have hshort : (baseName file).length < 2 ^ 31 := by
        rw [hwhole] at hlength
        simp only [recordEnd, List.length_append, List.length_cons,
          List.length_nil] at hlength
        unfold kSmallBuffer at hroom
        omega
      rw [← allText_ending hshort hbaseName (hline.trans hline₀), htext,
        inserted_eq_iff, ending_allFit_iff hshort hbaseName] at hwhole
      exact hwhole
    · intro hfits
      have hshort : (baseName file).length < 2 ^ 31 := by
        unfold kSmallBuffer at hfits
        omega
      rw [← allText_ending hshort hbaseName (hline.trans hline₀), htext,
        inserted_eq_iff, ending_allFit_iff hshort hbaseName]
      exact hfits

end Logger

/-- A record of the main thread at the beginning of 2024. -/
def mainThreadEnv : LogEnv where
  t_time :=
    ['2', '0', '2', '4', '-', '0', '1', '-', '0', '1', ' ',
      '0', '0', ':', '0', '0', ':', '0', '0']
  us := ['.', '0', '0', '0', '0', '0', '0', 'Z', ' ']
  name := ['m', 'a', 'i', 'n']
  strerror_tl := fun _ => []

theorem record_is_line_iff_warning :
    ∃ l record fatal,
      (Logger.construct mainThreadEnv ['/', 'a', '.', 'c'] 7
          (.withLevel .WARN)).bind
        (·.insertAll [.int (-5), .piece (CharPiece.set ['o', 'k'])]) =
        some l ∧
      l.destroy = some (record, fatal) ∧
      (record.toString = l.text ++ recordEnd ['/', 'a', '.', 'c'] 7 ↔
        l.text.length + (baseName ['/', 'a', '.', 'c']).length + 52 ≤
          kSmallBuffer) :=
  Logger.record_is_line_iff mainThreadEnv ['/', 'a', '.', 'c'] 7
    (.withLevel .WARN) [.int (-5), .piece (CharPiece.set ['o', 'k'])]
    (by decide)

/-- A string that leaves room for one more char: nothing of the end is written,
and the record has no newline. -/
theorem record_without_end :
    ∃ l record fatal,
      (Logger.construct mainThreadEnv ['/', 'a', '.', 'c'] 7 .plain).bind
        (·.insertAll [.string (List.replicate 3960 'x')]) = some l ∧
      l.destroy = some (record, fatal) ∧
      record.toString.getLast? = some 'x' ∧
      ¬ ∃ front,
        record.toString = front ++ recordEnd ['/', 'a', '.', 'c'] 7 := by
  obtain ⟨l₀, hconstruct, hl₀, htext₀, hfile₀, hline₀⟩ :=
    Logger.construct_eq mainThreadEnv ['/', 'a', '.', 'c'] 7 .plain
  obtain ⟨l, hinsert, hl, htext, hfile, hline⟩ :=
    Logger.insertAll_eq hl₀ [.string (List.replicate 3960 'x')]
  obtain ⟨record, fatal, hdestroy, hrecord, hend⟩ := Logger.destroy_eq hl
  have hopening : l₀.text.length = 39 := by
    rw [htext₀]
    decide
  have hlong : l.text = l₀.text ++ List.replicate 3960 'x' := by
    rw [htext, inserted, if_pos (by
      rw [Inserted.fits_iff, hopening, Inserted.needs,
        List.length_replicate]
      decide)]
    rfl
  have hlength : l.text.length = 3999 := by
    rw [hlong, List.length_append, hopening, List.length_replicate]
  have hdropped : inserted l.text l.ending = l.text := by
    refine inserted_eq_self ?_
    intro v hv
    rw [Inserted.fits_iff, hlength]
    simp only [Logger.ending, hfile, hfile₀, hline, hline₀, List.mem_cons,
      List.not_mem_nil, or_false] at hv
    rcases hv with rfl | rfl | rfl | rfl | rfl
    · decide
    · decide
    · decide
    · decide
    · decide
  have hlast : record.toString.getLast? = some 'x' := by
    rw [hend, hdropped, hlong, List.getLast?_append,
      List.getLast?_replicate]
    rfl
  refine ⟨l, record, fatal, ?_, hdestroy, hlast, ?_⟩
  · rw [hconstruct, Option.bind_some, hinsert]
  · rintro ⟨front, hfront⟩
    rw [hfront, recordEnd, ← List.append_assoc, List.getLast?_concat]
      at hlast
    cases hlast

end Hohnor
