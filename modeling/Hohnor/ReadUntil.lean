import Hohnor.ReadEvents
import Hohnor.TransitionRuns
import Mathlib.Data.List.DropRight
import Mathlib.Data.List.Infix

/-!
# Reading until a delimiter

The stop condition of readUntil searches the last `lastWriteBytes()` bytes in
front of the write index.  Only `hasWritten` records that number, so a read
that readFd delivers in place leaves the number of some earlier append, and a
read that spills into extrabuf leaves the length of the spilled part.

`searchWindow` says what is searched in terms of the buffer before the read
and of the data.  From it follows for which reads the callback comes exactly
when the delimiter has arrived.  On a new connection that is a condition on
the received bytes alone: the delimiter lies in the part of one read that is
past the first `kInitialSize` bytes of the stream.
-/

namespace Hohnor

open TransitionRuns ListSegments

/-- `std::search` finds a pattern exactly when it is a contiguous part. -/
theorem containsPattern_iff
    (pattern text : Bytes) :
    containsPattern pattern text = true ↔ pattern <:+: text := by
  induction text with
  | nil =>
      simp [containsPattern]
  | cons b text ih =>
      rw [List.infix_cons_iff, ← ih]
      simp [containsPattern]

/-- The bytes searched after `data` has been read into `b`. -/
def searchWindow (b : Buffer) (data : Bytes) : Option Bytes :=
  if data.length ≤ b.writableBytes then
    if 0 ≤ b.lastWriteBytes ∧
        b.lastWriteBytes ≤ b.writerIndex_ + data.length then
      some
        ((b.buffer_.take b.writerIndex_ ++ data).rtake
          b.lastWriteBytes.toNat)
    else
      none
  else
    some (data.drop b.writableBytes)

/-- The searched bytes lie in the storage, and they hold the delimiter exactly
when the content followed by the new data does. -/
def WindowDecides
    (delimiter : Bytes) (b : Buffer) (data : Bytes) : Prop :=
  ∃ text, searchWindow b data = some text ∧
    (delimiter <:+: text ↔ delimiter <:+: b.readableSlice ++ data)

/-- After `append` exactly the appended bytes are searched. -/
theorem searchedBytes_append
    {b : Buffer}
    (hb : b.Valid)
    {data : Bytes}
    (hlen : data.length < 2 ^ 31) :
    searchedBytes (b.append data) = some data := by
  obtain ⟨hvalid, _, _⟩ := hb.ensureWritable data.length
  have hlast :
      (b.append data).lastWriteBytes = (data.length : Int) := by
    have hsize : (b.append data).lastWriteBytes_ = data.length :=
      sizeOfInt_of_lt hlen
    rw [Buffer.lastWriteBytes]
    rw [hsize, if_pos (by omega)]
  have hwriter :
      (b.append data).writerIndex_ =
        (b.ensureWritable data.length).writerIndex_ + data.length :=
    rfl
  rw [searchedBytes]
  rw [hlast, hwriter]
  rw [if_pos (by omega)]
  rw [Int.toNat_natCast, Nat.add_sub_cancel]
  exact congrArg some (segment_splice_self data hvalid.writer_le)

theorem searchedBytes_readFd
    {b : Buffer}
    (hb : b.Valid)
    {data : Bytes}
    (hspilled : data.length - b.writableBytes < 2 ^ 31) :
    searchedBytes (b.readFd (.delivers data)) =
      searchWindow b data := by
  rw [searchWindow]
  rcases Nat.lt_or_ge b.writableBytes data.length with hspill | hfit
  · rw [if_neg (by omega), Buffer.readFd_of_gt hspill]
    refine searchedBytes_append (hb.filled hspill).1 ?_
    rw [List.length_drop]
    exact hspilled
  · rw [if_pos hfit, Buffer.readFd_of_le hfit]
    have hstore := segment_zero_splice data hb.writer_le
    have hlen :
        (b.buffer_.take b.writerIndex_ ++ data).length =
          b.writerIndex_ + data.length := by
      have hw := hb.writer_le
      rw [List.length_append, List.length_take]
      omega
    have hlast : ∀ w : Nat,
        ({ b.copyIn data with
            writerIndex_ := w
            lastWriteBytes_ := b.lastWriteBytes_ } :
          Buffer).lastWriteBytes = b.lastWriteBytes :=
      fun _ => rfl
    simp only [searchedBytes, hlast, Nat.cast_add]
    split
    · congr 1
      rw [List.rtake, hlen, ← hstore, drop_segment, Nat.zero_add]
      rfl
    · rfl

/-- The callback returns; it consumes nothing and arms nothing. -/
def LeavesReading (code : UserCode) : Prop :=
  ∀ s, ∃ s', code s = some s' ∧ s'.readView = s.readView

/-- A read event, with what the read-complete callback does if it is
called. -/
structure ReadEvent where
  onReadComplete : UserCode
  data : Bytes

/-- New bytes have arrived, and the callback consumes none. -/
def ReadEvent.Regular (e : ReadEvent) : Prop :=
  LeavesReading e.onReadComplete ∧ e.data ≠ []

/-- The bytes of a list of read events. -/
def received (reads : List ReadEvent) : Bytes :=
  (reads.map ReadEvent.data).flatten

namespace ConnState

/-- The kernel delivers the data of a read event. -/
def readStep (s : ConnState) (e : ReadEvent) : Option ConnState :=
  handleRead e.onReadComplete (.delivers e.data) s

/-- readUntil is armed and the callback is installed. -/
structure ReadingUntil
    (delimiter : Bytes) (s : ConnState) :
    Prop where
  valid : s.conn.readBuffer_.Valid
  condition :
    s.conn.readStopCondition_ = some (untilDelimiter delimiter)
  installed : s.conn.readCompleteCallback_.isSome

/-- Calling the read-complete callback is counted. -/
theorem notifyReadComplete_readView
    {code : UserCode} (hcode : LeavesReading code)
    (s : ConnState)
    (hinstalled : s.conn.readCompleteCallback_.isSome) :
    ∃ s', s.notifyReadComplete code = some s' ∧
      s'.readView =
        { s.readView with readCompletes := s.readCompletes + 1 } := by
  obtain ⟨cb, hcb⟩ := Option.isSome_iff_exists.mp hinstalled
  obtain ⟨s', hs', hview⟩ := hcode (s.addEvents [.readComplete cb])
  refine ⟨s', ?_, ?_⟩
  · rw [notifyReadComplete]
    rw [hcb]
    exact hs'
  · rw [hview]
    simp [readView, readCompletes, taken, addEvents,
      ConnEvent.isReadComplete, ConnEvent.takenBytes]

/-- handleRead once bytes have been read: the callback is called exactly when
the stop condition holds, and there is no result where it reads outside the
storage. -/
theorem readStep_eq
    {e : ReadEvent} (he : e.Regular)
    {s : ConnState}
    (hvalid : s.conn.readBuffer_.Valid)
    {condition : ReadStopCondition}
    (harmed : s.conn.readStopCondition_ = some condition)
    (hinstalled : s.conn.readCompleteCallback_.isSome) :
    (condition (s.conn.readBuffer_.readFd (.delivers e.data)) = none →
      s.readStep e = none) ∧
    ∀ stop,
      condition (s.conn.readBuffer_.readFd (.delivers e.data)) =
          some stop →
        ∃ s', s.readStep e = some s' ∧
          s'.readView =
            { s.readView with
              readBuffer_ :=
                s.conn.readBuffer_.readFd (.delivers e.data)
              readCompletes := s.readCompletes + stop.toNat } := by
  obtain ⟨code, data⟩ := e
  obtain ⟨hcode, hdata⟩ := he
  simp only at hcode hdata ⊢
  have hread : s.readStep ⟨code, data⟩ = _ :=
    handleRead_delivers code hdata s
  have hcontent : ∀ t : ConnState,
      t.conn.readBuffer_ =
        s.conn.readBuffer_.readFd (.delivers data) →
      t.conn.readBuffer_.readableBytes ≠ 0 := by
    intro t ht hzero
    have hv := hvalid.readFd (.delivers data)
    have hslice := hvalid.readFd_readableSlice data
    rw [ht, ← hv.readableSlice_eq_nil_iff, hslice] at hzero
    exact hdata (List.append_eq_nil_iff.mp hzero).2
  have hstops :=
    stopsReading_armed harmed
      (s.conn.readBuffer_.readFd (.delivers data))
  rw [hread, dispatchRead, hstops]
  refine ⟨fun hnone => by rw [hnone, Option.bind_none], ?_⟩
  intro stop hstop
  rw [hstop, Option.bind_some]
  cases stop with
  | false =>
      refine ⟨_, rfl, ?_⟩
      rw [shrinkReadBuffer_of_content (hcontent _ rfl)]
      rfl
  | true =>
      obtain ⟨s', hs', hview⟩ :=
        notifyReadComplete_readView hcode
          (s.setReadBuffer
            (s.conn.readBuffer_.readFd (.delivers data)))
          hinstalled
      have hbuffer := congrArg ReadView.readBuffer_ hview
      refine ⟨s', ?_, hview⟩
      rw [if_pos rfl, hs', Option.map_some,
        shrinkReadBuffer_of_content (hcontent s' hbuffer)]

/-- The callback comes with this read exactly when the delimiter is in the
read buffer. -/
def CallsBackWhenFound
    (delimiter : Bytes) (s : ConnState) (e : ReadEvent) : Prop :=
  ∃ s', s.readStep e = some s' ∧
    (s.readCompletes < s'.readCompletes ↔
      delimiter <:+: s'.conn.readBuffer_.readableSlice)

theorem untilDelimiter_readFd
    {delimiter : Bytes} (hd : delimiter ≠ [])
    {b : Buffer} (hb : b.Valid)
    {data : Bytes}
    (hspilled : data.length - b.writableBytes < 2 ^ 31) :
    untilDelimiter delimiter (b.readFd (.delivers data)) =
      (searchWindow b data).map
        (fun text => decide (delimiter <:+: text)) := by
  rw [untilDelimiter]
  rw [searchedBytes_readFd hb hspilled]
  congr 1
  funext text
  rw [Bool.eq_iff_iff, Bool.and_eq_true, decide_eq_true_iff,
    decide_eq_true_iff, containsPattern_iff]
  constructor
  · exact fun h => h.2
  · intro h
    refine ⟨?_, h⟩
    rintro rfl
    exact hd (List.infix_nil.mp h)

/-- One read event under readUntil: what the window decides is what
happens. -/
theorem callsBackWhenFound_iff
    {delimiter : Bytes} (hd : delimiter ≠ [])
    {e : ReadEvent} (he : e.Regular)
    {s : ConnState} (hs : s.ReadingUntil delimiter)
    (hspilled :
      e.data.length - s.conn.readBuffer_.writableBytes < 2 ^ 31) :
    s.CallsBackWhenFound delimiter e ↔
      WindowDecides delimiter s.conn.readBuffer_ e.data := by
  obtain ⟨hnone, hsome⟩ :=
    readStep_eq he hs.valid hs.condition hs.installed
  have hcond :=
    untilDelimiter_readFd hd hs.valid hspilled
  have hslice := hs.valid.readFd_readableSlice e.data
  cases hwindow : searchWindow s.conn.readBuffer_ e.data with
  | none =>
      rw [hwindow] at hcond
      constructor
      · rintro ⟨s', hs', _⟩
        rw [hnone hcond] at hs'
        exact absurd hs' (by simp)
      · rintro ⟨text, htext, _⟩
        rw [hwindow] at htext
        exact absurd htext (by simp)
  | some text =>
      rw [hwindow, Option.map_some] at hcond
      obtain ⟨s', hs', hview⟩ := hsome _ hcond
      have hbuffer : s'.conn.readBuffer_ =
          s.conn.readBuffer_.readFd (.delivers e.data) :=
        congrArg ReadView.readBuffer_ hview
      have hcalls : s'.readCompletes =
          s.readCompletes + (decide (delimiter <:+: text)).toNat :=
        congrArg ReadView.readCompletes hview
      have hcalled : s.readCompletes < s'.readCompletes ↔
          delimiter <:+: text := by
        rw [hcalls]
        by_cases hfound : delimiter <:+: text
        · simp [hfound]
        · simp [hfound]
      constructor
      · rintro ⟨t, ht, hiff⟩
        have hst : s' = t := Option.some.inj (hs'.symm.trans ht)
        subst hst
        rw [hcalled, hbuffer, hslice] at hiff
        exact ⟨text, hwindow, hiff⟩
      · rintro ⟨text', htext, hiff⟩
        have htt : text = text' :=
          Option.some.inj (hwindow.symm.trans htext)
        subst htt
        refine ⟨s', hs', ?_⟩
        rw [hcalled, hbuffer, hslice]
        exact hiff

/-- readUntil stays armed over a read event, which adds its data to the
content. -/
theorem readStep_readingUntil
    {delimiter : Bytes}
    {e : ReadEvent} (he : e.Regular)
    {s s' : ConnState} (hs : s.ReadingUntil delimiter)
    (hstep : s.readStep e = some s') :
    s'.ReadingUntil delimiter ∧
    s'.conn.readBuffer_ =
      s.conn.readBuffer_.readFd (.delivers e.data) := by
  obtain ⟨hnone, hsome⟩ :=
    readStep_eq he hs.valid hs.condition hs.installed
  cases hcond : untilDelimiter delimiter
      (s.conn.readBuffer_.readFd (.delivers e.data)) with
  | none =>
      rw [hnone hcond] at hstep
      exact absurd hstep (by simp)
  | some stop =>
      obtain ⟨t, ht, hview⟩ := hsome stop hcond
      have hst : t = s' := Option.some.inj (ht.symm.trans hstep)
      subst hst
      have hbuffer : t.conn.readBuffer_ =
          s.conn.readBuffer_.readFd (.delivers e.data) :=
        congrArg ReadView.readBuffer_ hview
      have hstop := congrArg ReadView.readStopCondition_ hview
      have hcb := congrArg ReadView.readCompleteCallback_ hview
      refine ⟨⟨?_, hstop.trans hs.condition, ?_⟩, hbuffer⟩
      · rw [hbuffer]
        exact hs.valid.readFd _
      · have h : t.conn.readCompleteCallback_ =
            s.conn.readCompleteCallback_ := hcb
        rw [h]
        exact hs.installed

end ConnState

namespace Buffer

/-- Appending to full storage grows it by exactly what is appended. -/
theorem append_of_full
    {b : Buffer}
    (hb : b.Valid)
    (hreader : b.readerIndex_ = kCheapPrepend)
    (hfull : b.writerIndex_ = b.buffer_.length)
    {data : Bytes} (hdata : data ≠ []) :
    (b.append data).readerIndex_ = kCheapPrepend ∧
    (b.append data).writableBytes = 0 := by
  have hpos := List.length_pos_iff.mpr hdata
  have hzero : b.writableBytes = 0 := by
    rw [writableBytes]
    omega
  have hensure :
      b.ensureWritable data.length =
        b.resize (b.writerIndex_ + data.length) := by
    unfold ensureWritable makeSpace prependableBytes
    rw [if_pos (by omega), if_pos (by omega)]
  have hlen :
      (b.resize (b.writerIndex_ + data.length)).buffer_.length =
        b.writerIndex_ + data.length := by
    simp only [resize, List.length_append, List.length_take,
      List.length_replicate]
    omega
  refine ⟨?_, ?_⟩
  · change (b.ensureWritable data.length).readerIndex_ = _
    rw [hensure]
    exact hreader
  · obtain ⟨hvalid, hroom, _⟩ := hb.ensureWritable data.length
    have hsplice :
        (b.append data).buffer_.length =
          (b.ensureWritable data.length).buffer_.length := by
      refine length_splice ?_
      have hw := hvalid.writer_le
      unfold writableBytes at hroom
      omega
    have hwriter : (b.append data).writerIndex_ =
        b.writerIndex_ + data.length := by
      change (b.ensureWritable data.length).writerIndex_ + _ = _
      rw [hensure]
      rfl
    rw [writableBytes]
    rw [hsplice, hwriter, hensure, hlen]
    omega

/-- A buffer that started empty with `kInitialSize` writable bytes and has
only been read into: nothing of it has been retrieved, `content` is in it. -/
structure OnlyRead (b : Buffer) (content : Bytes) : Prop where
  valid : b.Valid
  readable : b.readableSlice = content
  reader_eq : b.readerIndex_ = kCheapPrepend
  writable_eq : b.writableBytes = kInitialSize - content.length
  last_eq : content.length ≤ kInitialSize → b.lastWriteBytes = 0

theorem empty_onlyRead :
    empty.OnlyRead [] := by
  refine ⟨ofSize_valid _, ofSize_readableSlice _, rfl, ?_, fun _ => rfl⟩
  rw [writableBytes, empty, ofSize]
  rw [List.length_replicate]
  exact Nat.add_sub_cancel_left ..

theorem OnlyRead.readFd
    {b : Buffer} {content : Bytes}
    (hb : b.OnlyRead content)
    {data : Bytes} (hdata : data ≠ []) :
    (b.readFd (.delivers data)).OnlyRead (content ++ data) := by
  have hpos := List.length_pos_iff.mpr hdata
  have hwritable := hb.writable_eq
  have hslice := hb.valid.readFd_readableSlice data
  rw [hb.readable] at hslice
  rcases Nat.lt_or_ge b.writableBytes data.length with hspill | hfit
  · have hrest : data.drop b.writableBytes ≠ [] := by
      rw [Ne, List.drop_eq_nil_iff]
      omega
    obtain ⟨hvalid, _⟩ := hb.valid.filled hspill
    have hstore :
        (b.copyIn (data.take b.writableBytes)).buffer_.length =
          b.buffer_.length := by
      refine length_splice ?_
      have hw := hb.valid.writer_le
      rw [List.length_take]
      unfold writableBytes at hspill ⊢
      omega
    obtain ⟨hreader, hfull⟩ :=
      append_of_full hvalid hb.reader_eq hstore.symm hrest
    rw [← readFd_of_gt hspill] at hreader hfull
    refine ⟨hb.valid.readFd _, hslice, hreader, ?_, ?_⟩
    · rw [hfull, List.length_append]
      omega
    · intro hsmall
      rw [List.length_append] at hsmall
      omega
  · have hread := readFd_of_le hfit
    refine ⟨hb.valid.readFd _, hslice, ?_, ?_, ?_⟩
    · rw [hread]
      exact hb.reader_eq
    · have hstore : (b.copyIn data).buffer_.length =
          b.buffer_.length := by
        refine length_splice ?_
        have hw := hb.valid.writer_le
        unfold writableBytes at hfit
        omega
      rw [hread, List.length_append]
      rw [writableBytes] at hwritable hfit ⊢
      simp only [hstore]
      omega
    · intro hsmall
      rw [List.length_append] at hsmall
      rw [hread]
      exact hb.last_eq (by omega)

/-- What is searched is the part of the read that is past the first
`kInitialSize` bytes. -/
theorem OnlyRead.searchWindow_eq
    {b : Buffer} {content : Bytes}
    (hb : b.OnlyRead content)
    {data : Bytes} (hdata : data ≠ []) :
    searchWindow b data =
      some ((content ++ data).drop
        (max kInitialSize content.length)) := by
  have hpos := List.length_pos_iff.mpr hdata
  have hwritable := hb.writable_eq
  rw [searchWindow]
  split
  · have hlast := hb.last_eq (by omega)
    rw [hlast, if_pos ⟨Int.le_refl 0, by omega⟩]
    rw [Int.toNat_zero, List.rtake_zero, eq_comm,
      Option.some.injEq, List.drop_eq_nil_iff, List.length_append]
    omega
  · have hfront :
        content.drop (max kInitialSize content.length) = [] :=
      List.drop_of_length_le (Nat.le_max_right _ _)
    rw [hwritable, List.drop_append, hfront, List.nil_append]
    congr 2
    omega

end Buffer

namespace ConnState

/-- A new connection that reads until `delimiter`. -/
theorem newReader_readingUntil
    (handler : IOHandler ConnHandlerCallback) (quit : Bool)
    (cb : UserCallback) (delimiter : Bytes) :
    ∃ s,
      newReader handler quit cb (untilDelimiter delimiter) = some s ∧
      s.ReadingUntil delimiter ∧
      s.conn.readBuffer_ = .empty := by
  obtain ⟨s, hs, hview, _⟩ :=
    newReader_readView handler quit cb (untilDelimiter delimiter)
  have hb : s.conn.readBuffer_ = .empty :=
    congrArg ReadView.readBuffer_ hview
  have hcb : s.conn.readCompleteCallback_ = some cb :=
    congrArg ReadView.readCompleteCallback_ hview
  refine ⟨s, hs, ⟨?_, ?_, ?_⟩, hb⟩
  · rw [hb]
    exact Buffer.ofSize_valid _
  · exact congrArg ReadView.readStopCondition_ hview
  · rw [hcb]
    rfl

end ConnState

/-- The kernel delivers no more than readFd offers. -/
def KernelFits (s : ConnState) (e : ReadEvent) : Prop :=
  e.data.length ≤ s.conn.readBuffer_.readFdOffered

/-- No more than `kExtraBufSize` bytes are spilled. -/
theorem KernelFits.spilled
    {s : ConnState} {e : ReadEvent}
    (h : KernelFits s e) :
    e.data.length - s.conn.readBuffer_.writableBytes < 2 ^ 31 := by
  unfold KernelFits Buffer.readFdOffered Buffer.kExtraBufSize at h
  split at h
  · omega
  · omega

/-- From an empty read buffer, the callback comes exactly when the delimiter
is in the read buffer, however the stream is cut into reads. -/
def ReadUntilFindsDelimiter : Prop :=
  ∀ (delimiter : Bytes) (s : ConnState) (reads : List ReadEvent),
    delimiter ≠ [] →
    s.ReadingUntil delimiter →
    s.conn.readBuffer_.readableBytes = 0 →
    (∀ e ∈ reads, e.Regular) →
    Along ConnState.readStep KernelFits s reads →
    Along ConnState.readStep
      (ConnState.CallsBackWhenFound delimiter) s reads

/-- One read of two bytes, the second of them the delimiter. -/
def oneLine : List ReadEvent :=
  [⟨some, [97, 10]⟩]

theorem oneLine_regular :
    ∀ e ∈ oneLine, e.Regular := by
  intro e he
  rw [oneLine, List.mem_singleton] at he
  subst he
  exact ⟨fun s => ⟨s, rfl, rfl⟩, by simp⟩

/-- A new connection has room for it. -/
theorem oneLine_fits
    {s : ConnState}
    (hbuffer : s.conn.readBuffer_ = .empty) :
    Along ConnState.readStep KernelFits s oneLine := by
  refine ⟨?_, fun _ _ => trivial⟩
  unfold KernelFits
  rw [hbuffer]
  decide +kernel

/-- A short line that arrives on a new connection is not searched at all. -/
theorem readUntil_misses_short_line :
    ¬ ReadUntilFindsDelimiter := by
  intro hfinds
  obtain ⟨s, _, hs, hbuffer⟩ :=
    ConnState.newReader_readingUntil (.create 7) false 0 [10]
  have hempty : s.conn.readBuffer_.readableBytes = 0 := by
    rw [hbuffer]
    rfl
  have hfits := oneLine_fits hbuffer
  have hrun :=
    hfinds [10] s oneLine (by simp) hs hempty oneLine_regular hfits
  have hwindow :=
    (ConnState.callsBackWhenFound_iff (by simp)
      (oneLine_regular _ (List.mem_singleton_self _)) hs
      hfits.1.spilled).mp hrun.1
  obtain ⟨text, htext, hiff⟩ := hwindow
  have hnothing : searchWindow .empty [97, 10] = some [] :=
    Buffer.empty_onlyRead.searchWindow_eq (by simp)
  rw [hbuffer] at htext hiff
  rw [hnothing, Option.some.injEq] at htext
  have hcontent : ([10] : Bytes) <:+: [97, 10] := ⟨[97], [], rfl⟩
  have hmissed : ([10] : Bytes) <:+: text := by
    refine hiff.mpr ?_
    rw [Buffer.empty, Buffer.ofSize_readableSlice]
    exact hcontent
  rw [← htext, List.infix_nil] at hmissed
  exact absurd hmissed (by simp)

/-- What the bytes received before a read determine of a new connection that
reads until `delimiter`. -/
def ReadSoFar
    (delimiter : Bytes) (before : List ReadEvent) (s : ConnState) :
    Prop :=
  s.ReadingUntil delimiter ∧
    s.conn.readBuffer_.OnlyRead (received before)

theorem received_concat
    (before : List ReadEvent) (e : ReadEvent) :
    received (before ++ [e]) = received before ++ e.data := by
  simp [received]

/-- One read of a new connection, from the bytes received. -/
theorem readSoFar_step
    {delimiter : Bytes} (hd : delimiter ≠ [])
    {before : List ReadEvent} {s : ConnState} {e : ReadEvent}
    (hs : ReadSoFar delimiter before s)
    (he : e.Regular)
    (hfits :
      e.data.length ≤ kInitialSize + Buffer.kExtraBufSize) :
    (s.CallsBackWhenFound delimiter e ↔
      (delimiter <:+: received (before ++ [e]) →
        delimiter <:+:
          (received (before ++ [e])).drop
            (max kInitialSize (received before).length))) ∧
    (s.CallsBackWhenFound delimiter e →
      ∃ s', s.readStep e = some s' ∧
        ReadSoFar delimiter (before ++ [e]) s') := by
  obtain ⟨hreading, honly⟩ := hs
  have hwindow := honly.searchWindow_eq he.2
  have hspilled :
      e.data.length - s.conn.readBuffer_.writableBytes < 2 ^ 31 := by
    unfold kInitialSize Buffer.kExtraBufSize at hfits
    omega
  rw [← received_concat] at hwindow
  refine ⟨?_, ?_⟩
  · rw [ConnState.callsBackWhenFound_iff hd he hreading hspilled]
    rw [WindowDecides]
    rw [hwindow, honly.readable, ← received_concat]
    constructor
    · rintro ⟨text, htext, hiff⟩ hfound
      rw [Option.some.inj htext]
      exact hiff.mpr hfound
    · intro himp
      refine ⟨_, rfl, ?_, himp⟩
      intro hlate
      exact hlate.trans (List.drop_suffix _ _).isInfix
  · rintro ⟨s', hs', _⟩
    obtain ⟨hnext, hbuffer⟩ :=
      ConnState.readStep_readingUntil he hreading hs'
    refine ⟨s', hs', hnext, ?_⟩
    rw [hbuffer, received_concat]
    exact honly.readFd he.2

/-- **readUntil.**  In every run of reads, the callback comes after each read
exactly when the delimiter has arrived if and only if at each read the
searched window decides that.  On a new connection this says: whenever the
delimiter is among the bytes received, it is among those of the last read that
are past the first `kInitialSize` bytes of the stream. -/
theorem readUntil_finds_iff
    (delimiter : Bytes)
    (hd : delimiter ≠ []) :
    (∀ (s : ConnState) (reads : List ReadEvent),
      s.ReadingUntil delimiter →
      (∀ e ∈ reads, e.Regular) →
      Along ConnState.readStep KernelFits s reads →
      (Along ConnState.readStep
          (ConnState.CallsBackWhenFound delimiter) s reads ↔
        Along ConnState.readStep
          (fun s e =>
            WindowDecides delimiter s.conn.readBuffer_ e.data)
          s reads)) ∧
    (∀ (handler : IOHandler ConnHandlerCallback) (quit : Bool)
      (cb : UserCallback) (reads : List ReadEvent),
      (∀ e ∈ reads, e.Regular ∧
        e.data.length ≤ kInitialSize + Buffer.kExtraBufSize) →
      ∃ s,
        ConnState.newReader handler quit cb
          (untilDelimiter delimiter) = some s ∧
        (Along ConnState.readStep
            (ConnState.CallsBackWhenFound delimiter) s reads ↔
          ∀ before e later, reads = before ++ e :: later →
            delimiter <:+: received (before ++ [e]) →
            delimiter <:+:
              (received (before ++ [e])).drop
                (max kInitialSize (received before).length))) := by
  refine ⟨?_, ?_⟩
  · intro s reads hs hreads hfits
    refine along_iff (ConnState.ReadingUntil delimiter) ?_ ?_ hs
      hreads hfits
    · intro s e hs he hfit
      exact ConnState.callsBackWhenFound_iff hd he hs hfit.spilled
    · intro s e s' hs he hstep
      exact (ConnState.readStep_readingUntil he hs hstep).1
  · intro handler quit cb reads hreads
    obtain ⟨s, hnew, hs, hbuffer⟩ :=
      ConnState.newReader_readingUntil handler quit cb delimiter
    refine ⟨s, hnew, ?_⟩
    have hstart : ReadSoFar delimiter [] s := by
      refine ⟨hs, ?_⟩
      rw [hbuffer]
      exact Buffer.empty_onlyRead
    have hiff :=
      along_iff_prefixes (ReadSoFar delimiter)
        (fun before s e hbefore he =>
          readSoFar_step hd hbefore he.1 he.2)
        hstart hreads
    simpa only [List.nil_append] using hiff

theorem readUntil_finds_iff_sample :
    ∃ s,
      ConnState.newReader (.create 7) false 0
        (untilDelimiter [10]) = some s ∧
      (Along ConnState.readStep
          (ConnState.CallsBackWhenFound [10]) s oneLine ↔
        Along ConnState.readStep
          (fun s e => WindowDecides [10] s.conn.readBuffer_ e.data)
          s oneLine) ∧
      (Along ConnState.readStep
          (ConnState.CallsBackWhenFound [10]) s oneLine ↔
        ∀ before e later, oneLine = before ++ e :: later →
          [10] <:+: received (before ++ [e]) →
          [10] <:+:
            (received (before ++ [e])).drop
              (max kInitialSize (received before).length)) := by
  obtain ⟨hgeneral, hfresh⟩ := readUntil_finds_iff [10] (by simp)
  obtain ⟨t, ht, hreading, hbuffer⟩ :=
    ConnState.newReader_readingUntil (.create 7) false 0 [10]
  have hshort : ∀ e ∈ oneLine, e.Regular ∧
      e.data.length ≤ kInitialSize + Buffer.kExtraBufSize := by
    intro e he
    refine ⟨oneLine_regular e he, ?_⟩
    rw [oneLine, List.mem_singleton] at he
    subst he
    decide
  obtain ⟨s, hs, hiff⟩ :=
    hfresh (.create 7) false 0 oneLine hshort
  have hst : t = s := Option.some.inj (ht.symm.trans hs)
  subst hst
  exact ⟨t, hs, hgeneral t oneLine hreading oneLine_regular
    (oneLine_fits hbuffer), hiff⟩

end Hohnor
