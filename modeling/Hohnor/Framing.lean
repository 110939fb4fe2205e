import Hohnor.ReadEvents
import Hohnor.TransitionRuns
import Hohnor.FrameCuts

/-!
# Framing with readBytes

A consumer asks for its next frame with readBytes and takes it out of the read
buffer in the read-complete callback, where it also asks for the frame after.
handleRead tests the stop condition once for each read event, so one event
delivers one frame at most.

What is delivered is always a first part of the frames of the stream.  It is
all of them after every read exactly when no read completes two frames.
-/

namespace Hohnor

open TransitionRuns FrameCuts

namespace ConnState

/-- User code takes bytes out of the read buffer with retrieveAsString. -/
def takeFromReadBuffer (len : Nat) (s : ConnState) : ConnState :=
  (s.setReadBuffer (s.conn.readBuffer_.retrieveAsString len).2
    ).addEvents
      [.taken (s.conn.readBuffer_.retrieveAsString len).1]

/-- The number of bytes that a consumer asks for next. -/
def due (next : Bytes → Nat) (s : ConnState) : Nat :=
  next s.taken.flatten

/-- The read-complete callback of a consumer: take the frame asked for and ask
for the next. -/
def consumer (next : Bytes → Nat) : UserCode :=
  fun s =>
    (s.takeFromReadBuffer (s.due next)).readBytes
      ((s.takeFromReadBuffer (s.due next)).due next)

/-- The kernel delivers bytes to a connection with a consumer. -/
def frameStep
    (next : Bytes → Nat) (s : ConnState) (data : Bytes) :
    Option ConnState :=
  handleRead (consumer next) (.delivers data) s

/-- A consumer waits for its next frame. -/
structure AwaitsFrame (next : Bytes → Nat) (s : ConnState) : Prop where
  valid : s.conn.readBuffer_.Valid
  condition :
    s.conn.readStopCondition_ = some (atLeastBytes (s.due next))
  installed : s.conn.readCompleteCallback_.isSome
  isOpen : s.isClosed = false

/-- After this read the consumer's frame is not complete in the read buffer:
the armed stop condition does not hold. -/
def NoFrameWaits
    (next : Bytes → Nat) (s : ConnState) (data : Bytes) : Prop :=
  ∃ s', s.frameStep next data = some s' ∧
    s'.stopsReading = some false

theorem takeFromReadBuffer_taken
    (len : Nat) (s : ConnState) :
    (s.takeFromReadBuffer len).taken =
      s.taken ++ [(s.conn.readBuffer_.retrieveAsString len).1] := by
  simp [taken, takeFromReadBuffer, addEvents, setReadBuffer,
    ConnEvent.takenBytes]

/-- The consumer takes the frame that is due and arms the next length. -/
theorem consumer_spec
    (next : Bytes → Nat)
    {s : ConnState} (hs : s.AwaitsFrame next)
    (henough : s.due next ≤ s.conn.readBuffer_.readableBytes) :
    ∃ s', consumer next s = some s' ∧
      s'.AwaitsFrame next ∧
      s'.taken =
        s.taken ++
          [s.conn.readBuffer_.readableSlice.take (s.due next)] ∧
      s'.conn.readBuffer_.readableSlice =
        s.conn.readBuffer_.readableSlice.drop (s.due next) := by
  have htaken := takeFromReadBuffer_taken (s.due next) s
  rw [Buffer.retrieveAsString_fst henough] at htaken
  obtain ⟨s', hs', hview, hopen⟩ :=
    @enableIfDisabled_readView
      ((s.takeFromReadBuffer (s.due next)).setReadStopCondition
        (some (atLeastBytes
          ((s.takeFromReadBuffer (s.due next)).due next))))
      hs.isOpen
  have hbuffer : s'.conn.readBuffer_ =
      s.conn.readBuffer_.retrieve (s.due next) :=
    congrArg ReadView.readBuffer_ hview
  have hcallback : s'.conn.readCompleteCallback_ =
      s.conn.readCompleteCallback_ :=
    congrArg ReadView.readCompleteCallback_ hview
  have htaken' :
      s'.taken = (s.takeFromReadBuffer (s.due next)).taken :=
    congrArg ReadView.taken hview
  refine ⟨s', hs', ⟨?_, ?_, ?_, hopen⟩, ?_, ?_⟩
  · rw [hbuffer]
    exact hs.valid.retrieve _
  · have hcondition := congrArg ReadView.readStopCondition_ hview
    unfold due at hcondition ⊢
    rw [htaken']
    exact hcondition
  · rw [hcallback]
    exact hs.installed
  · rw [htaken', htaken]
  · rw [hbuffer]
    exact hs.valid.retrieve_readableSlice _

/-- Only the read buffer may change while the consumer waits. -/
theorem AwaitsFrame.of_same
    {next : Bytes → Nat}
    {s s' : ConnState} (hs : s.AwaitsFrame next)
    (hvalid : s'.conn.readBuffer_.Valid)
    (hcondition :
      s'.conn.readStopCondition_ = s.conn.readStopCondition_)
    (hcallback :
      s'.conn.readCompleteCallback_ = s.conn.readCompleteCallback_)
    (htaken : s'.taken = s.taken)
    (hclosed : s'.isClosed = s.isClosed) :
    s'.AwaitsFrame next := by
  refine ⟨hvalid, ?_, ?_, ?_⟩
  · rw [hcondition, hs.condition]
    unfold due
    rw [htaken]
  · rw [hcallback]
    exact hs.installed
  · rw [hclosed]
    exact hs.isOpen

theorem AwaitsFrame.shrinkReadBuffer
    {next : Bytes → Nat}
    {s : ConnState} (hs : s.AwaitsFrame next) :
    s.shrinkReadBuffer.AwaitsFrame next ∧
    s.shrinkReadBuffer.taken = s.taken ∧
    s.shrinkReadBuffer.conn.readBuffer_.readableSlice =
      s.conn.readBuffer_.readableSlice := by
  obtain ⟨b, hview, hclosed, hvalid, hslice⟩ :=
    shrinkReadBuffer_readView s
  have hbuffer : s.shrinkReadBuffer.conn.readBuffer_ = b :=
    congrArg ReadView.readBuffer_ hview
  have htaken : s.shrinkReadBuffer.taken = s.taken :=
    congrArg ReadView.taken hview
  refine ⟨?_, htaken, by rw [hbuffer, hslice]⟩
  refine hs.of_same ?_ ?_ ?_ htaken hclosed
  · rw [hbuffer]
    exact hvalid hs.valid
  · exact congrArg ReadView.readStopCondition_ hview
  · exact congrArg ReadView.readCompleteCallback_ hview

theorem addEvents_readComplete_taken
    (s : ConnState) (cb : UserCallback) :
    (s.addEvents [.readComplete cb]).taken = s.taken := by
  simp [taken, addEvents, ConnEvent.takenBytes]

theorem dispatchRead_armed
    {next : Bytes → Nat}
    {s : ConnState} (hs : s.AwaitsFrame next)
    (code : UserCode) :
    s.dispatchRead code =
      (if s.due next ≤ s.conn.readBuffer_.readableBytes then
        s.notifyReadComplete code
      else some s).map ConnState.shrinkReadBuffer := by
  have hstops : s.stopsReading = some _ :=
    stopsReading_armed hs.condition s.conn.readBuffer_
  unfold dispatchRead
  rw [hstops, Option.bind_some]
  simp only [ge_iff_le, decide_eq_true_eq]

/-- With the frame that is due complete in the buffer, handleRead delivers it
and no other. -/
theorem dispatchRead_complete
    {next : Bytes → Nat}
    {s : ConnState} (hs : s.AwaitsFrame next)
    (henough : s.due next ≤ s.conn.readBuffer_.readableBytes) :
    ∃ s', s.dispatchRead (consumer next) = some s' ∧
      s'.AwaitsFrame next ∧
      s'.taken =
        s.taken ++
          [s.conn.readBuffer_.readableSlice.take (s.due next)] ∧
      s'.conn.readBuffer_.readableSlice =
        s.conn.readBuffer_.readableSlice.drop (s.due next) := by
  obtain ⟨cb, hcb⟩ := Option.isSome_iff_exists.mp hs.installed
  have htaken := addEvents_readComplete_taken s cb
  have hcalled :
      (s.addEvents [.readComplete cb]).AwaitsFrame next :=
    hs.of_same hs.valid rfl rfl htaken rfl
  have hdue :
      (s.addEvents [.readComplete cb]).due next = s.due next := by
    unfold due
    rw [htaken]
  obtain ⟨t, ht, hawaits, htook, hleft⟩ :=
    consumer_spec next hcalled
      (Nat.le_trans (Nat.le_of_eq hdue) henough)
  obtain ⟨hshrunk, hsame, hslice⟩ := hawaits.shrinkReadBuffer
  rw [htaken, hdue] at htook
  rw [hdue] at hleft
  refine ⟨t.shrinkReadBuffer, ?_, hshrunk, hsame.trans htook,
    hslice.trans hleft⟩
  rw [dispatchRead_armed hs, if_pos henough]
  unfold notifyReadComplete
  rw [hcb]
  exact congrArg (Option.map ConnState.shrinkReadBuffer) ht

/-- Otherwise nothing is delivered. -/
theorem dispatchRead_short
    {next : Bytes → Nat}
    {s : ConnState} (hs : s.AwaitsFrame next)
    (hshort : ¬ s.due next ≤ s.conn.readBuffer_.readableBytes) :
    ∃ s', s.dispatchRead (consumer next) = some s' ∧
      s'.AwaitsFrame next ∧
      s'.taken = s.taken ∧
      s'.conn.readBuffer_.readableSlice =
        s.conn.readBuffer_.readableSlice := by
  obtain ⟨hshrunk, hsame, hslice⟩ := hs.shrinkReadBuffer
  refine ⟨s.shrinkReadBuffer, ?_, hshrunk, hsame, hslice⟩
  rw [dispatchRead_armed hs, if_neg hshort, Option.map_some]

/-- What is in the read buffer and in the frames delivered is what has been
received. -/
structure Delivered
    (next : Bytes → Nat) (before : List Bytes) (s : ConnState) :
    Prop where
  awaits : s.AwaitsFrame next
  framed : Framed next s.taken
  received :
    s.taken.flatten ++ s.conn.readBuffer_.readableSlice =
      before.flatten

/-- One read delivers one frame at most. -/
theorem frameStep_delivered
    {next : Bytes → Nat}
    {before : List Bytes} {s : ConnState}
    (hs : Delivered next before s)
    {data : Bytes} (hdata : data ≠ []) :
    ∃ s', s.frameStep next data = some s' ∧
      Delivered next (before ++ [data]) s' ∧
      (s'.taken.length = s.taken.length + 1 ∨
        s'.taken = s.taken ∧
          s'.conn.readBuffer_.readableBytes < s'.due next) := by
  have hvalid := hs.awaits.valid.readFd (.delivers data)
  have hslice := hs.awaits.valid.readFd_readableSlice data
  have hreceived :
      s.taken.flatten ++
          (s.conn.readBuffer_.readableSlice ++ data) =
        (before ++ [data]).flatten := by
    rw [← List.append_assoc, hs.received, List.flatten_append]
    simp
  have hread :
      (s.setReadBuffer
        (s.conn.readBuffer_.readFd (.delivers data))).AwaitsFrame
          next :=
    hs.awaits.of_same hvalid rfl rfl rfl rfl
  have hlen := hvalid.length_readableSlice
  rw [hslice] at hlen
  unfold frameStep
  rw [handleRead_delivers _ hdata]
  rcases Nat.lt_or_ge
      (s.conn.readBuffer_.readFd (.delivers data)).readableBytes
      (s.due next) with hshort | henough
  · obtain ⟨s', hs', hawaits, htaken, hleft⟩ :=
      dispatchRead_short hread (Nat.not_le_of_lt hshort)
    have hleft' : s'.conn.readBuffer_.readableSlice =
        s.conn.readBuffer_.readableSlice ++ data :=
      hleft.trans hslice
    have htaken' : s'.taken = s.taken := htaken
    refine ⟨s', hs', ⟨hawaits, ?_, ?_⟩, Or.inr ⟨htaken', ?_⟩⟩
    · rw [htaken']
      exact hs.framed
    · rw [htaken', hleft']
      exact hreceived
    · rw [← hawaits.valid.length_readableSlice, hleft', hlen]
      unfold due at hshort ⊢
      rw [htaken']
      exact hshort
  · obtain ⟨s', hs', hawaits, htaken, hleft⟩ :=
      dispatchRead_complete hread henough
    have htaken' : s'.taken = s.taken ++
        [(s.conn.readBuffer_.readableSlice ++ data).take
          (s.due next)] := by
      rw [← hslice]
      exact htaken
    have hleft' : s'.conn.readBuffer_.readableSlice =
        (s.conn.readBuffer_.readableSlice ++ data).drop
          (s.due next) := by
      rw [← hslice]
      exact hleft
    refine ⟨s', hs', ⟨hawaits, ?_, ?_⟩, Or.inl ?_⟩
    · rw [htaken', framed_concat]
      refine ⟨hs.framed, ?_⟩
      rw [List.length_take, hlen]
      unfold due at henough ⊢
      omega
    · rw [htaken', hleft', List.flatten_append, ← hreceived]
      simp
    · rw [htaken', List.length_append, List.length_singleton]

/-- The consumer has every frame that has been received. -/
theorem noFrameWaits_iff
    {next : Bytes → Nat} (hnext : ∀ consumed, 1 ≤ next consumed)
    {before : List Bytes} {s : ConnState}
    (hs : Delivered next before s) :
    s.stopsReading = some false ↔
      s.taken = cut next before.flatten := by
  have hstops : s.stopsReading = some _ :=
    stopsReading_armed hs.awaits.condition s.conn.readBuffer_
  have hcut :=
    cut_eq_iff hnext hs.framed s.conn.readBuffer_.readableSlice
  rw [hs.received, hs.awaits.valid.length_readableSlice] at hcut
  rw [hstops, Option.some.injEq, decide_eq_false_iff_not,
    Nat.not_le, eq_comm, ← hcut]
  exact Iff.rfl

/-- The consumer has every frame that has been received. -/
def UpToDate
    (next : Bytes → Nat) (before : List Bytes) (s : ConnState) :
    Prop :=
  Delivered next before s ∧ s.taken = cut next before.flatten

/-- A read completes one frame at most. -/
def OneFrameAtMost
    (next : Bytes → Nat) (before : List Bytes) (data : Bytes) :
    Prop :=
  (cut next (before ++ [data]).flatten).length ≤
    (cut next before.flatten).length + 1

/-- A consumer that is up to date stays so exactly when the read completes one
frame at most. -/
theorem frameStep_upToDate
    {next : Bytes → Nat} (hnext : ∀ consumed, 1 ≤ next consumed)
    {before : List Bytes} {s : ConnState}
    (hs : UpToDate next before s)
    {data : Bytes} (hdata : data ≠ []) :
    (s.NoFrameWaits next data ↔ OneFrameAtMost next before data) ∧
    (s.NoFrameWaits next data →
      ∃ s', s.frameStep next data = some s' ∧
        UpToDate next (before ++ [data]) s') := by
  obtain ⟨hdelivered, hall⟩ := hs
  obtain ⟨s', hs', hafter, hcount⟩ :=
    frameStep_delivered hdelivered hdata
  have hiff := noFrameWaits_iff hnext hafter
  have hwaits :
      s.NoFrameWaits next data ↔ s'.stopsReading = some false := by
    unfold NoFrameWaits
    rw [hs']
    simp
  have hpre :
      s'.taken <+: cut next (before ++ [data]).flatten := by
    rw [← hafter.received]
    exact framed_prefix_cut hnext hafter.framed _
  refine ⟨?_, ?_⟩
  · rw [hwaits, hiff]
    unfold OneFrameAtMost
    rw [← hall]
    rcases hcount with hone | ⟨hsame, hshort⟩
    · rw [← hone]
      constructor
      · intro heq
        rw [heq]
      · intro hle
        exact hpre.eq_of_length_le hle
    · have hcut :=
        cut_eq_iff hnext hafter.framed
          s'.conn.readBuffer_.readableSlice
      rw [hafter.received,
        hafter.awaits.valid.length_readableSlice] at hcut
      have heq := hcut.mp hshort
      constructor
      · intro _
        rw [heq, hsame]
        exact Nat.le_succ _
      · intro _
        exact heq.symm
  · intro hw
    exact ⟨s', hs', hafter, hiff.mp (hwaits.mp hw)⟩

/-- Whatever the reads are, the frames delivered are the first ones of the
stream, and what has not been delivered is in the read buffer. -/
theorem run_delivered
    {next : Bytes → Nat}
    {reads : List Bytes} (hreads : ∀ data ∈ reads, data ≠ [])
    {s : ConnState}
    (hs : Delivered next [] s) :
    ∃ t, run (frameStep next) s reads = some t ∧
      Delivered next reads t := by
  have hstep :
      ∀ before s data, Delivered next before s → data ≠ [] → True →
        ∃ s', s.frameStep next data = some s' ∧
          Delivered next (before ++ [data]) s' := by
    intro before s data hbefore hdata _
    obtain ⟨s', hs', hafter, _⟩ := frameStep_delivered hbefore hdata
    exact ⟨s', hs', hafter⟩
  exact run_of_along (Delivered next) hstep hs hreads
    (along_true _ _ _)

theorem upToDate_of_nil
    {next : Bytes → Nat} (hnext : ∀ consumed, 1 ≤ next consumed)
    {s : ConnState}
    (hs : Delivered next [] s) :
    UpToDate next [] s := by
  have hpre :
      s.taken <+: cut next ([] : List Bytes).flatten := by
    rw [← hs.received]
    exact framed_prefix_cut hnext hs.framed _
  exact ⟨hs, List.prefix_nil.mp hpre⟩

/-- No frame ever waits exactly when every read completes one frame at
most. -/
theorem noFrameWaits_run_iff
    {next : Bytes → Nat} (hnext : ∀ consumed, 1 ≤ next consumed)
    {reads : List Bytes} (hreads : ∀ data ∈ reads, data ≠ [])
    {s : ConnState}
    (hs : Delivered next [] s) :
    Along (frameStep next) (NoFrameWaits next) s reads ↔
      ∀ before data later, reads = before ++ data :: later →
        OneFrameAtMost next before data :=
  along_iff_prefixes (UpToDate next)
    (fun _ _ _ hbefore hdata => frameStep_upToDate hnext hbefore hdata)
    (upToDate_of_nil hnext hs) hreads

/-- A consumer for which no frame ever waits gets the frames of the
stream. -/
theorem run_upToDate
    {next : Bytes → Nat} (hnext : ∀ consumed, 1 ≤ next consumed)
    {reads : List Bytes} (hreads : ∀ data ∈ reads, data ≠ [])
    {s : ConnState}
    (hs : Delivered next [] s)
    (hnone : Along (frameStep next) (NoFrameWaits next) s reads) :
    ∃ t, run (frameStep next) s reads = some t ∧
      UpToDate next reads t :=
  run_of_along (UpToDate next)
    (fun _ _ _ hbefore hdata hwaits =>
      (frameStep_upToDate hnext hbefore hdata).2 hwaits)
    (upToDate_of_nil hnext hs) hreads hnone

/-- A new connection on which a consumer has asked for its first frame. -/
theorem newReader_delivered
    (handler : IOHandler ConnHandlerCallback) (quit : Bool)
    (cb : UserCallback) (next : Bytes → Nat) :
    ∃ s,
      newReader handler quit cb (atLeastBytes (next [])) = some s ∧
      Delivered next [] s := by
  obtain ⟨s, hs, hview, hopen⟩ :=
    newReader_readView handler quit cb (atLeastBytes (next []))
  have hb : s.conn.readBuffer_ = .empty :=
    congrArg ReadView.readBuffer_ hview
  have hcb : s.conn.readCompleteCallback_ = some cb :=
    congrArg ReadView.readCompleteCallback_ hview
  have htaken : s.taken = [] := congrArg ReadView.taken hview
  refine ⟨s, hs, ⟨?_, ?_, ?_, hopen⟩, ?_, ?_⟩
  · rw [hb]
    exact Buffer.ofSize_valid _
  · unfold due
    rw [htaken]
    exact congrArg ReadView.readStopCondition_ hview
  · rw [hcb]
    rfl
  · rw [htaken]
    trivial
  · rw [htaken, hb, Buffer.empty, Buffer.ofSize_readableSlice]
    rfl

end ConnState

/-- The frames that a consumer gets do not depend on how the stream is cut
into reads, and no complete frame waits for further bytes. -/
def FramingIgnoresSegmentation : Prop :=
  ∀ (next : Bytes → Nat) (s : ConnState),
    (∀ consumed, 1 ≤ next consumed) →
    ConnState.Delivered next [] s →
    ∀ reads reads' : List Bytes,
      (∀ data ∈ reads, data ≠ []) →
      (∀ data ∈ reads', data ≠ []) →
      reads.flatten = reads'.flatten →
      Along (ConnState.frameStep next) (ConnState.NoFrameWaits next)
        s reads ∧
      ∀ t t', run (ConnState.frameStep next) s reads = some t →
        run (ConnState.frameStep next) s reads' = some t' →
        t.taken = t'.taken

/-- A consumer of one-byte frames gets one frame of two bytes that arrive
together, and two frames of two bytes that arrive one by one. -/
theorem framing_depends_on_segmentation :
    ¬ FramingIgnoresSegmentation := by
  intro hlaw
  have hone : ∀ consumed : Bytes,
      1 ≤ (fun _ : Bytes => 1) consumed :=
    fun _ => Nat.le_refl 1
  obtain ⟨s, hs, hdelivered⟩ :=
    ConnState.newReader_delivered (.create 7) false 0 (fun _ => 1)
  have htogether :
      ((ConnState.newReader (.create 7) false 0
        (atLeastBytes 1)).bind (fun s =>
          run (ConnState.frameStep (fun _ => 1)) s [[1, 2]])).map
            ConnState.taken = some [[1]] := by
    decide +kernel
  have hapart :
      ((ConnState.newReader (.create 7) false 0
        (atLeastBytes 1)).bind (fun s =>
          run (ConnState.frameStep (fun _ => 1)) s [[1], [2]])).map
            ConnState.taken = some [[1], [2]] := by
    decide +kernel
  rw [hs, Option.bind_some] at htogether hapart
  obtain ⟨t, ht, hframes⟩ := Option.map_eq_some_iff.mp htogether
  obtain ⟨t', ht', hframes'⟩ := Option.map_eq_some_iff.mp hapart
  obtain ⟨_, hsame⟩ :=
    hlaw (fun _ => 1) s hone hdelivered [[1, 2]] [[1], [2]]
      (by simp) (by simp) rfl
  have hequal := hsame t t' ht ht'
  rw [hframes, hframes'] at hequal
  exact absurd hequal (by decide)

/-- **readBytes.**  Every run of reads delivers first frames of the stream and
keeps the rest in the read buffer.  No complete frame ever waits for further
bytes exactly when every read completes one frame at most; the frames
delivered are then all the frames of the stream, however it was cut into
reads. -/
theorem readBytes_frames_iff
    (next : Bytes → Nat)
    (hnext : ∀ consumed, 1 ≤ next consumed)
    (s : ConnState)
    (hs : ConnState.Delivered next [] s)
    (reads : List Bytes)
    (hreads : ∀ data ∈ reads, data ≠ []) :
    (∃ t, run (ConnState.frameStep next) s reads = some t ∧
      t.taken <+: cut next reads.flatten ∧
      t.taken.flatten ++ t.conn.readBuffer_.readableSlice =
        reads.flatten) ∧
    (Along (ConnState.frameStep next) (ConnState.NoFrameWaits next)
        s reads ↔
      ∀ before data later, reads = before ++ data :: later →
        (cut next (before ++ [data]).flatten).length ≤
          (cut next before.flatten).length + 1) ∧
    (Along (ConnState.frameStep next) (ConnState.NoFrameWaits next)
        s reads →
      ∃ t, run (ConnState.frameStep next) s reads = some t ∧
        t.taken = cut next reads.flatten) := by
  refine ⟨?_, ?_, ?_⟩
  · obtain ⟨t, ht, hdelivered⟩ := ConnState.run_delivered hreads hs
    refine ⟨t, ht, ?_, hdelivered.received⟩
    rw [← hdelivered.received]
    exact framed_prefix_cut hnext hdelivered.framed _
  · exact ConnState.noFrameWaits_run_iff hnext hreads hs
  · intro hnone
    obtain ⟨t, ht, hupToDate⟩ :=
      ConnState.run_upToDate hnext hreads hs hnone
    exact ⟨t, ht, hupToDate.2⟩

theorem readBytes_frames_iff_sample :
    ∃ s,
      ConnState.newReader (.create 7) false 0 (atLeastBytes 1) =
        some s ∧
      (Along (ConnState.frameStep (fun _ => 1))
          (ConnState.NoFrameWaits (fun _ => 1)) s [[1], [2]] ↔
        ∀ (before : List Bytes) (data : Bytes) (later : List Bytes),
          [[1], [2]] = before ++ data :: later →
          (cut (fun _ => 1) (before ++ [data]).flatten).length ≤
            (cut (fun _ => 1) before.flatten).length + 1) := by
  obtain ⟨s, hs, hdelivered⟩ :=
    ConnState.newReader_delivered (.create 7) false 0 (fun _ => 1)
  exact ⟨s, hs,
    (readBytes_frames_iff (fun _ => 1) (fun _ => Nat.le_refl 1) s
      hdelivered [[1], [2]] (by simp)).2.1⟩

end Hohnor
