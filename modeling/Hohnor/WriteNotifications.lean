import Hohnor.OutputStream

/-!
# Write-complete and high-water notifications

writeInLoop and handleWrite tell the user two things about the backlog in the
write buffer: that it has come up to the high water mark, by a call, and that
everything has been written, by a functor in the loop's queue.  The conditions
are computed on different paths, before and after the buffer is changed.

`notifications_exact` is the main result: over a run of the two operations the
high-water-mark callback is called by exactly those that raise the backlog from
below the mark, and the write-complete callback is queued once by exactly those
whose own `::write` has left nothing to send.
-/

namespace Hohnor

open TransitionRuns

/-- The call of the high-water-mark callback. -/
def ConnEvent.isHighWaterMark : ConnEvent → Bool
  | .highWaterMark _ => true
  | _ => false

/-- A write-complete callback is put into the loop's queue. -/
def ConnEvent.queuesWriteComplete : ConnEvent → Bool
  | .queued (.writeComplete _) => true
  | _ => false

/-- The part of the state that decides about notifications, and the number of
those that have been made. -/
structure NotifyView where
  writing_ : Bool
  writeBuffer_ : Buffer
  highWaterMark_ : Nat
  highWaterMarkCallback_ : Option UserCallback
  writeCompleteCallback_ : Option UserCallback
  highWaterCalls : Nat
  writeCompletes : Nat

namespace NotifyView

/-- Bytes that wait for a writable event. -/
def unsent (v : NotifyView) : Nat :=
  v.writeBuffer_.readableBytes

/-- Both callbacks are installed, and the write side is between two
operations. -/
structure Holds (mark : Nat) (v : NotifyView) : Prop where
  valid : v.writeBuffer_.Valid
  writing_iff : v.writing_ = true ↔ v.unsent ≠ 0
  highWaterMark : v.highWaterMark_ = mark
  highWaterInstalled : v.highWaterMarkCallback_.isSome = true
  writeCompleteInstalled : v.writeCompleteCallback_.isSome = true

/-- The backlog comes up to the mark. -/
def Reaches (mark : Nat) (v v' : NotifyView) : Prop :=
  v.unsent < mark ∧ mark ≤ v'.unsent

instance (mark : Nat) (v v' : NotifyView) : Decidable (v.Reaches mark v') :=
  inferInstanceAs (Decidable (_ ∧ _))

/-- Bytes are kept for the next writable event. -/
def buffer (v : NotifyView) (rest : Bytes) : NotifyView :=
  { v with
    writing_ := true
    writeBuffer_ := v.writeBuffer_.append rest }

theorem Holds.buffer_unsent
    {mark : Nat} {v : NotifyView} (hv : v.Holds mark) (rest : Bytes) :
    (v.buffer rest).unsent = v.unsent + rest.length := by
  have hslice := congrArg List.length (hv.valid.append_readableSlice rest)
  rw [(hv.valid.append rest).length_readableSlice, List.length_append,
    hv.valid.length_readableSlice] at hslice
  exact hslice

theorem Holds.buffer
    {mark : Nat} {v : NotifyView} (hv : v.Holds mark)
    {rest : Bytes} (hrest : rest ≠ []) :
    (v.buffer rest).Holds mark := by
  have hlength : 0 < rest.length := List.length_pos_iff.mpr hrest
  have hunsent := hv.buffer_unsent rest
  constructor
  · exact hv.valid.append rest
  · constructor
    · intro _
      omega
    · intro _
      rfl
  · exact hv.highWaterMark
  · exact hv.highWaterInstalled
  · exact hv.writeCompleteInstalled

end NotifyView

namespace ConnState

def notifyView (s : ConnState) : NotifyView where
  writing_ := s.conn.writing_
  writeBuffer_ := s.conn.writeBuffer_
  highWaterMark_ := s.conn.highWaterMark_
  highWaterMarkCallback_ := s.conn.highWaterMarkCallback_
  writeCompleteCallback_ := s.conn.writeCompleteCallback_
  highWaterCalls := s.events.countP ConnEvent.isHighWaterMark
  writeCompletes := s.events.countP ConnEvent.queuesWriteComplete

/-- The return value of the `::write` that an operation makes, if it makes
one. -/
def writeMade (s : ConnState) : OutputOp → Option (Except Errno Nat)
  | .writeInLoop _ r message =>
      if s.writesDirectly then some (r.returns message) else none
  | .handleWrite r =>
      if s.conn.writing_ then
        some (r.returns s.conn.writeBuffer_.readableSlice)
      else none
  | _ => none

/-- A `::write` of the operation has succeeded. -/
def writeSucceeds (s : ConnState) (op : OutputOp) : Bool :=
  match s.writeMade op with
  | some (.ok _) => true
  | _ => false

/-- The notifications that one operation makes. -/
structure NotifiesExactly
    (mark : Nat) (s : ConnState) (op : OutputOp) (s' : ConnState) :
    Prop where
  highWater :
    s'.notifyView.highWaterCalls =
      s.notifyView.highWaterCalls +
        if s.notifyView.Reaches mark s'.notifyView then 1 else 0
  writeComplete :
    s'.notifyView.writeCompletes =
      s.notifyView.writeCompletes +
        if s.writeSucceeds op = true ∧ s'.notifyView.unsent = 0
        then 1 else 0

theorem addEvents_epoll_notifyView
    (s : ConnState) (ctls : List EpollCtl) :
    (s.addEvents (ctls.map .epoll)).notifyView = s.notifyView := by
  have hnone :
      ∀ p : ConnEvent → Bool, (∀ ctl, p (.epoll ctl) = false) →
        (ctls.map ConnEvent.epoll).countP p = 0 := by
    intro p hp
    rw [List.countP_eq_zero]
    intro ev hev
    obtain ⟨ctl, _, rfl⟩ := List.mem_map.mp hev
    simp [hp]
  simp only [notifyView, addEvents, List.countP_append,
    hnone ConnEvent.isHighWaterMark (fun _ => rfl),
    hnone ConnEvent.queuesWriteComplete (fun _ => rfl), Nat.add_zero]

theorem onHandler_notifyView
    {op : IOHandler ConnHandlerCallback →
      IOHandler ConnHandlerCallback × List EpollCtl}
    {s s' : ConnState}
    (hop : s.onHandler op = some s') :
    s'.notifyView = s.notifyView := by
  unfold onHandler at hop
  split at hop
  · cases hop
  · cases hop
    exact addEvents_epoll_notifyView { s with conn := _ } _

@[simp] theorem setWriteEvent_notifyView
    (s : ConnState) (on : Bool) :
    (s.setWriteEvent on).notifyView = s.notifyView := by
  rw [setWriteEvent]
  split
  · rfl
  · rename_i s' hop
    exact onHandler_notifyView hop

@[simp] theorem issue_notifyView
    (s : ConnState) (message : Bytes) :
    (s.issue message).notifyView = s.notifyView := by
  rfl

@[simp] theorem accept_notifyView
    (s : ConnState) (bytes : Bytes) :
    (s.accept bytes).notifyView = s.notifyView := by
  rfl

@[simp] theorem handleError_notifyView
    (s : ConnState) :
    s.handleError.notifyView = s.notifyView := by
  rw [handleError]
  split
  · rfl
  · simp [notifyView, addEvents, ConnEvent.isHighWaterMark,
      ConnEvent.queuesWriteComplete]

@[simp] theorem setWriting_notifyView
    (s : ConnState) (on : Bool) :
    (s.setWriting on).notifyView =
      { s.notifyView with writing_ := on } := by
  rfl

@[simp] theorem setWriteBuffer_notifyView
    (s : ConnState) (b : Buffer) :
    (s.setWriteBuffer b).notifyView =
      { s.notifyView with writeBuffer_ := b } := by
  rfl

theorem queueWriteComplete_notifyView
    {s : ConnState}
    (hcb : s.notifyView.writeCompleteCallback_.isSome = true) :
    s.queueWriteComplete.notifyView =
      { s.notifyView with
        writeCompletes := s.notifyView.writeCompletes + 1 } := by
  obtain ⟨cb, hcb⟩ := Option.isSome_iff_exists.mp hcb
  have hset : s.conn.writeCompleteCallback_ = some cb := hcb
  simp [queueWriteComplete, hset, notifyView, addEvents,
    ConnEvent.isHighWaterMark, ConnEvent.queuesWriteComplete]

@[simp] theorem bufferRest_notifyView
    (s : ConnState) (rest : Bytes) :
    (s.bufferRest rest).notifyView = s.notifyView.buffer rest := by
  rw [bufferRest, startWriting]
  split
  · rename_i hwriting
    have hset : s.conn.writing_ = true := hwriting
    simp [NotifyView.buffer, notifyView, setWriteBuffer, hset]
  · rw [setWriting_notifyView, setWriteEvent_notifyView]
    rfl

/-- A callback that neither writes on the connection nor changes its
callbacks. -/
def LeavesNotifications (code : UserCode) : Prop :=
  ∀ s s', code s = some s' → s'.notifyView = s.notifyView

theorem notifyHighWaterMark_notifyView
    {onHighWaterMark : UserCode}
    (hcode : LeavesNotifications onHighWaterMark)
    {s s' : ConnState} {remaining : Nat}
    (hcb : s.notifyView.highWaterMarkCallback_.isSome = true)
    (hnotify :
      s.notifyHighWaterMark onHighWaterMark remaining = some s') :
    s'.notifyView =
      { s.notifyView with
        highWaterCalls :=
          s.notifyView.highWaterCalls +
            if s.crossesHighWaterMark remaining = true
            then 1 else 0 } := by
  obtain ⟨cb, hcb⟩ := Option.isSome_iff_exists.mp hcb
  have hset : s.conn.highWaterMarkCallback_ = some cb := hcb
  unfold notifyHighWaterMark at hnotify
  split at hnotify
  · rename_i hcross
    rw [hset] at hnotify
    rw [hcode _ _ hnotify, if_pos hcross]
    simp [notifyView, addEvents, ConnEvent.isHighWaterMark,
      ConnEvent.queuesWriteComplete]
  · rename_i hcross
    cases hnotify
    rw [if_neg hcross]
    rfl

/-- The step of an operation that makes no notification. -/
theorem notifiesExactly_of_quiet
    {mark : Nat} {s s' : ConnState} {op : OutputOp}
    (hcalls :
      s'.notifyView.highWaterCalls = s.notifyView.highWaterCalls)
    (hqueued :
      s'.notifyView.writeCompletes = s.notifyView.writeCompletes)
    (hmark : ¬ s.notifyView.Reaches mark s'.notifyView)
    (hwrote :
      ¬ (s.writeSucceeds op = true ∧ s'.notifyView.unsent = 0)) :
    NotifiesExactly mark s op s' := by
  constructor
  · rw [if_neg hmark, hcalls]
    rfl
  · rw [if_neg hwrote, hqueued]
    rfl

/-- Below the mark, as much as the test of writeInLoop sees it. -/
theorem crossesHighWaterMark_iff
    {mark remaining : Nat} {s : ConnState}
    (hs : s.notifyView.Holds mark) :
    s.crossesHighWaterMark remaining = true ↔
      s.notifyView.unsent < mark ∧
        mark ≤ s.notifyView.unsent + remaining := by
  have hmark : s.conn.highWaterMark_ = mark := hs.highWaterMark
  rw [crossesHighWaterMark]
  rw [decide_eq_true_eq, hmark]
  exact and_comm

/-- writeInLoop with something left to keep. -/
theorem writeInLoop_buffers
    {mark : Nat} {onHighWaterMark : UserCode}
    (hcode : LeavesNotifications onHighWaterMark)
    {s t s' : ConnState} {rest : Bytes}
    (hs : s.notifyView.Holds mark)
    (ht : t.notifyView = s.notifyView)
    (hrest : rest ≠ [])
    (hstep :
      (notifyHighWaterMark onHighWaterMark rest.length t).map
        (bufferRest rest) = some s') :
    s'.notifyView.Holds mark ∧
      s'.notifyView.unsent = s.notifyView.unsent + rest.length ∧
      s'.notifyView.writeCompletes = s.notifyView.writeCompletes ∧
      s'.notifyView.highWaterCalls =
        s.notifyView.highWaterCalls +
          if s.notifyView.Reaches mark s'.notifyView then 1 else 0 := by
  obtain ⟨u, hnotify, rfl⟩ := Option.map_eq_some_iff.mp hstep
  have htholds : t.notifyView.Holds mark := ht ▸ hs
  have hu :=
    notifyHighWaterMark_notifyView hcode htholds.highWaterInstalled hnotify
  have huholds : u.notifyView.Holds mark := by
    rw [hu, ht]
    exact ⟨hs.valid, hs.writing_iff, hs.highWaterMark,
      hs.highWaterInstalled, hs.writeCompleteInstalled⟩
  have hunsent :
      (u.notifyView.buffer rest).unsent =
        s.notifyView.unsent + rest.length := by
    rw [huholds.buffer_unsent, hu, ht]
    rfl
  have hreaches :
      s.notifyView.Reaches mark (u.notifyView.buffer rest) ↔
        t.crossesHighWaterMark rest.length = true := by
    rw [crossesHighWaterMark_iff htholds, ht, NotifyView.Reaches, hunsent]
  rw [bufferRest_notifyView]
  refine ⟨huholds.buffer hrest, hunsent, ?_, ?_⟩
  · rw [NotifyView.buffer, hu, ht]
  · simp only [hreaches]
    rw [NotifyView.buffer, hu, ht]

/-- writeInLoop from its direct write on, unless that has taken the whole
message. -/
theorem writeInLoop_rest
    {mark : Nat} {onHighWaterMark : UserCode}
    (hcode : LeavesNotifications onHighWaterMark)
    {s t s' : ConnState} {op : OutputOp}
    {message : Bytes} {nwrote : Nat}
    (hs : s.notifyView.Holds mark)
    (ht : t.notifyView = s.notifyView)
    (hleft : s.writeSucceeds op = true → 0 < message.length - nwrote)
    (hstep :
      (if 0 < message.length - nwrote then
        (notifyHighWaterMark onHighWaterMark (message.length - nwrote)
          t).map (bufferRest (message.drop nwrote))
      else some t) = some s') :
    s'.notifyView.Holds mark ∧ NotifiesExactly mark s op s' := by
  by_cases hpos : 0 < message.length - nwrote
  · rw [if_pos hpos, ← List.length_drop] at hstep
    have hlength := List.length_drop (i := nwrote) (l := message)
    have hrest : message.drop nwrote ≠ [] := by
      intro hnil
      rw [hnil, List.length_nil] at hlength
      omega
    obtain ⟨hholds, hunsent, hqueued, hcalls⟩ :=
      writeInLoop_buffers hcode hs ht hrest hstep
    refine ⟨hholds, hcalls, ?_⟩
    rw [if_neg (by omega), hqueued]
    rfl
  · rw [if_neg hpos] at hstep
    cases hstep
    have hfails : ¬ s.writeSucceeds op = true := fun h => hpos (hleft h)
    refine ⟨ht ▸ hs, notifiesExactly_of_quiet (by rw [ht]) (by rw [ht])
      ?_ fun h => hfails h.1⟩
    rw [ht]
    rintro ⟨hbelow, habove⟩
    omega

theorem writeInLoop_notifies
    {mark : Nat} {onHighWaterMark : UserCode}
    (hcode : LeavesNotifications onHighWaterMark)
    {s s' : ConnState} {r : WriteResult} {message : Bytes}
    (hs : s.notifyView.Holds mark)
    (hstep : writeInLoop onHighWaterMark r message s = some s') :
    s'.notifyView.Holds mark ∧
      NotifiesExactly mark s
        (.writeInLoop onHighWaterMark r message) s' := by
  have hissue : (s.issue message).writesDirectly = s.writesDirectly := rfl
  unfold writeInLoop at hstep
  by_cases hdirect : s.writesDirectly = true
  · have hmade :
        s.writeMade (.writeInLoop onHighWaterMark r message) =
          some (r.returns message) := if_pos hdirect
    cases hreturns : r.returns message with
    | error e =>
        simp only [directWrite, hissue, if_pos hdirect, hreturns] at hstep
        split at hstep
        · cases hstep
        · refine writeInLoop_rest hcode hs (issue_notifyView s message)
            ?_ hstep
          intro hsucceeds
          simp [writeSucceeds, hmade, hreturns] at hsucceeds
    | ok nwrote =>
        simp only [directWrite, hissue, if_pos hdirect, hreturns] at hstep
        by_cases hall : message.length - nwrote = 0
        · have hsucceeds :
              s.writeSucceeds (.writeInLoop onHighWaterMark r message) =
                true := by
            simp [writeSucceeds, hmade, hreturns]
          have hempty : s.notifyView.unsent = 0 := by
            simp only [writesDirectly, Bool.and_eq_true,
              decide_eq_true_eq] at hdirect
            exact hdirect.2
          have hview :=
            @queueWriteComplete_notifyView
              ((s.issue message).accept (message.take nwrote))
              hs.writeCompleteInstalled
          simp only [hall, if_true, Nat.lt_irrefl, if_false] at hstep
          cases hstep
          rw [hview]
          refine ⟨⟨hs.valid, hs.writing_iff, hs.highWaterMark,
            hs.highWaterInstalled, hs.writeCompleteInstalled⟩, ?_, ?_⟩
          · rw [hview, if_neg]
            · rfl
            · rintro ⟨hbelow, habove⟩
              exact absurd hbelow (Nat.not_lt.mpr habove)
          · rw [hview, if_pos ⟨hsucceeds, hempty⟩]
            rfl
        · simp only [if_neg hall, Bool.false_eq_true, if_false] at hstep
          exact writeInLoop_rest hcode hs
            (accept_notifyView (s.issue message) (message.take nwrote))
            (fun _ => Nat.pos_of_ne_zero hall) hstep
  · have hskipped : ¬ (s.issue message).writesDirectly = true := hdirect
    rw [directWrite_skipped r message hskipped] at hstep
    simp only [Bool.false_eq_true, if_false] at hstep
    have hmade :
        s.writeMade (.writeInLoop onHighWaterMark r message) = none :=
      if_neg hdirect
    refine writeInLoop_rest hcode hs (issue_notifyView s message) ?_ hstep
    intro hsucceeds
    simp [writeSucceeds, hmade] at hsucceeds

theorem shrinkWriteBuffer_notifyView
    (s : ConnState) :
    ∃ b : Buffer,
      s.shrinkWriteBuffer.notifyView =
        { s.notifyView with writeBuffer_ := b } ∧
      (s.conn.writeBuffer_.Valid → b.Valid ∧
        b.readableBytes = s.notifyView.unsent) := by
  rw [shrinkWriteBuffer]
  split
  · obtain ⟨hvalid, hslice⟩ := s.conn.writeBuffer_.shrink_valid 0
    refine ⟨_, rfl, fun hbuffer => ⟨hvalid, ?_⟩⟩
    change (s.conn.writeBuffer_.shrink 0).readableBytes = _
    rw [← hvalid.length_readableSlice, hslice,
      hbuffer.length_readableSlice]
    rfl
  · exact ⟨s.conn.writeBuffer_, rfl, fun hbuffer => ⟨hbuffer, rfl⟩⟩

/-- The last bytes are written: the functor is queued once. -/
theorem finishWriting_notifyView
    {mark : Nat} {s : ConnState}
    (hvalid : s.notifyView.writeBuffer_.Valid)
    (hempty : s.notifyView.unsent = 0)
    (hmark : s.notifyView.highWaterMark_ = mark)
    (hhigh : s.notifyView.highWaterMarkCallback_.isSome = true)
    (hcomplete : s.notifyView.writeCompleteCallback_.isSome = true) :
    s.finishWriting.notifyView.Holds mark ∧
      s.finishWriting.notifyView.unsent = 0 ∧
      s.finishWriting.notifyView.highWaterCalls =
        s.notifyView.highWaterCalls ∧
      s.finishWriting.notifyView.writeCompletes =
        s.notifyView.writeCompletes + 1 := by
  generalize ht : (s.setWriteEvent false).setWriting false = t
  have htview :
      t.notifyView = { s.notifyView with writing_ := false } := by
    rw [← ht, setWriting_notifyView, setWriteEvent_notifyView]
  have hqueued :=
    @queueWriteComplete_notifyView t (by rw [htview]; exact hcomplete)
  obtain ⟨b, hshrunk, hb⟩ :=
    shrinkWriteBuffer_notifyView t.queueWriteComplete
  have hbuffer : t.queueWriteComplete.conn.writeBuffer_.Valid := by
    have hsame :
        t.queueWriteComplete.notifyView.writeBuffer_ =
          s.notifyView.writeBuffer_ := by
      rw [hqueued, htview]
    change t.queueWriteComplete.notifyView.writeBuffer_.Valid
    rw [hsame]
    exact hvalid
  obtain ⟨hbvalid, hbempty⟩ := hb hbuffer
  have hzero : b.readableBytes = 0 := by
    rw [hbempty, hqueued, htview]
    exact hempty
  have hview :
      s.finishWriting.notifyView =
        { s.notifyView with
          writing_ := false
          writeBuffer_ := b
          writeCompletes := s.notifyView.writeCompletes + 1 } := by
    rw [finishWriting]
    rw [ht, hshrunk, hqueued, htview]
  rw [hview]
  refine ⟨⟨hbvalid, ?_, hmark, hhigh, hcomplete⟩, hzero, rfl, rfl⟩
  constructor
  · intro hfalse
    cases hfalse
  · intro hne
    exact absurd hzero hne

theorem retrieveWritten_unsent
    {mark : Nat} {s : ConnState} (hs : s.notifyView.Holds mark) (n : Nat) :
    (s.retrieveWritten n).notifyView.unsent = s.notifyView.unsent - n := by
  have hslice :=
    congrArg List.length (hs.valid.retrieve_readableSlice n)
  rw [(hs.valid.retrieve n).length_readableSlice, List.length_drop,
    hs.valid.length_readableSlice] at hslice
  exact hslice

theorem handleWrite_notifies
    {mark : Nat} {s : ConnState} (hs : s.notifyView.Holds mark)
    (r : WriteResult) :
    (s.handleWrite r).notifyView.Holds mark ∧
      NotifiesExactly mark s (.handleWrite r) (s.handleWrite r) := by
  have hstay : ¬ s.notifyView.Reaches mark s.notifyView := by
    rintro ⟨hbelow, habove⟩
    omega
  rw [handleWrite]
  by_cases hwriting : s.conn.writing_ = true
  · have hpending : s.notifyView.unsent ≠ 0 := hs.writing_iff.mp hwriting
    have hmade :
        s.writeMade (.handleWrite r) =
          some (r.returns s.conn.writeBuffer_.readableSlice) :=
      if_pos hwriting
    have herror :
        s.handleError.notifyView.Holds mark ∧
          NotifiesExactly mark s (.handleWrite r) s.handleError := by
      have hview := handleError_notifyView s
      refine ⟨hview ▸ hs, notifiesExactly_of_quiet (by rw [hview])
        (by rw [hview]) (by rw [hview]; exact hstay) ?_⟩
      rw [hview]
      exact fun h => hpending h.2
    rw [if_pos hwriting]
    cases hreturns : r.returns s.conn.writeBuffer_.readableSlice with
    | error e =>
        exact herror
    | ok n =>
        by_cases hn : 0 < n
        · simp only [if_pos hn]
          have hsucceeds : s.writeSucceeds (.handleWrite r) = true := by
            simp [writeSucceeds, hmade, hreturns]
          have hunsent := retrieveWritten_unsent hs n
          have hvalid := hs.valid.retrieve n
          rw [drained]
          by_cases hzero :
              (s.retrieveWritten n).conn.writeBuffer_.readableBytes = 0
          · rw [if_pos hzero]
            obtain ⟨hholds, hempty, hcalls, hqueued⟩ :=
              @finishWriting_notifyView mark (s.retrieveWritten n) hvalid
                hzero hs.highWaterMark hs.highWaterInstalled
                hs.writeCompleteInstalled
            refine ⟨hholds, ?_, ?_⟩
            · rw [hcalls, if_neg]
              · rfl
              · rintro ⟨hbelow, habove⟩
                omega
            · rw [hqueued, if_pos ⟨hsucceeds, hempty⟩]
              rfl
          · rw [if_neg hzero]
            refine ⟨⟨hvalid, ?_, hs.highWaterMark,
              hs.highWaterInstalled, hs.writeCompleteInstalled⟩,
              notifiesExactly_of_quiet rfl rfl ?_ fun h => hzero h.2⟩
            · exact ⟨fun _ => hzero, fun _ => hwriting⟩
            · rintro ⟨hbelow, habove⟩
              omega
        · simp only [if_neg hn]
          exact herror
  · rw [if_neg hwriting]
    have hmade : s.writeMade (.handleWrite r) = none := if_neg hwriting
    refine ⟨hs, notifiesExactly_of_quiet rfl rfl hstay ?_⟩
    simp [writeSucceeds, hmade]

/-- writeInLoop, with a high-water-mark callback that does not write, or
handleWrite. -/
def Notifies : OutputOp → Prop
  | .writeInLoop onHighWaterMark _ _ =>
      LeavesNotifications onHighWaterMark
  | .handleWrite _ => True
  | _ => False

theorem outputStep_notifies
    {mark : Nat} {s s' : ConnState} {op : OutputOp}
    (hs : s.notifyView.Holds mark) (hop : Notifies op)
    (hstep : s.outputStep op = some s') :
    s'.notifyView.Holds mark ∧ NotifiesExactly mark s op s' := by
  cases op with
  | writeInLoop onHighWaterMark r message =>
      exact writeInLoop_notifies hop hs hstep
  | handleWrite r =>
      cases hstep
      exact handleWrite_notifies hs r
  | write onHighWaterMark r message =>
      cases hop
  | shutdown =>
      cases hop
  | setHighWaterMarkCallback highWaterMark cb =>
      cases hop
  | setWriteCompleteCallback cb =>
      cases hop
  | setErrorCallback cb =>
      cases hop

/-- A new connection with both callbacks installed. -/
def notifying
    (handler : IOHandler ConnHandlerCallback) (quit : Bool)
    (mark : Nat) (highWater complete : UserCallback) : ConnState :=
  ((TCPConnection.create handler quit).setHighWaterMarkCallback mark
    (some highWater)).setWriteCompleteCallback (some complete)

theorem notifying_holds
    (handler : IOHandler ConnHandlerCallback) (quit : Bool)
    (mark : Nat) (highWater complete : UserCallback) :
    (notifying handler quit mark highWater complete).notifyView.Holds
      mark := by
  have hview := create_outputView handler quit
  have hbuffer := congrArg OutputView.writeBuffer_ hview
  have hwriting := congrArg OutputView.writing_ hview
  have hvalid : (Buffer.empty : Buffer).Valid := Buffer.ofSize_valid _
  constructor
  · change (TCPConnection.create handler
      quit).outputView.writeBuffer_.Valid
    rw [hbuffer]
    exact hvalid
  · have hzero :
        (TCPConnection.create handler quit).conn.writeBuffer_.readableBytes =
          0 := by
      change (TCPConnection.create handler
        quit).outputView.writeBuffer_.readableBytes = 0
      rw [hbuffer]
      rfl
    constructor
    · intro htrue
      exact absurd (hwriting.symm.trans htrue) (by decide)
    · intro hne
      exact absurd hzero hne
  · rfl
  · rfl
  · rfl

/-- The backlog between two calls of the high-water-mark callback: the first
one leaves it at the mark or above, the second one finds it below. -/
def BelowBetween
    (mark : Nat) (s₀ : ConnState) (ops : List OutputOp) : Prop :=
  ∀ before op mid op' after s₁ s₂ s₃ s₄,
    ops = before ++ op :: mid ++ op' :: after →
    run outputStep s₀ before = some s₁ →
    s₁.outputStep op = some s₂ →
    run outputStep s₂ mid = some s₃ →
    s₃.outputStep op' = some s₄ →
    s₁.notifyView.highWaterCalls < s₂.notifyView.highWaterCalls →
    s₃.notifyView.highWaterCalls < s₄.notifyView.highWaterCalls →
      mark ≤ s₂.notifyView.unsent ∧ s₃.notifyView.unsent < mark

/-- An operation that calls the high-water-mark callback raises the backlog
from below the mark. -/
theorem NotifiesExactly.reaches
    {mark : Nat} {s s' : ConnState} {op : OutputOp}
    (h : NotifiesExactly mark s op s')
    (hcalls :
      s.notifyView.highWaterCalls < s'.notifyView.highWaterCalls) :
    s.notifyView.Reaches mark s'.notifyView := by
  by_contra hnot
  have hsame := h.highWater
  rw [if_neg hnot] at hsame
  omega

/-- Write-complete and high-water notifications are exact. -/
theorem notifications_exact
    (handler : IOHandler ConnHandlerCallback) (quit : Bool)
    (mark : Nat) (highWater complete : UserCallback)
    {ops : List OutputOp} (hops : ∀ op ∈ ops, Notifies op) :
    EveryStep outputStep (NotifiesExactly mark)
        (notifying handler quit mark highWater complete) ops ∧
      BelowBetween mark
        (notifying handler quit mark highWater complete) ops := by
  have hsteps :=
    everyStep_of_invariant
      (I := fun s : ConnState => s.notifyView.Holds mark)
      (P := Notifies)
      (fun _ _ _ hs hop hstep => outputStep_notifies hs hop hstep)
      (notifying_holds handler quit mark highWater complete) hops
  refine ⟨hsteps, ?_⟩
  rintro before op mid op' after s₁ s₂ s₃ s₄ rfl hbefore hop hmid hop'
    hfirst hsecond
  have hrun :
      run outputStep (notifying handler quit mark highWater complete)
        (before ++ op :: mid) = some s₃ := by
    rw [run_append, hbefore, Option.bind_some, run_cons, hop,
      Option.bind_some]
    exact hmid
  have hlast := everyStep_at hsteps hrun hop'
  rw [List.append_assoc] at hsteps
  have hfore := everyStep_at hsteps hbefore hop
  exact ⟨(hfore.reaches hfirst).2, (hlast.reaches hsecond).1⟩

/-- A message that comes up to a mark of three bytes, and two writable events
that drain it. -/
theorem notifications_exact_drained :
    let ops : List OutputOp :=
      [.writeInLoop some (.takes 1) [1, 2, 3, 4], .handleWrite (.takes 2),
        .handleWrite (.takes 2)]
    (run outputStep (notifying (.create 7) false 3 1 2) ops).map
        (fun s => (s.notifyView.highWaterCalls,
          s.notifyView.writeCompletes)) = some (1, 1) ∧
      EveryStep outputStep (NotifiesExactly 3)
        (notifying (.create 7) false 3 1 2) ops ∧
      BelowBetween 3 (notifying (.create 7) false 3 1 2) ops := by
  intro ops
  refine ⟨by decide +kernel, ?_⟩
  refine notifications_exact (.create 7) false 3 1 2 ?_
  intro op hop
  rcases List.mem_cons.mp hop with rfl | hop
  · rintro s s' hsome
    cases hsome
    rfl
  · rcases List.mem_cons.mp hop with rfl | hop
    · trivial
    · rcases List.mem_cons.mp hop with rfl | hop
      · trivial
      · cases hop

end ConnState

end Hohnor
