import Hohnor.BufferQueue
import Hohnor.TCPConnection

/-!
# Runs of one connection

Everything that can happen to a `TCPConnection` in its loop thread, one step at
a time: the calls of its public operations, the operations on the buffers that
it hands out, the events that its handler dispatches to it and the functor that
handleClose queues.

Two operations call a user's function in the middle: a write its
high-water-mark callback and handleRead its read-complete callback.  Such a
call ends the step and leaves what is still to do in `frames`; what the user's
function does are the steps that follow, and `finishCall` is its return.  All
other callbacks are called last, so what they do simply follows.
-/

namespace Hohnor

/-- The rest of an operation that waits for a user's function. -/
inductive CallFrame where
  | writeRest (rest : Bytes)
  | readTail
deriving DecidableEq, Repr

inductive ConnOp where
  | write (r : WriteResult) (message : Bytes)
  | writeBuffer (r : WriteResult) (buffer : Buffer)
  | writePending
  | appendAndWrite (data : Bytes)
  | readRaw
  | readUntil (delimiter : Bytes)
  | readBytes (length : Nat)
  | readUntilCondition (condition : ReadStopCondition)
  | setTCPNoDelay (on : Bool)
  | shutdown
  | forceClose
  | setHighWaterMarkCallback (highWaterMark : Nat)
      (cb : Option UserCallback)
  | setReadCompleteCallback (cb : Option UserCallback)
  | setWriteCompleteCallback (cb : Option UserCallback)
  | setCloseCallback (cb : Option UserCallback)
  | setErrorCallback (cb : Option UserCallback)
  | onReadBuffer (op : BufferOp)
  | onWriteBuffer (op : BufferOp)
  | readEvent (r : ReadResult)
  | writeEvent (r : WriteResult)
  | closeEvent
  | errorEvent
  | runDisable
  | finishCall

/-- A connection with the operations that wait for a user's function, innermost
first.  `disablesRun` counts the queued disable functors that the loop has run,
`closeExecuted` records that forceClose or such a functor has. -/
structure ConnRun where
  state : ConnState
  frames : List CallFrame
  disablesRun : Nat
  closeExecuted : Bool

namespace ConnState

/-- `TCPConnection::setTCPNoDelay`: an option of the socket, which no modelled
operation reads. -/
def setTCPNoDelay (_on : Bool) (s : ConnState) : ConnState := s

/-- `getWriteBuffer().append(data)` and then `write()`. -/
def appendAndWrite (data : Bytes) (s : ConnState) : Option ConnState :=
  (s.setWriteBuffer (s.conn.writeBuffer_.append data)).writePending

/-- Functors of handleClose in the loop's queue so far. -/
def queuedDisables (s : ConnState) : Nat :=
  s.events.count (.queued .disableHandler)

/-- The handler would call `cb` for an event of its kind. -/
def dispatchesTo
    (callback : IOHandler ConnHandlerCallback → Option ConnHandlerCallback)
    (cb : ConnHandlerCallback) (s : ConnState) : Bool :=
  match s.conn.socketHandler_ with
  | none => false
  | some h => callback h = some cb

end ConnState

/-- What is left of an operation when the user's function returns. -/
def CallFrame.finish : CallFrame → ConnState → Option ConnState
  | .writeRest rest, s => (s.bufferRest rest).enableIfDisabled
  | .readTail, s => some s.shrinkReadBuffer

namespace ConnState

/-- The high-water-mark callback that a write with `remaining` bytes left
calls. -/
def highWaterMarkCall (remaining : Nat) (s : ConnState) :
    Option UserCallback :=
  if s.crossesHighWaterMark remaining then
    s.conn.highWaterMarkCallback_
  else
    none

/-- `TCPConnection::write` of a message up to its end or to the call of the
high-water-mark callback. -/
def beginWrite (r : WriteResult) (message : Bytes) (s : ConnState) :
    Option (ConnState × Option CallFrame) :=
  if s.isClosed then
    s.enableIfDisabled.map (·, none)
  else
    let d := (s.issue message).directWrite r message
    if d.faultError then
      none
    else if 0 < message.length - d.nwrote then
      match d.after.highWaterMarkCall (message.length - d.nwrote) with
      | none =>
          ((d.after.bufferRest
            (message.drop d.nwrote)).enableIfDisabled).map (·, none)
      | some cb =>
          some
            (d.after.addEvents [.highWaterMark cb],
              some (.writeRest (message.drop d.nwrote)))
    else
      d.after.enableIfDisabled.map (·, none)

/-- The read-complete callback that handleRead calls if the stop condition is
met. -/
def readCompleteCall (stop : Bool) (s : ConnState) :
    Option UserCallback :=
  if stop then s.conn.readCompleteCallback_ else none

/-- `TCPConnection::handleRead` up to its end or to the call of the
read-complete callback. -/
def beginRead (r : ReadResult) (s : ConnState) :
    Option (ConnState × Option CallFrame) :=
  match r with
  | .fails _ => some (s.handleError, none)
  | .delivers [] => some (s.handleClose, none)
  | .delivers (b :: data) =>
      let s' :=
        s.setReadBuffer
          (s.conn.readBuffer_.readFd (.delivers (b :: data)))
      s'.stopsReading.map fun stop =>
        match s'.readCompleteCall stop with
        | none => (s'.shrinkReadBuffer, none)
        | some cb => (s'.addEvents [.readComplete cb], some .readTail)

/-- Run `code` as the user's function, if one was called, and the rest of the
operation after it. -/
def complete (code : UserCode) (r : ConnState × Option CallFrame) :
    Option ConnState :=
  match r.2 with
  | none => some r.1
  | some frame => (code r.1).bind frame.finish

/-- A write call is the step that begins it, what the high-water-mark callback
does, and the rest. -/
theorem write_eq_complete
    (code : UserCode) (r : WriteResult) (message : Bytes)
    (s : ConnState) :
    s.write code r message =
      (s.beginWrite r message).bind (complete code) := by
  unfold write writeInLoop beginWrite
  cases hclosed : s.isClosed with
  | true =>
      simp only [if_true]
      cases s.enableIfDisabled with
      | none => rfl
      | some s' => rfl
  | false =>
      simp only [Bool.false_eq_true, if_false]
      generalize (s.issue message).directWrite r message = d
      cases hfault : d.faultError with
      | true =>
          rfl
      | false =>
          simp only [Bool.false_eq_true, if_false]
          by_cases hrest : 0 < message.length - d.nwrote
          · simp only [hrest, if_true, notifyHighWaterMark,
              highWaterMarkCall]
            cases d.after.crossesHighWaterMark
                (message.length - d.nwrote) with
            | true =>
                cases d.after.conn.highWaterMarkCallback_ with
                | none =>
                    simp [complete, Option.bind_map]
                | some cb =>
                    simp only [if_true, Option.bind_some, complete,
                      Option.bind_map]
                    rfl
            | false =>
                simp [complete, Option.bind_map]
          · simp [hrest, complete, Option.bind_map]

/-- A read event is the step that begins it, what the read-complete callback
does, and the rest. -/
theorem handleRead_eq_complete
    (code : UserCode) (r : ReadResult) (s : ConnState) :
    s.handleRead code r = (s.beginRead r).bind (complete code) := by
  cases r with
  | fails savedErrno =>
      rfl
  | delivers data =>
      cases data with
      | nil =>
          rfl
      | cons b data =>
          simp only [handleRead, beginRead, dispatchRead,
            readCompleteCall]
          generalize s.setReadBuffer _ = s'
          cases s'.stopsReading with
          | none =>
              rfl
          | some stop =>
              cases stop with
              | false =>
                  rfl
              | true =>
                  simp only [if_true, Option.bind_some, Option.map_some,
                    notifyReadComplete]
                  cases s'.conn.readCompleteCallback_ with
                  | none =>
                      rfl
                  | some cb =>
                      simp only [complete, Option.map_eq_bind]
                      rfl

end ConnState

namespace ConnState

/-- A part of the state that nothing inside of writeInLoop and handleWrite
changes. -/
structure KeptByWriting {V : Type} (v : ConnState → V) : Prop where
  issue : ∀ s message, v (s.issue message) = v s
  accept : ∀ s bytes, v (s.accept bytes) = v s
  setWriting : ∀ s on, v (s.setWriting on) = v s
  setWriteBuffer : ∀ s b, v (s.setWriteBuffer b) = v s
  setWriteEvent : ∀ s on, v (s.setWriteEvent on) = v s
  writeComplete :
    ∀ s cb, v (s.addEvents [.queued (.writeComplete cb)]) = v s
  highWaterMark : ∀ s cb, v (s.addEvents [.highWaterMark cb]) = v s
  error : ∀ s cb, v (s.addEvents [.error cb]) = v s

namespace KeptByWriting

variable {V : Type} {v : ConnState → V}

theorem queueWriteComplete
    (hv : KeptByWriting v) (s : ConnState) :
    v s.queueWriteComplete = v s := by
  rw [ConnState.queueWriteComplete]
  split
  · rfl
  · exact hv.writeComplete s _

theorem handleError
    (hv : KeptByWriting v) (s : ConnState) :
    v s.handleError = v s := by
  rw [ConnState.handleError]
  split
  · rfl
  · exact hv.error s _

theorem directWrite
    (hv : KeptByWriting v)
    (r : WriteResult) (message : Bytes) (s : ConnState) :
    v (s.directWrite r message).after = v s := by
  rw [ConnState.directWrite]
  split
  · split
    · simp only
      split
      · rw [hv.queueWriteComplete, hv.accept]
      · exact hv.accept s _
    · rfl
  · rfl

theorem bufferRest
    (hv : KeptByWriting v) (rest : Bytes) (s : ConnState) :
    v (s.bufferRest rest) = v s := by
  rw [ConnState.bufferRest, startWriting]
  split
  · exact hv.setWriteBuffer s _
  · rw [hv.setWriting, hv.setWriteEvent, hv.setWriteBuffer]

theorem finishWriting
    (hv : KeptByWriting v) (s : ConnState) :
    v s.finishWriting = v s := by
  have hshrink : ∀ t : ConnState, v t.shrinkWriteBuffer = v t := by
    intro t
    rw [shrinkWriteBuffer]
    split
    · exact hv.setWriteBuffer t _
    · rfl
  rw [ConnState.finishWriting, hshrink, hv.queueWriteComplete,
    hv.setWriting, hv.setWriteEvent]

theorem handleWrite
    (hv : KeptByWriting v) (r : WriteResult) (s : ConnState) :
    v (s.handleWrite r) = v s := by
  have hretrieve :
      ∀ n, v (s.retrieveWritten n) = v s := by
    intro n
    rw [retrieveWritten, hv.setWriteBuffer, hv.accept]
  rw [ConnState.handleWrite]
  split
  · split
    · split
      · rw [drained]
        split
        · rw [hv.finishWriting, hretrieve]
        · exact hretrieve _
      · exact hv.handleError s
    · exact hv.handleError s
  · rfl

/-- A write leaves the view up to the call of the high-water-mark callback, or
up to the test of isEnabled() at its end. -/
theorem beginWrite
    (hv : KeptByWriting v)
    {r : WriteResult} {message : Bytes} {s : ConnState}
    {out : ConnState × Option CallFrame}
    (hstep : s.beginWrite r message = some out) :
    (s.isClosed = false ∧ out.2.isSome = true ∧ v out.1 = v s) ∨
      (out.2 = none ∧
        ∃ t : ConnState, v t = v s ∧ t.enableIfDisabled = some out.1) := by
  have hview := hv.directWrite r message (s.issue message)
  rw [hv.issue] at hview
  rw [ConnState.beginWrite] at hstep
  split at hstep
  · obtain ⟨s', hs', rfl⟩ := Option.map_eq_some_iff.mp hstep
    exact .inr ⟨rfl, s, rfl, hs'⟩
  · rename_i hopen
    simp only at hstep
    split at hstep
    · cases hstep
    · split at hstep
      · split at hstep
        · obtain ⟨s', hs', rfl⟩ := Option.map_eq_some_iff.mp hstep
          exact .inr ⟨rfl, _, (hv.bufferRest _ _).trans hview, hs'⟩
        · cases hstep
          exact .inl ⟨Bool.not_eq_true _ ▸ hopen, rfl,
            (hv.highWaterMark _ _).trans hview⟩
      · obtain ⟨s', hs', rfl⟩ := Option.map_eq_some_iff.mp hstep
        exact .inr ⟨rfl, _, hview, hs'⟩

theorem writePending
    (hv : KeptByWriting v)
    {s s' : ConnState} (hstep : s.writePending = some s') :
    ∃ t : ConnState, v t = v s ∧ t.enableIfDisabled = some s' := by
  rw [ConnState.writePending] at hstep
  split at hstep
  · exact ⟨s, rfl, hstep⟩
  · obtain ⟨t, ht, hs'⟩ := Option.bind_eq_some_iff.mp hstep
    have hevent := hv.setWriteEvent s true
    rw [ConnState.setWriteEvent, ht] at hevent
    exact ⟨t, hevent, hs'⟩

theorem appendAndWrite
    (hv : KeptByWriting v)
    {data : Bytes} {s s' : ConnState}
    (hstep : s.appendAndWrite data = some s') :
    ∃ t : ConnState, v t = v s ∧ t.enableIfDisabled = some s' := by
  obtain ⟨t, ht, henable⟩ := hv.writePending hstep
  rw [hv.setWriteBuffer] at ht
  exact ⟨t, ht, henable⟩

end KeptByWriting

end ConnState

namespace ConnRun

/-- A connection that the constructor has made. -/
def start (handler : IOHandler ConnHandlerCallback) (quit : Bool) :
    ConnRun where
  state := TCPConnection.create handler quit
  frames := []
  disablesRun := 0
  closeExecuted := false

def setState (m : ConnRun) (s : ConnState) : ConnRun :=
  { m with state := s }

/-- Go on after a step that may have called a user's function. -/
def enter (m : ConnRun) (r : ConnState × Option CallFrame) : ConnRun :=
  { m with
    state := r.1
    frames := r.2.toList ++ m.frames }

/-- The loop runs a functor that handleClose has queued. -/
def runDisable (m : ConnRun) : Option ConnRun :=
  if m.frames = [] ∧ m.disablesRun < m.state.queuedDisables then
    (m.state.onHandler (fun h => h.disable m.state.quit_)).map fun s =>
      { m with
        state := s
        disablesRun := m.disablesRun + 1
        closeExecuted := true }
  else
    none

/-- The user's function returns. -/
def finishCall (m : ConnRun) : Option ConnRun :=
  match m.frames with
  | [] => none
  | frame :: frames =>
      (frame.finish m.state).map fun s =>
        { m with state := s, frames := frames }

def step (m : ConnRun) : ConnOp → Option ConnRun
  | .write r message => (m.state.beginWrite r message).map m.enter
  | .writeBuffer r buffer =>
      if 0 < buffer.readableBytes then
        (m.state.beginWrite r buffer.readableSlice).map m.enter
      else
        some m
  | .writePending => m.state.writePending.map m.setState
  | .appendAndWrite data =>
      (m.state.appendAndWrite data).map m.setState
  | .readRaw => m.state.readRaw.map m.setState
  | .readUntil delimiter => (m.state.readUntil delimiter).map m.setState
  | .readBytes length => (m.state.readBytes length).map m.setState
  | .readUntilCondition condition =>
      (m.state.readUntilCondition condition).map m.setState
  | .setTCPNoDelay on => some (m.setState (m.state.setTCPNoDelay on))
  | .shutdown => some (m.setState m.state.shutdown)
  | .forceClose =>
      some { m with state := m.state.forceClose, closeExecuted := true }
  | .setHighWaterMarkCallback highWaterMark cb =>
      some (m.setState (m.state.setHighWaterMarkCallback highWaterMark cb))
  | .setReadCompleteCallback cb =>
      some (m.setState (m.state.setReadCompleteCallback cb))
  | .setWriteCompleteCallback cb =>
      some (m.setState (m.state.setWriteCompleteCallback cb))
  | .setCloseCallback cb =>
      some (m.setState (m.state.setCloseCallback cb))
  | .setErrorCallback cb =>
      some (m.setState (m.state.setErrorCallback cb))
  | .onReadBuffer op =>
      if m.state.conn.readBuffer_.admits op then
        some
          (m.setState
            (m.state.setReadBuffer (m.state.conn.readBuffer_.perform op)))
      else
        none
  | .onWriteBuffer op =>
      if m.state.conn.writeBuffer_.admits op then
        some
          (m.setState
            (m.state.setWriteBuffer
              (m.state.conn.writeBuffer_.perform op)))
      else
        none
  | .readEvent r =>
      if m.frames = [] ∧
          m.state.dispatchesTo (·.readCallback_) .handleRead ∧
          m.state.conn.readBuffer_.admits (.readFd r) then
        (m.state.beginRead r).map m.enter
      else
        none
  | .writeEvent r =>
      if m.frames = [] ∧
          m.state.dispatchesTo (·.writeCallback_) .handleWrite then
        some (m.setState (m.state.handleWrite r))
      else
        none
  | .closeEvent =>
      if m.frames = [] ∧
          m.state.dispatchesTo (·.closeCallback_) .handleClose then
        some (m.setState m.state.handleClose)
      else
        none
  | .errorEvent =>
      if m.frames = [] ∧
          m.state.dispatchesTo (·.errorCallback_) .handleError then
        some (m.setState m.state.handleError)
      else
        none
  | .runDisable => m.runDisable
  | .finishCall => m.finishCall

end ConnRun

end Hohnor
