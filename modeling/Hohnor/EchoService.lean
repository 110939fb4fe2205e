import Hohnor.Pipelines
import Hohnor.ReadEvents
import Hohnor.StringConverter
import Hohnor.WriteInterest
import Hohnor.WriteNotifications

/-!
# The echo server and its client

`EchoServer` of example/TCPEcho/echo_server.cpp and `EchoClient` of
example/TCPEcho/echo_client.cpp, each over a `TCPConnection` in its own loop
thread, with the two directions of the stream between them.

A step is one event of one of the two loops.  The kernel chooses what it takes
at each `::write` and how many of the bytes on their way a read gets, and the
two loops run in any order.  An event is dispatched only where the handler is
enabled and has asked for it.

What the client gets back is a first part of what it has written, and as long
as both ends are connected the rest is in one of four queues in order:
this is a pipeline, and each event moves bytes along it.
-/

namespace Hohnor

open TransitionRuns FifoChannel Pipelines

/-- Calls of the close or error callback, which come last in an operation. -/
def ConnEvent.isEnding : ConnEvent → Bool
  | .closed _ => true
  | .error _ => true
  | _ => false

namespace ConnState

/-- The handler is enabled, has asked for the event and would call `cb`. -/
def awaits
    (bit : EventMask → Bool)
    (callback : IOHandler ConnHandlerCallback → Option ConnHandlerCallback)
    (cb : ConnHandlerCallback) (s : ConnState) : Bool :=
  match s.conn.socketHandler_ with
  | none => false
  | some h => h.isEnabled && bit h.events_ && decide (callback h = some cb)

def awaitsRead (s : ConnState) : Bool :=
  s.awaits (·.EPOLLIN) (·.readCallback_) .handleRead

def awaitsWrite (s : ConnState) : Bool :=
  s.awaits (·.EPOLLOUT) (·.writeCallback_) .handleWrite

/-- The close or error callback was called since `s`. -/
def endsSince (s s' : ConnState) : Bool :=
  (s'.events.drop s.events.length).any ConnEvent.isEnding

/-- Bytes that the kernel took since `s`. -/
def sentSince (s s' : ConnState) : Bytes :=
  s'.sent.drop s.sent.length

/-- What the user took out of the read buffer since `s`. -/
def takenSince (s s' : ConnState) : List Bytes :=
  s'.taken.drop s.taken.length

theorem takenSince_eq
    {s s' : ConnState} {bytes : List Bytes}
    (htaken : s'.taken = s.taken ++ bytes) :
    s.takenSince s' = bytes := by
  rw [takenSince, htaken, List.drop_left]

theorem takenSince_nil
    {s s' : ConnState} (htaken : s'.taken = s.taken) :
    s.takenSince s' = [] := by
  rw [takenSince, htaken, List.drop_length]

end ConnState

/-- The callbacks that both programs install on their connection. -/
def echoDataCallback : UserCallback := 0

def echoCloseCallback : UserCallback := 1

def echoErrorCallback : UserCallback := 2

/-- `EchoServer::handleNewConnection`, and the first part of
`EchoClient::handleNewConnection`. -/
def serveConnection (conn : ConnState) : Option ConnState :=
  (((conn.setReadCompleteCallback (some echoDataCallback)).setCloseCallback
    (some echoCloseCallback)).setErrorCallback
      (some echoErrorCallback)).readRaw

/-- `readBuffer.retrieveAllAsString()`. -/
def ConnState.retrieveAllInput (s : ConnState) : ConnState :=
  (s.setReadBuffer s.conn.readBuffer_.retrieveAllAsString.2).addEvents
    [.taken s.conn.readBuffer_.retrieveAllAsString.1]

/-- `EchoServer::handleClientData`; `r` answers the `::write` of the echo. -/
def EchoServer.handleClientData (r : WriteResult) : UserCode :=
  fun conn =>
    if 0 < conn.conn.readBuffer_.readableBytes then
      (conn.retrieveAllInput.write some r
        conn.conn.readBuffer_.retrieveAllAsString.1).bind ConnState.readRaw
    else
      some conn

/-- `EchoClient::handleServerResponse` of a connected client. -/
def EchoClient.handleServerResponse : UserCode :=
  fun conn =>
    if 0 < conn.conn.readBuffer_.readableBytes then
      conn.retrieveAllInput.readRaw
    else
      some conn

/-- The bytes of ASCII characters. -/
def asciiBytes (text : List Char) : Bytes :=
  text.map fun c => UInt8.ofNat c.toNat

/-- `std::to_string`. -/
def toStringBytes (value : Int) : Bytes :=
  asciiBytes (StringConverter.decimalText value)

/-- The text of a char literal in the source. -/
def asciiText (text : String) : Bytes :=
  asciiBytes text.toList

/-- The message of `EchoClient::sendMessage`; `now` is the formatted time. -/
def EchoClient.message (messageCount : Nat) (now : Bytes) : Bytes :=
  asciiText "Hello from client #" ++ toStringBytes messageCount ++
    asciiText " at " ++ now ++ asciiText "\n"

/-- `server` is the connection in clients_ and `client` the one in
connection_: none once it has been closed and dropped.  connected_ and
running_ of the client are set exactly as long as it is there.  `toServer` and
`toClient` are the bytes that one kernel took and the other loop has not read.
`written` and `received` collect what the client writes and what it takes out of
its read buffer. -/
structure EchoSystem where
  server : Option ConnState
  client : Option ConnState
  messageCount_ : Nat
  toServer : Bytes
  toClient : Bytes
  written : Bytes
  received : Bytes

inductive EchoEvent where
  | sendMessage (now : Bytes) (r : WriteResult)
  | serverReadable (n : Nat) (r : WriteResult)
  | serverWritable (r : WriteResult)
  | clientReadable (n : Nat)
  | clientWritable (r : WriteResult)
  | serverReadFails (e : Errno)
  | clientReadFails (e : Errno)
  | serverHangup
  | clientHangup
  | serverError
  | clientError
  | serverStop
  | clientStop

namespace EchoSystem

/-- Run an operation of the server's connection.  Its close and error callbacks
call handleClientDisconnect, which closes the connection and erases it. -/
def onServer (s : EchoSystem) (op : ConnState → Option ConnState) :
    Option EchoSystem :=
  s.server.bind fun conn =>
    (op conn).map fun conn' =>
      { s with
        server := if conn.endsSince conn' then none else some conn'
        toClient := s.toClient ++ conn.sentSince conn' }

/-- Run an operation of the client's connection.  Its close and error callbacks
end the client's loop. -/
def onClient (s : EchoSystem) (op : ConnState → Option ConnState) :
    Option EchoSystem :=
  s.client.bind fun conn =>
    (op conn).map fun conn' =>
      { s with
        client := if conn.endsSince conn' then none else some conn'
        toServer := s.toServer ++ conn.sentSince conn'
        received := s.received ++ (conn.takenSince conn').flatten }

/-- `EchoClient::sendMessage`. -/
def sendMessage (s : EchoSystem) (now : Bytes) (r : WriteResult) :
    Option EchoSystem :=
  let message := EchoClient.message (s.messageCount_ + 1) now
  ({ s with
      messageCount_ := s.messageCount_ + 1
      written := s.written ++ message }).onClient
    (ConnState.write some r message)

/-- The end has a connection for which the event can be dispatched. -/
def pollable
    (conn : Option ConnState) (p : ConnState → Bool) : Bool :=
  match conn with
  | none => false
  | some conn => p conn

/-- A read of `n` bytes out of those on their way. -/
def readsSome (n : Nat) (wire : Bytes) (conn : ConnState) : Bool :=
  conn.awaitsRead && decide (0 < n) && decide (n ≤ wire.length) &&
    decide (n ≤ conn.conn.readBuffer_.readFdOffered)

def step (s : EchoSystem) : EchoEvent → Option EchoSystem
  | .sendMessage now r => s.sendMessage now r
  | .serverReadable n r =>
      if pollable s.server (readsSome n s.toServer) then
        ({ s with toServer := s.toServer.drop n }).onServer
          (ConnState.handleRead (EchoServer.handleClientData r)
            (.delivers (s.toServer.take n)))
      else
        none
  | .serverWritable r =>
      if pollable s.server ConnState.awaitsWrite then
        s.onServer (some ∘ ConnState.handleWrite r)
      else
        none
  | .clientReadable n =>
      if pollable s.client (readsSome n s.toClient) then
        ({ s with toClient := s.toClient.drop n }).onClient
          (ConnState.handleRead EchoClient.handleServerResponse
            (.delivers (s.toClient.take n)))
      else
        none
  | .clientWritable r =>
      if pollable s.client ConnState.awaitsWrite then
        s.onClient (some ∘ ConnState.handleWrite r)
      else
        none
  | .serverReadFails e =>
      if pollable s.server ConnState.awaitsRead then
        s.onServer (ConnState.handleRead (EchoServer.handleClientData
          (.takes 0)) (.fails e))
      else
        none
  | .clientReadFails e =>
      if pollable s.client ConnState.awaitsRead then
        s.onClient (ConnState.handleRead EchoClient.handleServerResponse
          (.fails e))
      else
        none
  | .serverHangup =>
      if pollable s.server ConnState.awaitsRead ∧
          s.client.isNone ∧ s.toServer = [] then
        s.onServer (ConnState.handleRead (EchoServer.handleClientData
          (.takes 0)) (.delivers []))
      else
        none
  | .clientHangup =>
      if pollable s.client ConnState.awaitsRead ∧
          s.server.isNone ∧ s.toClient = [] then
        s.onClient (ConnState.handleRead EchoClient.handleServerResponse
          (.delivers []))
      else
        none
  | .serverError => s.onServer (some ∘ ConnState.handleError)
  | .clientError => s.onClient (some ∘ ConnState.handleError)
  | .serverStop => some { s with server := none }
  | .clientStop => some { s with client := none }

/-- A server that has accepted the connection of a client. -/
def connected
    (serverHandler clientHandler : IOHandler ConnHandlerCallback)
    (serverQuit clientQuit : Bool) : EchoSystem where
  server := serveConnection (TCPConnection.create serverHandler serverQuit)
  client := serveConnection (TCPConnection.create clientHandler clientQuit)
  messageCount_ := 0
  toServer := []
  toClient := []
  written := []
  received := []

end EchoSystem

/-- readFd offers room for at least one byte. -/
theorem Buffer.readFdOffered_pos
    (b : Buffer) :
    0 < b.readFdOffered := by
  rw [Buffer.readFdOffered, Buffer.kExtraBufSize]
  split <;> omega

/-- What writing leaves alone of a connection that reads. -/
structure InputView where
  handler :
    Option (Bool × Status × Option ConnHandlerCallback ×
      Option ConnHandlerCallback)
  readBuffer_ : Buffer
  readStopCondition_ : Option ReadStopCondition
  readCompleteCallback_ : Option UserCallback

namespace ConnState

def inputView (s : ConnState) : InputView where
  handler :=
    s.conn.socketHandler_.map fun h =>
      (h.events_.EPOLLIN, h.status_, h.readCallback_, h.writeCallback_)
  readBuffer_ := s.conn.readBuffer_
  readStopCondition_ := s.conn.readStopCondition_
  readCompleteCallback_ := s.conn.readCompleteCallback_

theorem setWriteEvent_inputView
    (s : ConnState) (on : Bool) :
    (s.setWriteEvent on).inputView = s.inputView := by
  cases hh : s.conn.socketHandler_ with
  | none =>
      simp [setWriteEvent, onHandler, hh]
  | some h =>
      rw [inputView, setWriteEvent_conn_of_some hh, inputView]
      simp [hh, IOHandler.setWriteEvent, IOHandler.setEvents_fst]

theorem inputView_kept : KeptByWriting inputView where
  issue := fun _ _ => rfl
  accept := fun _ _ => rfl
  setWriting := fun _ _ => rfl
  setWriteBuffer := fun _ _ => rfl
  setWriteEvent := setWriteEvent_inputView
  writeComplete := fun _ _ => rfl
  highWaterMark := fun _ _ => rfl
  error := fun _ _ => rfl

theorem readView_kept : KeptByWriting readView where
  issue := fun _ _ => rfl
  accept := fun _ _ => rfl
  setWriting := fun _ _ => rfl
  setWriteBuffer := fun _ _ => rfl
  setWriteEvent := fun s on => (setWriteEvent_readView s on).1
  writeComplete := by
    intro s cb
    simp [readView, readCompletes, taken, addEvents,
      ConnEvent.isReadComplete, ConnEvent.takenBytes]
  highWaterMark := by
    intro s cb
    simp [readView, readCompletes, taken, addEvents,
      ConnEvent.isReadComplete, ConnEvent.takenBytes]
  error := by
    intro s cb
    simp [readView, readCompletes, taken, addEvents,
      ConnEvent.isReadComplete, ConnEvent.takenBytes]

theorem handleWrite_taken
    (r : WriteResult) (s : ConnState) :
    (s.handleWrite r).taken = s.taken :=
  congrArg ReadView.taken (readView_kept.handleWrite r s)

/-- A connection that reads raw into an empty buffer, with both callbacks of
its handler in place and the three pieces of its write side in step. -/
structure InService (s : ConnState) : Prop where
  handler :
    s.inputView.handler =
      some (true, .Enabled, some .handleRead, some .handleWrite)
  raw : s.inputView.readStopCondition_ = none
  notified : s.inputView.readCompleteCallback_ = some echoDataCallback
  valid : s.inputView.readBuffer_.Valid
  empty : s.inputView.readBuffer_.readableSlice = []
  consistent : s.outputView.Consistent
  inStep : s.conn.InStep false

theorem InService.handler_eq
    {s : ConnState} (hs : s.InService) :
    ∃ h, s.conn.socketHandler_ = some h ∧
      h.events_.EPOLLIN = true ∧ h.status_ = .Enabled ∧
      h.readCallback_ = some .handleRead ∧
      h.writeCallback_ = some .handleWrite := by
  obtain ⟨h, hh, heq⟩ := Option.map_eq_some_iff.mp hs.handler
  simp only [Prod.mk.injEq] at heq
  exact ⟨h, hh, heq⟩

theorem InService.awaitsRead
    {s : ConnState} (hs : s.InService) :
    s.awaitsRead = true := by
  obtain ⟨h, hh, hin, hon, hread, _⟩ := hs.handler_eq
  simp [ConnState.awaitsRead, awaits, hh, IOHandler.isEnabled, hin, hon,
    hread]

/-- A connection in service awaits writable events exactly while bytes
wait. -/
theorem InService.awaitsWrite_iff
    {s : ConnState} (hs : s.InService) :
    s.awaitsWrite = true ↔ s.conn.backlog ≠ [] := by
  obtain ⟨h, hh, _, hon, _, hwrite⟩ := hs.handler_eq
  have hasks : s.conn.asksForOutput = true ↔ s.conn.backlog ≠ [] := by
    constructor
    · intro h
      simpa using hs.inStep.backlog_of_asks h
    · exact hs.inStep.asks_of_backlog
  rw [← hasks]
  simp [ConnState.awaitsWrite, awaits, TCPConnection.asksForOutput, hh,
    IOHandler.isEnabled, hon, hwrite]

/-- Only other events than calls of the close and error callbacks since
`s`. -/
def Quiet (s s' : ConnState) : Prop :=
  ∃ es, s'.events = s.events ++ es ∧ ∀ e ∈ es, e.isEnding = false

theorem Quiet.refl (s : ConnState) : Quiet s s :=
  ⟨[], (List.append_nil _).symm, by simp⟩

theorem Quiet.trans
    {s t u : ConnState} (hst : Quiet s t) (htu : Quiet t u) :
    Quiet s u := by
  obtain ⟨es, hes, hquiet⟩ := hst
  obtain ⟨fs, hfs, hquiet'⟩ := htu
  refine ⟨es ++ fs, by rw [hfs, hes, List.append_assoc], ?_⟩
  intro e he
  rcases List.mem_append.mp he with he | he
  · exact hquiet e he
  · exact hquiet' e he

theorem Quiet.endsSince
    {s s' : ConnState} (hquiet : Quiet s s') :
    s.endsSince s' = false := by
  obtain ⟨es, hes, hall⟩ := hquiet
  rw [ConnState.endsSince, hes, List.drop_left, List.any_eq_false]
  intro e he
  simp [hall e he]

theorem addEvents_quiet
    (s : ConnState) {e : ConnEvent} (he : e.isEnding = false) :
    Quiet s (s.addEvents [e]) := by
  refine ⟨[e], rfl, ?_⟩
  intro e' he'
  rw [List.mem_singleton.mp he']
  exact he

theorem onHandler_quiet
    {op : IOHandler ConnHandlerCallback →
      IOHandler ConnHandlerCallback × List EpollCtl}
    {s s' : ConnState} (hop : s.onHandler op = some s') :
    Quiet s s' := by
  unfold onHandler at hop
  split at hop
  · cases hop
  · cases hop
    refine ⟨_, rfl, ?_⟩
    intro e he
    obtain ⟨ctl, _, rfl⟩ := List.mem_map.mp he
    rfl

theorem setWriteEvent_quiet
    (s : ConnState) (on : Bool) :
    Quiet s (s.setWriteEvent on) := by
  rw [setWriteEvent]
  split
  · exact Quiet.refl s
  · rename_i s' hop
    exact onHandler_quiet hop

theorem queueWriteComplete_quiet
    (s : ConnState) :
    Quiet s s.queueWriteComplete := by
  rw [queueWriteComplete]
  split
  · exact Quiet.refl s
  · exact addEvents_quiet s rfl

theorem enableIfDisabled_quiet
    {s s' : ConnState} (hop : s.enableIfDisabled = some s') :
    Quiet s s' := by
  unfold enableIfDisabled at hop
  split at hop
  · cases hop
    exact Quiet.refl s
  · exact onHandler_quiet hop

theorem bufferRest_quiet
    (rest : Bytes) (s : ConnState) :
    Quiet s (s.bufferRest rest) := by
  rw [bufferRest, startWriting]
  split
  · exact Quiet.refl s
  · exact setWriteEvent_quiet
      (s.setWriteBuffer (s.conn.writeBuffer_.append rest)) true

theorem directWrite_quiet
    (r : WriteResult) (message : Bytes) (s : ConnState) :
    Quiet s (s.directWrite r message).after := by
  rw [directWrite]
  split
  · split
    · simp only
      split
      · exact queueWriteComplete_quiet (s.accept _)
      · exact Quiet.refl s
    · exact Quiet.refl s
  · exact Quiet.refl s

theorem shrinkWriteBuffer_events
    (s : ConnState) :
    s.shrinkWriteBuffer.events = s.events := by
  rw [shrinkWriteBuffer]
  split <;> rfl

theorem drained_quiet
    (n : Nat) (s : ConnState) :
    Quiet s (s.drained n) := by
  rw [drained]
  split
  · generalize ht : s.retrieveWritten n = t
    have hst : Quiet s t := by
      rw [← ht]
      exact Quiet.refl s
    have hqueued :=
      (setWriteEvent_quiet t false).trans
        (queueWriteComplete_quiet
          ((t.setWriteEvent false).setWriting false))
    obtain ⟨es, hes, hall⟩ := hst.trans hqueued
    refine ⟨es, ?_, hall⟩
    rw [finishWriting, shrinkWriteBuffer_events]
    exact hes
  · exact Quiet.refl s

/-- Nothing but callbacks and the disable of handleClose: no byte is taken and no
write-complete functor is queued. -/
def OnlyNotifies (s s' : ConnState) : Prop :=
  ∃ es, s' = s.addEvents es ∧
    es.filterMap ConnEvent.takenBytes = [] ∧
    es.countP ConnEvent.queuesWriteComplete = 0

theorem OnlyNotifies.taken
    {s s' : ConnState} (h : OnlyNotifies s s') :
    s'.taken = s.taken := by
  obtain ⟨es, rfl, hnone, _⟩ := h
  simp [ConnState.taken, ConnState.addEvents, hnone]

theorem handleError_onlyNotifies
    (s : ConnState) :
    OnlyNotifies s s.handleError := by
  rw [ConnState.handleError]
  split
  · exact ⟨[], by simp [ConnState.addEvents], rfl, rfl⟩
  · exact ⟨_, rfl, rfl, rfl⟩

theorem handleClose_onlyNotifies
    (s : ConnState) :
    OnlyNotifies s s.handleClose := by
  unfold ConnState.handleClose
  cases s.isClosed with
  | true =>
      simp only [if_true]
      cases s.conn.closeCallback_ with
      | none => exact ⟨[], by simp [ConnState.addEvents], rfl, rfl⟩
      | some cb => exact ⟨_, rfl, rfl, rfl⟩
  | false =>
      simp only [Bool.false_eq_true, if_false]
      cases (s.addEvents [.queued .disableHandler]).conn.closeCallback_ with
      | none => exact ⟨_, rfl, rfl, rfl⟩
      | some cb =>
          refine ⟨[.queued .disableHandler, .closed cb], ?_, rfl, rfl⟩
          simp [ConnState.addEvents]

/-- Bytes taken by the kernel and bytes that wait, when `s` is offered a
message of which the kernel is ready to take `n` bytes. -/
structure Offered
    (n : Nat) (message : Bytes) (s s' : ConnState) : Prop where
  direct :
    s.conn.backlog = [] →
      s.sentSince s' = message.take n ∧
      s'.conn.backlog = message.drop n
  behind :
    s.conn.backlog ≠ [] →
      s.sentSince s' = [] ∧
      s'.conn.backlog = s.conn.backlog ++ message

theorem Offered.of_channel
    {n : Nat} {message : Bytes} {s s' : ConnState}
    (hchannel :
      s'.outputView.channel =
        s.outputView.channel.apply (.offer n message)) :
    Offered n message s s' := by
  have hsent := congrArg Channel.delivered hchannel
  have hback := congrArg Channel.backlog hchannel
  constructor
  · intro hempty
    have hempty' : s.outputView.channel.backlog = [] := hempty
    rw [Channel.apply, if_pos hempty'] at hsent hback
    refine ⟨?_, hback⟩
    change s'.sent = s.sent ++ message.take n at hsent
    rw [sentSince, hsent, List.drop_left]
  · intro hne
    have hne' : ¬ s.outputView.channel.backlog = [] := hne
    rw [Channel.apply, if_neg hne'] at hsent hback
    refine ⟨?_, hback⟩
    change s'.sent = s.sent at hsent
    rw [sentSince, hsent, List.drop_length]

/-- What is offered is either taken or kept behind what waits. -/
theorem Offered.moved
    {n : Nat} {message : Bytes} {s s' : ConnState}
    (hoffered : Offered n message s s') :
    s.sentSince s' ++ s'.conn.backlog = s.conn.backlog ++ message := by
  by_cases hempty : s.conn.backlog = []
  · obtain ⟨hsent, hback⟩ := hoffered.direct hempty
    rw [hsent, hback, hempty, List.take_append_drop, List.nil_append]
  · obtain ⟨hsent, hback⟩ := hoffered.behind hempty
    rw [hsent, hback, List.nil_append]

/-- In service the direct path is taken exactly when nothing waits. -/
theorem writesDirectly_issue_iff
    {s : ConnState} (hs : s.outputView.Consistent) (message : Bytes) :
    (s.issue message).writesDirectly = true ↔ s.conn.backlog = [] :=
  writesDirectly_iff
    (show (s.issue message).outputView.Consistent from hs.issue message)

/-- With bytes waiting the answer of `::write` is not asked for. -/
theorem write_behind
    {s : ConnState} (hs : s.outputView.Consistent)
    (hback : s.conn.backlog ≠ [])
    (code : UserCode) (r r' : WriteResult) (message : Bytes) :
    s.write code r message = s.write code r' message := by
  have hback' : ¬ (s.issue message).writesDirectly = true :=
    fun hdirect => hback ((writesDirectly_issue_iff hs message).mp hdirect)
  rw [write, write, writeInLoop, writeInLoop,
    directWrite_skipped r message hback',
    directWrite_skipped r' message hback']

/-- A write that returns has not met one of the two errors that abort. -/
theorem tolerated_of_write
    {s : ConnState} (hs : s.outputView.Consistent)
    {code : UserCode} {r : WriteResult} {message : Bytes}
    {s' : ConnState}
    (hstep : s.write code r message = some s') :
    ∃ r' : WriteResult, r'.Tolerated ∧ r'.count = r.count ∧
      s.write code r' message = some s' := by
  by_cases hr : r.Tolerated
  · exact ⟨r, hr, rfl, hstep⟩
  · obtain ⟨e, rfl, he⟩ :
        ∃ e, r = .fails e ∧ (e = .EPIPE ∨ e = .ECONNRESET) := by
      rw [WriteResult.Tolerated, not_and_or, not_ne_iff, not_ne_iff] at hr
      rcases hr with rfl | rfl
      · exact ⟨_, rfl, Or.inl rfl⟩
      · exact ⟨_, rfl, Or.inr rfl⟩
    by_cases hback : s.conn.backlog = []
    · have hdirect := (writesDirectly_issue_iff hs message).mpr hback
      have hopen : ¬ s.isClosed = true := by
        have h := hs.isOpen
        simp only [outputView] at h
        simp [h]
      rw [write, if_neg hopen, writeInLoop] at hstep
      simp [directWrite, hdirect, WriteResult.returns, he] at hstep
    · refine ⟨.takes 0, by decide, rfl, ?_⟩
      rw [← hstep]
      exact write_behind hs hback code _ _ message

theorem notifyHighWaterMark_quiet
    {remaining : Nat} {s s' : ConnState}
    (hstep : s.notifyHighWaterMark some remaining = some s') :
    Quiet s s' ∧ s'.conn = s.conn ∧ s'.taken = s.taken := by
  rw [notifyHighWaterMark] at hstep
  split at hstep
  · split at hstep
    · cases hstep
      exact ⟨Quiet.refl s, rfl, rfl⟩
    · cases hstep
      exact ⟨addEvents_quiet s rfl, rfl,
        congrArg ReadView.taken (readView_kept.highWaterMark s _)⟩
  · cases hstep
    exact ⟨Quiet.refl s, rfl, rfl⟩

/-- A write on an enabled connection changes nothing but the output, unless
it keeps a rest in the buffer. -/
theorem write_shape
    {s s' : ConnState} {r : WriteResult} {message : Bytes}
    (hs : s.conn.InStep false)
    (hstep : s.write some r message = some s') :
    ∃ u : ConnState, Quiet s u ∧ u.conn = s.conn ∧ u.taken = s.taken ∧
      (s' = u ∨ ∃ rest, rest ≠ [] ∧ s' = u.bufferRest rest) := by
  have hconn :
      ((s.issue message).directWrite r message).after.conn = s.conn :=
    directWrite_conn r message (s.issue message)
  have hquiet :
      Quiet s ((s.issue message).directWrite r message).after :=
    directWrite_quiet r message (s.issue message)
  have htaken :
      ((s.issue message).directWrite r message).after.taken = s.taken :=
    congrArg ReadView.taken
      (readView_kept.directWrite r message (s.issue message))
  rw [write, if_neg (by simp [isClosed_of_enabled hs.enabled]),
    writeInLoop] at hstep
  generalize (s.issue message).directWrite r message = d
    at hstep hconn hquiet htaken
  split at hstep
  · cases hstep
  · split at hstep
    · rename_i hleft
      have hrest : message.drop d.nwrote ≠ [] := by
        rw [Ne, List.drop_eq_nil_iff]
        omega
      obtain ⟨t, ht, henable⟩ := Option.bind_eq_some_iff.mp hstep
      obtain ⟨u, hu, rfl⟩ := Option.map_eq_some_iff.mp ht
      obtain ⟨hquiet', hconn', htaken'⟩ := notifyHighWaterMark_quiet hu
      have hin : u.conn.InStep false := by
        rw [hconn', hconn]
        exact hs
      rw [enableIfDisabled_of_enabled
        (bufferRest_inStep hin hrest).enabled] at henable
      cases henable
      exact ⟨u, hquiet.trans hquiet', hconn'.trans hconn,
        htaken'.trans htaken, Or.inr ⟨_, hrest, rfl⟩⟩
    · have henabled : d.after.conn.enabled = true := by
        rw [hconn]
        exact hs.enabled
      rw [Option.bind_some, enableIfDisabled_of_enabled henabled] at hstep
      cases hstep
      exact ⟨_, hquiet, hconn, htaken, Or.inl rfl⟩

/-- A connection in service stays in service while it writes. -/
theorem InService.write
    {s s' : ConnState} {r : WriteResult} {message : Bytes}
    (hs : s.InService)
    (hstep : s.write some r message = some s') :
    s'.InService ∧ Quiet s s' ∧ Offered r.count message s s' ∧
      s'.taken = s.taken := by
  obtain ⟨u, hquiet, hconn, htaken, hshape⟩ := write_shape hs.inStep hstep
  have hin : u.conn.InStep false := by
    rw [hconn]
    exact hs.inStep
  have hview : u.inputView = s.inputView := by
    rw [inputView, hconn, inputView]
  obtain ⟨r', hr', hcount, hstep'⟩ :=
    tolerated_of_write hs.consistent hstep
  obtain ⟨t, ht, hcons, _, hchannel⟩ :=
    write_refines some_leavesOutput hr' message hs.consistent
  have hst : t = s' := Option.some.inj (ht.symm.trans hstep')
  subst hst
  rw [hcount] at hchannel
  have hoffered := Offered.of_channel hchannel
  rcases hshape with rfl | ⟨rest, hrest, rfl⟩
  · exact
      ⟨⟨hview ▸ hs.handler, hview ▸ hs.raw, hview ▸ hs.notified,
        hview ▸ hs.valid, hview ▸ hs.empty, hcons, hin⟩,
        hquiet, hoffered, htaken⟩
  · have hview' : (u.bufferRest rest).inputView = s.inputView :=
      (inputView_kept.bufferRest rest u).trans hview
    exact
      ⟨⟨hview' ▸ hs.handler, hview' ▸ hs.raw, hview' ▸ hs.notified,
        hview' ▸ hs.valid, hview' ▸ hs.empty, hcons,
        bufferRest_inStep hin hrest⟩,
        hquiet.trans (bufferRest_quiet rest u), hoffered,
        (congrArg ReadView.taken (readView_kept.bufferRest rest u)).trans
          htaken⟩

theorem InService.write_returns
    {s : ConnState} (hs : s.InService)
    {r : WriteResult} (hr : r.Tolerated) (message : Bytes) :
    ∃ s', s.write some r message = some s' := by
  obtain ⟨s', hs', _⟩ :=
    write_refines some_leavesOutput hr message hs.consistent
  exact ⟨s', hs'⟩

/-- A writable event that a connection in service awaits. -/
theorem InService.handleWrite
    {s : ConnState} (hs : s.InService) (r : WriteResult) :
    (s.handleWrite r).InService ∧
    s.sentSince (s.handleWrite r) = s.conn.backlog.take r.count ∧
    (s.handleWrite r).conn.backlog = s.conn.backlog.drop r.count := by
  obtain ⟨hcons, hchannel⟩ := handleWrite_refines r hs.consistent
  have hview := inputView_kept.handleWrite r s
  have hsent : (s.handleWrite r).sent =
      s.sent ++ s.conn.backlog.take r.count :=
    congrArg Channel.delivered hchannel
  refine ⟨?_, ?_, congrArg Channel.backlog hchannel⟩
  · exact
      ⟨hview ▸ hs.handler, hview ▸ hs.raw, hview ▸ hs.notified,
        hview ▸ hs.valid, hview ▸ hs.empty, hcons,
        handleWrite_inStep hs.inStep r⟩
  · rw [sentSince, hsent, List.drop_left]

/-- Where the kernel takes something of what waits, no callback is called. -/
theorem InService.handleWrite_quiet
    {s : ConnState} (hs : s.InService)
    {r : WriteResult} (hr : 0 < r.count) :
    Quiet s (s.handleWrite r) := by
  rw [ConnState.handleWrite]
  split
  · rename_i hwriting
    have hback := hs.inStep.backlog_of_writing hwriting
    have hlen : 0 < s.conn.writeBuffer_.readableSlice.length :=
      List.length_pos_iff.mpr hback
    cases r with
    | takes n =>
        have hn : 0 < n := hr
        have hmin : 0 < min n s.conn.writeBuffer_.readableSlice.length := by
          omega
        simp only [WriteResult.returns, if_pos hmin]
        exact drained_quiet _ s
    | fails e =>
        exact absurd hr (Nat.lt_irrefl 0)
  · exact Quiet.refl s

/-- Another read buffer without content does not take a connection out of
service. -/
theorem InService.setReadBuffer
    {s : ConnState} (hs : s.InService)
    {b : Buffer} (hb : b.Valid) (hempty : b.readableSlice = []) :
    (s.setReadBuffer b).InService :=
  ⟨hs.handler, hs.raw, hs.notified, hb, hempty, hs.consistent,
    ⟨hs.inStep.enabled, hs.inStep.valid, hs.inStep.backlog_of_writing,
      hs.inStep.asks_of_backlog, hs.inStep.backlog_of_asks⟩⟩

theorem InService.addEvents
    {s : ConnState} (hs : s.InService) (es : List ConnEvent) :
    (s.addEvents es).InService :=
  ⟨hs.handler, hs.raw, hs.notified, hs.valid, hs.empty, hs.consistent,
    hs.inStep⟩

theorem InService.readRaw
    {s : ConnState} (hs : s.InService) :
    s.readRaw = some s := by
  have hraw : s.setReadStopCondition none = s := by
    have h : s.conn.readStopCondition_ = none := hs.raw
    rw [setReadStopCondition, ← h]
  rw [ConnState.readRaw, hraw]
  exact enableIfDisabled_of_enabled hs.inStep.enabled

theorem InService.shrinkReadBuffer
    {s : ConnState} (hs : s.InService) :
    s.shrinkReadBuffer.InService ∧
    s.shrinkReadBuffer.events = s.events ∧
    s.shrinkReadBuffer.sent = s.sent ∧
    s.shrinkReadBuffer.conn.backlog = s.conn.backlog := by
  rw [ConnState.shrinkReadBuffer]
  split
  · obtain ⟨hvalid, hslice⟩ := s.conn.readBuffer_.shrink_valid 0
    exact ⟨hs.setReadBuffer hvalid (hslice.trans hs.empty), rfl, rfl, rfl⟩
  · exact ⟨hs, rfl, rfl, rfl⟩

/-- The connection in which the read-complete callback is called. -/
def withInput (s : ConnState) (data : Bytes) : ConnState :=
  (s.setReadBuffer
    (s.conn.readBuffer_.readFd (.delivers data))).addEvents
      [.readComplete echoDataCallback]

theorem InService.handleRead_eq
    {s : ConnState} (hs : s.InService)
    (code : UserCode) {data : Bytes} (hdata : data ≠ []) :
    s.handleRead code (.delivers data) =
      (code (s.withInput data)).map ConnState.shrinkReadBuffer := by
  have hraw : s.conn.readStopCondition_ = none := hs.raw
  have hcb : s.conn.readCompleteCallback_ = some echoDataCallback :=
    hs.notified
  rw [handleRead_delivers code hdata, dispatchRead]
  have hstop :
      (s.setReadBuffer
        (s.conn.readBuffer_.readFd (.delivers data))).stopsReading =
        some true := by
    simp [stopsReading, ConnState.setReadBuffer, hraw]
  have hcb' :
      (s.setReadBuffer
        (s.conn.readBuffer_.readFd
          (.delivers data))).conn.readCompleteCallback_ =
        some echoDataCallback := hcb
  rw [hstop, Option.bind_some, if_pos rfl, notifyReadComplete]
  simp only [hcb']
  rfl

/-- In the callback the read buffer holds exactly the bytes of this read. -/
theorem InService.withInput_slice
    {s : ConnState} (hs : s.InService) (data : Bytes) :
    (s.withInput data).conn.readBuffer_.Valid ∧
    (s.withInput data).conn.readBuffer_.readableSlice = data := by
  have hvalid : s.conn.readBuffer_.Valid := hs.valid
  have hempty : s.conn.readBuffer_.readableSlice = [] := hs.empty
  refine ⟨hvalid.readFd (.delivers data), ?_⟩
  have hslice := hvalid.readFd_readableSlice data
  rw [hempty, List.nil_append] at hslice
  exact hslice

/-- retrieveAllAsString() takes the bytes of the read and leaves the connection
in service. -/
theorem InService.retrieveAllInput
    {s : ConnState} (hs : s.InService) {data : Bytes} (hdata : data ≠ []) :
    0 < (s.withInput data).conn.readBuffer_.readableBytes ∧
    (s.withInput data).conn.readBuffer_.retrieveAllAsString.1 = data ∧
    (s.withInput data).retrieveAllInput.InService ∧
    Quiet s (s.withInput data).retrieveAllInput ∧
    (s.withInput data).retrieveAllInput.outputView = s.outputView ∧
    (s.withInput data).retrieveAllInput.taken = s.taken ++ [data] := by
  obtain ⟨hvalid, hslice⟩ := hs.withInput_slice data
  have hlen := hvalid.length_readableSlice
  have hpos := List.length_pos_iff.mpr hdata
  have htaken :=
    Buffer.retrieveAsString_fst
      (Nat.le_refl (s.withInput data).conn.readBuffer_.readableBytes)
  have hleft :=
    hvalid.retrieve_readableSlice
      (s.withInput data).conn.readBuffer_.readableBytes
  rw [← hlen, List.take_length] at htaken
  rw [← hlen, List.drop_length] at hleft
  have hall :
      (s.withInput data).conn.readBuffer_.retrieveAllAsString.1 = data := by
    rw [Buffer.retrieveAllAsString, ← hlen, htaken, hslice]
  have hempty :
      ((s.withInput data).conn.readBuffer_.retrieve
        (s.withInput data).conn.readBuffer_.readableBytes).readableSlice =
        [] := by
    rw [← hlen]
    exact hleft
  refine ⟨by rw [← hlen, hslice]; exact hpos, hall, ?_, ?_, rfl, ?_⟩
  · exact ((hs.setReadBuffer (hvalid.retrieve _) hempty).addEvents
      [.readComplete echoDataCallback]).addEvents _
  · exact (addEvents_quiet
      (s.setReadBuffer (s.conn.readBuffer_.readFd (.delivers data)))
      rfl).trans (addEvents_quiet (s.withInput data) rfl)
  · rw [ConnState.retrieveAllInput, hall]
    simp only [ConnState.withInput, ConnState.addEvents,
      ConnState.setReadBuffer, ConnState.taken, List.filterMap_append,
      List.append_assoc]
    rfl

/-- The server in service writes what it reads. -/
theorem InService.echo
    {s s' : ConnState} {r : WriteResult} {data : Bytes}
    (hs : s.InService) (hdata : data ≠ [])
    (hstep :
      s.handleRead (EchoServer.handleClientData r) (.delivers data) =
        some s') :
    s'.InService ∧ Quiet s s' ∧ Offered r.count data s s' := by
  obtain ⟨hpos, hall, hin, hquiet, hout, -⟩ := hs.retrieveAllInput hdata
  rw [hs.handleRead_eq _ hdata] at hstep
  obtain ⟨u, hu, rfl⟩ := Option.map_eq_some_iff.mp hstep
  rw [EchoServer.handleClientData, if_pos hpos, hall] at hu
  obtain ⟨t, ht, hraw⟩ := Option.bind_eq_some_iff.mp hu
  obtain ⟨hserving, hquiet', hoffered, -⟩ := hin.write ht
  have htu : t = u := Option.some.inj (hserving.readRaw.symm.trans hraw)
  subst htu
  obtain ⟨hafter, hevents, hsent, hback⟩ := hserving.shrinkReadBuffer
  have hsame : (s.withInput data).retrieveAllInput.conn.backlog =
      s.conn.backlog :=
    congrArg (fun v => v.writeBuffer_.readableSlice) hout
  refine ⟨hafter, ?_, ?_⟩
  · obtain ⟨es, hes, hall'⟩ := hquiet.trans hquiet'
    exact ⟨es, hevents.trans hes, hall'⟩
  · have hsent' : s.sentSince t.shrinkReadBuffer =
        (s.withInput data).retrieveAllInput.sentSince t :=
      congrArg (List.drop s.sent.length) hsent
    constructor
    · intro hempty
      rw [hsent', hback]
      exact hoffered.direct (hsame.trans hempty)
    · intro hne
      rw [hsent', hback, ← hsame]
      exact hoffered.behind (by rw [hsame]; exact hne)

theorem InService.echo_returns
    {s : ConnState} (hs : s.InService)
    {r : WriteResult} (hr : r.Tolerated)
    {data : Bytes} (hdata : data ≠ []) :
    ∃ s', s.handleRead (EchoServer.handleClientData r)
      (.delivers data) = some s' := by
  obtain ⟨hpos, hall, hin, _, _⟩ := hs.retrieveAllInput hdata
  obtain ⟨t, ht⟩ := hin.write_returns hr data
  rw [hs.handleRead_eq _ hdata, EchoServer.handleClientData, if_pos hpos,
    hall, ht, Option.bind_some, (hin.write ht).1.readRaw]
  exact ⟨_, rfl⟩

/-- The client in service takes what it reads. -/
theorem InService.consume
    {s : ConnState} (hs : s.InService)
    {data : Bytes} (hdata : data ≠ []) :
    ∃ s', s.handleRead EchoClient.handleServerResponse
        (.delivers data) = some s' ∧
      s'.InService ∧ Quiet s s' ∧ s'.sent = s.sent ∧
      s'.conn.backlog = s.conn.backlog ∧ s.takenSince s' = [data] := by
  obtain ⟨hpos, _, hin, hquiet, hout, htaken⟩ := hs.retrieveAllInput hdata
  obtain ⟨hafter, hevents, hsent, hback⟩ := hin.shrinkReadBuffer
  refine ⟨(s.withInput data).retrieveAllInput.shrinkReadBuffer, ?_, hafter,
    ?_, ?_, ?_, ?_⟩
  · rw [hs.handleRead_eq _ hdata, EchoClient.handleServerResponse,
      if_pos hpos, hin.readRaw]
    rfl
  · obtain ⟨es, hes, hall⟩ := hquiet
    exact ⟨es, hevents.trans hes, hall⟩
  · exact hsent.trans (congrArg OutputView.sent hout)
  · exact hback.trans
      (congrArg (fun v => v.writeBuffer_.readableSlice) hout)
  · refine ConnState.takenSince_eq ?_
    rw [ConnState.taken, hevents]
    exact htaken

/-- The handler of a new connection has both callbacks and asks for readable
events only. -/
theorem create_handler
    (handler : IOHandler ConnHandlerCallback) (quit : Bool) :
    ∃ h, (TCPConnection.create handler quit).conn.socketHandler_ =
        some h ∧
      h.events_.EPOLLIN = true ∧ h.events_.EPOLLOUT = false ∧
      h.readCallback_ = some .handleRead ∧
      h.writeCallback_ = some .handleWrite := by
  refine ⟨_, congrArg TCPConnection.socketHandler_
    (setWriteEvent_conn_of_some rfl false), ?_⟩
  simp [IOHandler.setWriteEvent, IOHandler.setReadCallback,
    IOHandler.setWriteCallback, IOHandler.setCloseCallback,
    IOHandler.setErrorCallback, IOHandler.setReadEvent,
    IOHandler.setCloseEvent, IOHandler.setErrorEvent,
    IOHandler.setEvents_fst]

/-- Enabling changes the status of the handler and nothing else of the
connection. -/
theorem enableIfDisabled_conn
    {s : ConnState} {h : IOHandler ConnHandlerCallback}
    (hh : s.conn.socketHandler_ = some h) :
    ∃ s', s.enableIfDisabled = some s' ∧ s'.sent = s.sent ∧
      s'.conn =
        { s.conn with socketHandler_ := some { h with status_ := .Enabled } } := by
  by_cases hon : s.isEnabled = true
  · have hstatus : h.status_ = .Enabled := by
      simpa [isEnabled, IOHandler.isEnabled, hh] using hon
    refine ⟨s, by rw [enableIfDisabled, if_pos hon], rfl, ?_⟩
    rw [← hstatus, ← hh]
  · have hop :
        s.onHandler IOHandler.enable =
          some
            ({ s with
                conn :=
                  { s.conn with socketHandler_ := some h.enable.1 }
              }.addEvents (h.enable.2.map .epoll)) := by
      simp only [onHandler, hh]
    rw [enableIfDisabled, if_neg hon, hop]
    refine ⟨_, rfl, rfl, ?_⟩
    simp only [addEvents, IOHandler.enable_fst]

/-- A new connection on which either program has started to read. -/
theorem serveConnection_inService
    (handler : IOHandler ConnHandlerCallback) (quit : Bool) :
    ∃ s, serveConnection (TCPConnection.create handler quit) = some s ∧
      s.InService ∧ s.conn.backlog = [] := by
  obtain ⟨h, hh, hin, hout, hread, hwrite⟩ := create_handler handler quit
  have hcreate := create_outputView handler quit
  obtain ⟨hinput, _⟩ := create_readView handler quit
  generalize TCPConnection.create handler quit = s₀ at hh hcreate hinput
  have hwriting : s₀.conn.writing_ = false :=
    congrArg OutputView.writing_ hcreate
  have hbuffer : s₀.conn.writeBuffer_ = .empty :=
    congrArg OutputView.writeBuffer_ hcreate
  have hreadBuffer : s₀.conn.readBuffer_ = .empty :=
    congrArg ReadView.readBuffer_ hinput
  generalize ht :
    (((s₀.setReadCompleteCallback (some echoDataCallback)).setCloseCallback
      (some echoCloseCallback)).setErrorCallback
        (some echoErrorCallback)).setReadStopCondition none = t
  have hth : t.conn.socketHandler_ = some h := by
    rw [← ht]
    exact hh
  obtain ⟨s, hs, _, hconn⟩ := enableIfDisabled_conn hth
  have hvalid := Buffer.ofSize_valid kInitialSize
  have hempty := Buffer.ofSize_readableSlice kInitialSize
  have hbuffer' : s.conn.writeBuffer_ = .empty := by
    rw [hconn, ← ht]
    exact hbuffer
  have hreadBuffer' : s.conn.readBuffer_ = .empty := by
    rw [hconn, ← ht]
    exact hreadBuffer
  have hwriting' : s.conn.writing_ = false := by
    rw [hconn, ← ht]
    exact hwriting
  have hh' : s.conn.socketHandler_ =
      some { h with status_ := .Enabled } := by
    rw [hconn]
  refine ⟨s, ?_, ⟨?_, ?_, ?_, ?_, ?_, ⟨?_, ?_, ?_⟩, ?_⟩, ?_⟩
  · rw [serveConnection, readRaw, ht]
    exact hs
  · simp [inputView, hh', hin, hread, hwrite]
  · simp only [inputView, hconn, ← ht]
    rfl
  · simp only [inputView, hconn, ← ht]
    rfl
  · simp only [inputView, hreadBuffer']
    exact hvalid
  · simp only [inputView, hreadBuffer']
    exact hempty
  · simp only [outputView, hbuffer']
    exact hvalid
  · simp only [outputView, hwriting', hbuffer', Buffer.empty, hempty]
    simp
  · simp [outputView, isClosed, hh']
  · exact ConnRun.inStep_of_idle hh' (by simp [IOHandler.isEnabled]) hout hwriting'
      hbuffer'
  · rw [TCPConnection.backlog, hbuffer']
    exact hempty

end ConnState

namespace EchoSystem

def backlogOf : Option ConnState → Bytes
  | none => []
  | some conn => conn.conn.backlog

/-- The bytes of the echo service in the order of the stream: what the client
has back, what is on its way to it, what waits in the server, what is on its
way to the server, and what waits in the client. -/
def stages (s : EchoSystem) : List Bytes :=
  [s.received, s.toClient, backlogOf s.server, s.toServer,
    backlogOf s.client]

/-- Each end that still has its connection has it in service. -/
structure Serving (s : EchoSystem) : Prop where
  server : ∀ conn, s.server = some conn → conn.InService
  client : ∀ conn, s.client = some conn → conn.InService

/-- Nothing is lost, copied or reordered on the part of the way that both its
ends keep up. -/
structure Intact (s : EchoSystem) : Prop where
  returned : s.received ++ s.toClient <+: s.written
  arrived :
    s.server.isSome = true →
      s.received ++ s.toClient ++ backlogOf s.server ++ s.toServer <+:
        s.written
  whole :
    s.server.isSome = true → s.client.isSome = true →
      s.stages.flatten = s.written

theorem stages_flatten
    (s : EchoSystem) :
    s.stages.flatten =
      s.received ++ s.toClient ++ backlogOf s.server ++ s.toServer ++
        backlogOf s.client := by
  simp [stages]

/-- The server takes `data` off the stream, the kernel takes `sent` from it
and the rest waits; or the connection is closed afterwards. -/
theorem Intact.serverMoves
    {s : EchoSystem} (hs : s.Intact)
    {conn : ConnState} (hconn : s.server = some conn)
    {server' : Option ConnState} {data sent rest toServer' : Bytes}
    (htaken : data ++ toServer' = s.toServer)
    (hmoved : sent ++ rest = conn.conn.backlog ++ data)
    (hafter : server' = none ∨ backlogOf server' = rest) :
    ({ s with
        server := server'
        toServer := toServer'
        toClient := s.toClient ++ sent } : EchoSystem).Intact := by
  have hsome : s.server.isSome = true := by
    rw [hconn]
    rfl
  have hback : backlogOf s.server = conn.conn.backlog := by
    rw [hconn]
    rfl
  have hsame :
      s.received ++ (s.toClient ++ sent) ++ rest ++ toServer' =
        s.received ++ s.toClient ++ backlogOf s.server ++ s.toServer := by
    rw [hback, ← htaken]
    simp only [List.append_assoc]
    rw [← List.append_assoc sent, hmoved, List.append_assoc]
  have harrived := hs.arrived hsome
  rw [← hsame] at harrived
  constructor
  · rw [List.append_assoc _ rest] at harrived
    exact (List.prefix_append _ _).trans harrived
  · intro hsome'
    rcases hafter with rfl | hrest
    · cases hsome'
    · simp only [hrest]
      exact harrived
  · intro hsome' hclient
    rcases hafter with rfl | hrest
    · cases hsome'
    · have hwhole := hs.whole hsome hclient
      rw [stages_flatten] at hwhole ⊢
      simp only [hrest]
      rw [hsame]
      exact hwhole

/-- The client gets `data` back, writes a message, the kernel takes `sent` from
it and the rest waits; or its loop has ended. -/
theorem Intact.clientMoves
    {s : EchoSystem} (hs : s.Intact)
    {conn : ConnState} (hconn : s.client = some conn)
    {client' : Option ConnState}
    {data sent rest message toClient' : Bytes} (messageCount : Nat)
    (htaken : data ++ toClient' = s.toClient)
    (hmoved : sent ++ rest = conn.conn.backlog ++ message)
    (hafter : client' = none ∨ backlogOf client' = rest) :
    ({ s with
        client := client'
        messageCount_ := messageCount
        toServer := s.toServer ++ sent
        toClient := toClient'
        written := s.written ++ message
        received := s.received ++ data } : EchoSystem).Intact := by
  have hsome : s.client.isSome = true := by
    rw [hconn]
    rfl
  have hback : backlogOf s.client = conn.conn.backlog := by
    rw [hconn]
    rfl
  have hreturned :
      s.received ++ data ++ toClient' = s.received ++ s.toClient := by
    rw [List.append_assoc, htaken]
  have hwhole : s.server.isSome = true →
      s.received ++ data ++ toClient' ++ backlogOf s.server ++
          (s.toServer ++ sent) ++ rest =
        s.written ++ message := by
    intro hserver
    rw [← hs.whole hserver hsome, stages_flatten, hreturned, hback]
    simp only [List.append_assoc]
    rw [hmoved]
  constructor
  · exact (hreturned ▸ hs.returned).trans (List.prefix_append _ _)
  · intro hserver
    rw [← hwhole hserver]
    exact List.prefix_append _ _
  · intro hserver hclient
    rcases hafter with rfl | hrest
    · cases hclient
    · rw [stages_flatten]
      simp only [hrest]
      exact hwhole hserver

theorem onServer_eq
    {s s' : EchoSystem} {op : ConnState → Option ConnState}
    (hstep : s.onServer op = some s') :
    ∃ conn conn', s.server = some conn ∧ op conn = some conn' ∧
      s' =
        { s with
          server := if conn.endsSince conn' then none else some conn'
          toClient := s.toClient ++ conn.sentSince conn' } := by
  obtain ⟨conn, hconn, hop⟩ := Option.bind_eq_some_iff.mp hstep
  obtain ⟨conn', hconn', rfl⟩ := Option.map_eq_some_iff.mp hop
  exact ⟨conn, conn', hconn, hconn', rfl⟩

theorem onClient_eq
    {s s' : EchoSystem} {op : ConnState → Option ConnState}
    (hstep : s.onClient op = some s') :
    ∃ conn conn', s.client = some conn ∧ op conn = some conn' ∧
      s' =
        { s with
          client := if conn.endsSince conn' then none else some conn'
          toServer := s.toServer ++ conn.sentSince conn'
          received := s.received ++ (conn.takenSince conn').flatten } := by
  obtain ⟨conn, hconn, hop⟩ := Option.bind_eq_some_iff.mp hstep
  obtain ⟨conn', hconn', rfl⟩ := Option.map_eq_some_iff.mp hop
  exact ⟨conn, conn', hconn, hconn', rfl⟩

theorem pollable_some
    {conn : ConnState} {p : ConnState → Bool} :
    pollable (some conn) p = p conn := by
  rfl

theorem readsSome_iff
    {n : Nat} {wire : Bytes} {conn : ConnState} (hconn : conn.InService) :
    readsSome n wire conn = true ↔
      0 < n ∧ n ≤ wire.length ∧
        n ≤ conn.conn.readBuffer_.readFdOffered := by
  simp [readsSome, hconn.awaitsRead, and_assoc]

theorem take_ne_nil
    {n : Nat} {wire : Bytes} (hn : 0 < n) (hle : n ≤ wire.length) :
    wire.take n ≠ [] := by
  intro hnil
  have hlen := congrArg List.length hnil
  rw [List.length_take, List.length_nil] at hlen
  omega

/-- The server reads `n` bytes and writes them. -/
theorem serverReadable_eq
    {s s' : EchoSystem} (hs : s.Serving) {n : Nat} {r : WriteResult}
    (hstep : s.step (.serverReadable n r) = some s') :
    ∃ conn conn', s.server = some conn ∧ conn'.InService ∧
      conn.Offered r.count (s.toServer.take n) conn' ∧
      0 < n ∧ n ≤ s.toServer.length ∧
      s' =
        { s with
          server := some conn'
          toServer := s.toServer.drop n
          toClient := s.toClient ++ conn.sentSince conn' } := by
  simp only [step] at hstep
  split at hstep
  · rename_i hpoll
    obtain ⟨conn, conn', hconn, hread, rfl⟩ := onServer_eq hstep
    have hserver : s.server = some conn := hconn
    have hin := hs.server conn hserver
    rw [hserver, pollable_some, readsSome_iff hin] at hpoll
    obtain ⟨hn, hle, _⟩ := hpoll
    obtain ⟨hin', hquiet, hoffered⟩ := hin.echo (take_ne_nil hn hle) hread
    refine ⟨conn, conn', hserver, hin', hoffered, hn, hle, ?_⟩
    simp [hquiet.endsSince]
  · cases hstep

theorem clientReadable_eq
    {s s' : EchoSystem} (hs : s.Serving) {n : Nat}
    (hstep : s.step (.clientReadable n) = some s') :
    ∃ conn conn', s.client = some conn ∧ conn'.InService ∧
      conn'.conn.backlog = conn.conn.backlog ∧
      0 < n ∧ n ≤ s.toClient.length ∧
      s' =
        { s with
          client := some conn'
          toClient := s.toClient.drop n
          received := s.received ++ s.toClient.take n } := by
  simp only [step] at hstep
  split at hstep
  · rename_i hpoll
    obtain ⟨conn, conn', hconn, hread, rfl⟩ := onClient_eq hstep
    have hclient : s.client = some conn := hconn
    have hin := hs.client conn hclient
    rw [hclient, pollable_some, readsSome_iff hin] at hpoll
    obtain ⟨hn, hle, _⟩ := hpoll
    obtain ⟨u, hu, hin', hquiet, hsent, hback, htaken⟩ :=
      hin.consume (take_ne_nil hn hle)
    have huc : u = conn' := Option.some.inj (hu.symm.trans hread)
    subst huc
    refine ⟨conn, u, hclient, hin', hback, hn, hle, ?_⟩
    simp [hquiet.endsSince, ConnState.sentSince, hsent, htaken]
  · cases hstep

/-- A writable event of the server: the front of what waits is taken, and the
connection is closed where nothing is. -/
theorem serverWritable_eq
    {s s' : EchoSystem} (hs : s.Serving) {r : WriteResult}
    (hstep : s.step (.serverWritable r) = some s') :
    ∃ conn conn', s.server = some conn ∧ conn'.InService ∧
      conn.conn.backlog ≠ [] ∧
      conn'.conn.backlog = conn.conn.backlog.drop r.count ∧
      s' =
        { s with
          server := if conn.endsSince conn' then none else some conn'
          toClient := s.toClient ++ conn.conn.backlog.take r.count } ∧
      (0 < r.count → conn.endsSince conn' = false) := by
  simp only [step] at hstep
  split at hstep
  · rename_i hpoll
    obtain ⟨conn, conn', hconn, hwrite, rfl⟩ := onServer_eq hstep
    have hin := hs.server conn hconn
    rw [hconn, pollable_some, hin.awaitsWrite_iff] at hpoll
    obtain rfl : conn.handleWrite r = conn' := Option.some.inj hwrite
    obtain ⟨hin', hsent, hback⟩ := hin.handleWrite r
    exact ⟨conn, _, hconn, hin', hpoll, hback, by rw [hsent],
      fun hr => (hin.handleWrite_quiet hr).endsSince⟩
  · cases hstep

theorem clientWritable_eq
    {s s' : EchoSystem} (hs : s.Serving) {r : WriteResult}
    (hstep : s.step (.clientWritable r) = some s') :
    ∃ conn conn', s.client = some conn ∧ conn'.InService ∧
      conn.conn.backlog ≠ [] ∧
      conn'.conn.backlog = conn.conn.backlog.drop r.count ∧
      s' =
        { s with
          client := if conn.endsSince conn' then none else some conn'
          toServer := s.toServer ++ conn.conn.backlog.take r.count } ∧
      (0 < r.count → conn.endsSince conn' = false) := by
  simp only [step] at hstep
  split at hstep
  · rename_i hpoll
    obtain ⟨conn, conn', hconn, hwrite, rfl⟩ := onClient_eq hstep
    have hin := hs.client conn hconn
    rw [hconn, pollable_some, hin.awaitsWrite_iff] at hpoll
    obtain rfl : conn.handleWrite r = conn' := Option.some.inj hwrite
    obtain ⟨hin', hsent, hback⟩ := hin.handleWrite r
    have htaken : conn.takenSince (conn.handleWrite r) = [] :=
      ConnState.takenSince_nil (ConnState.handleWrite_taken r conn)
    exact ⟨conn, _, hconn, hin', hpoll, hback, by simp [hsent, htaken],
      fun hr => (hin.handleWrite_quiet hr).endsSince⟩
  · cases hstep

theorem sendMessage_eq
    {s s' : EchoSystem} (hs : s.Serving)
    {now : Bytes} {r : WriteResult}
    (hstep : s.step (.sendMessage now r) = some s') :
    ∃ conn conn' message, s.client = some conn ∧ conn'.InService ∧
      conn.Offered r.count message conn' ∧
      s' =
        { s with
          client := some conn'
          messageCount_ := s.messageCount_ + 1
          toServer := s.toServer ++ conn.sentSince conn'
          written := s.written ++ message } := by
  obtain ⟨conn, conn', hconn, hwrite, rfl⟩ := onClient_eq hstep
  have hclient : s.client = some conn := hconn
  obtain ⟨hin', hquiet, hoffered, htaken⟩ :=
    (hs.client conn hclient).write hwrite
  refine ⟨conn, conn', _, hclient, hin', hoffered, ?_⟩
  simp [hquiet.endsSince, ConnState.takenSince_nil htaken]

/-- An event that only calls callbacks. -/
theorem onServer_notifies
    {s s' : EchoSystem} (hs : s.Serving)
    {op : ConnState → Option ConnState}
    (hop :
      ∀ conn, ∃ conn', op conn = some conn' ∧
        ConnState.OnlyNotifies conn conn')
    (hstep : s.onServer op = some s') :
    ∃ conn es, s.server = some conn ∧ (conn.addEvents es).InService ∧
      s' =
        { s with
          server :=
            if conn.endsSince (conn.addEvents es) then none
            else some (conn.addEvents es) } := by
  obtain ⟨conn, conn', hconn, hconn', rfl⟩ := onServer_eq hstep
  obtain ⟨u, hu, es, rfl, -⟩ := hop conn
  obtain rfl : conn.addEvents es = conn' :=
    Option.some.inj (hu.symm.trans hconn')
  refine ⟨conn, es, hconn, (hs.server conn hconn).addEvents es, ?_⟩
  simp [ConnState.sentSince, ConnState.addEvents]

theorem onClient_notifies
    {s s' : EchoSystem} (hs : s.Serving)
    {op : ConnState → Option ConnState}
    (hop :
      ∀ conn, ∃ conn', op conn = some conn' ∧
        ConnState.OnlyNotifies conn conn')
    (hstep : s.onClient op = some s') :
    ∃ conn es, s.client = some conn ∧ (conn.addEvents es).InService ∧
      s' =
        { s with
          client :=
            if conn.endsSince (conn.addEvents es) then none
            else some (conn.addEvents es) } := by
  obtain ⟨conn, conn', hconn, hconn', rfl⟩ := onClient_eq hstep
  obtain ⟨u, hu, hnotifies⟩ := hop conn
  have htaken := ConnState.takenSince_nil hnotifies.taken
  obtain ⟨es, rfl, -⟩ := hnotifies
  obtain rfl : conn.addEvents es = conn' :=
    Option.some.inj (hu.symm.trans hconn')
  refine ⟨conn, es, hconn, (hs.client conn hconn).addEvents es, ?_⟩
  rw [htaken]
  simp [ConnState.sentSince, ConnState.addEvents]

/-- The service between two events. -/
structure Sound (s : EchoSystem) : Prop where
  serving : s.Serving
  intact : s.Intact

/-- A step of the server, from what it does to the connection. -/
theorem Sound.serverMoves
    {s : EchoSystem} (hs : s.Sound)
    {conn conn' : ConnState} (hconn : s.server = some conn)
    (hin : conn'.InService)
    {server' : Option ConnState}
    (hafter : server' = none ∨ server' = some conn')
    {data sent toServer' : Bytes}
    (htaken : data ++ toServer' = s.toServer)
    (hmoved : sent ++ conn'.conn.backlog = conn.conn.backlog ++ data) :
    ({ s with
        server := server'
        toServer := toServer'
        toClient := s.toClient ++ sent } : EchoSystem).Sound := by
  refine ⟨⟨?_, hs.serving.client⟩,
    hs.intact.serverMoves hconn htaken hmoved ?_⟩
  · intro c hc
    rcases hafter with rfl | rfl
    · cases hc
    · cases hc
      exact hin
  · rcases hafter with rfl | rfl
    · exact Or.inl rfl
    · exact Or.inr rfl

/-- A step of the client, from what it does to the connection. -/
theorem Sound.clientMoves
    {s : EchoSystem} (hs : s.Sound)
    {conn conn' : ConnState} (hconn : s.client = some conn)
    (hin : conn'.InService)
    {client' : Option ConnState}
    (hafter : client' = none ∨ client' = some conn')
    {data sent message toClient' : Bytes} (messageCount : Nat)
    (htaken : data ++ toClient' = s.toClient)
    (hmoved : sent ++ conn'.conn.backlog = conn.conn.backlog ++ message) :
    ({ s with
        client := client'
        messageCount_ := messageCount
        toServer := s.toServer ++ sent
        toClient := toClient'
        written := s.written ++ message
        received := s.received ++ data } : EchoSystem).Sound := by
  refine ⟨⟨hs.serving.server, ?_⟩,
    hs.intact.clientMoves hconn messageCount htaken hmoved ?_⟩
  · intro c hc
    rcases hafter with rfl | rfl
    · cases hc
    · cases hc
      exact hin
  · rcases hafter with rfl | rfl
    · exact Or.inl rfl
    · exact Or.inr rfl

theorem ite_none_or
    (b : Bool) (conn : ConnState) :
    (if b then none else some conn) = none ∨
      (if b then none else some conn) = some conn := by
  cases b with
  | true => exact Or.inl rfl
  | false => exact Or.inr rfl

theorem Sound.serverNotifies
    {s s' : EchoSystem} (hs : s.Sound)
    {op : ConnState → Option ConnState}
    (hop :
      ∀ conn, ∃ conn', op conn = some conn' ∧
        ConnState.OnlyNotifies conn conn')
    (hstep : s.onServer op = some s') :
    s'.Sound := by
  obtain ⟨conn, es, hconn, hin, rfl⟩ :=
    onServer_notifies hs.serving hop hstep
  have hmoves :=
    hs.serverMoves hconn hin
      (ite_none_or (conn.endsSince (conn.addEvents es)) _)
      (List.nil_append s.toServer)
      (show [] ++ (conn.addEvents es).conn.backlog =
        conn.conn.backlog ++ [] from (List.append_nil _).symm)
  rw [List.append_nil] at hmoves
  exact hmoves

theorem Sound.clientNotifies
    {s s' : EchoSystem} (hs : s.Sound)
    {op : ConnState → Option ConnState}
    (hop :
      ∀ conn, ∃ conn', op conn = some conn' ∧
        ConnState.OnlyNotifies conn conn')
    (hstep : s.onClient op = some s') :
    s'.Sound := by
  obtain ⟨conn, es, hconn, hin, rfl⟩ :=
    onClient_notifies hs.serving hop hstep
  have hmoves :=
    hs.clientMoves hconn hin
      (ite_none_or (conn.endsSince (conn.addEvents es)) _)
      s.messageCount_ (List.nil_append s.toClient)
      (show [] ++ (conn.addEvents es).conn.backlog =
        conn.conn.backlog ++ [] from (List.append_nil _).symm)
  rw [List.append_nil, List.append_nil, List.append_nil] at hmoves
  exact hmoves

/-- Every event keeps the service sound. -/
theorem Sound.step
    {s s' : EchoSystem} (hs : s.Sound) {e : EchoEvent}
    (hstep : s.step e = some s') :
    s'.Sound := by
  cases e with
  | sendMessage now r =>
      obtain ⟨conn, conn', message, hconn, hin, hoffered, rfl⟩ :=
        sendMessage_eq hs.serving hstep
      have hmoves :=
        hs.clientMoves hconn hin (Or.inr rfl) (s.messageCount_ + 1)
          (List.nil_append s.toClient) hoffered.moved
      rw [List.append_nil] at hmoves
      exact hmoves
  | serverReadable n r =>
      obtain ⟨conn, conn', hconn, hin, hoffered, _, _, rfl⟩ :=
        serverReadable_eq hs.serving hstep
      exact hs.serverMoves hconn hin (Or.inr rfl)
        (List.take_append_drop n s.toServer) hoffered.moved
  | serverWritable r =>
      obtain ⟨conn, conn', hconn, hin, _, hback, rfl, _⟩ :=
        serverWritable_eq hs.serving hstep
      refine hs.serverMoves hconn hin (ite_none_or _ _)
        (List.nil_append s.toServer) ?_
      rw [hback, List.take_append_drop, List.append_nil]
  | clientReadable n =>
      obtain ⟨conn, conn', hconn, hin, hback, _, _, rfl⟩ :=
        clientReadable_eq hs.serving hstep
      have hmoves :=
        hs.clientMoves hconn hin (Or.inr rfl) s.messageCount_
          (List.take_append_drop n s.toClient)
          (show [] ++ conn'.conn.backlog = conn.conn.backlog ++ [] by
            rw [hback, List.append_nil, List.nil_append])
      rw [List.append_nil, List.append_nil] at hmoves
      exact hmoves
  | clientWritable r =>
      obtain ⟨conn, conn', hconn, hin, _, hback, rfl, _⟩ :=
        clientWritable_eq hs.serving hstep
      have hmoves :=
        hs.clientMoves hconn hin
          (ite_none_or (conn.endsSince conn') conn') s.messageCount_
          (List.nil_append s.toClient)
          (show conn.conn.backlog.take r.count ++ conn'.conn.backlog =
              conn.conn.backlog ++ [] by
            rw [hback, List.take_append_drop, List.append_nil])
      rw [List.append_nil, List.append_nil] at hmoves
      exact hmoves
  | serverReadFails e =>
      simp only [EchoSystem.step] at hstep
      split at hstep
      · refine hs.serverNotifies (fun conn => ?_) hstep
        exact ⟨_, rfl, ConnState.handleError_onlyNotifies conn⟩
      · cases hstep
  | clientReadFails e =>
      simp only [EchoSystem.step] at hstep
      split at hstep
      · refine hs.clientNotifies (fun conn => ?_) hstep
        exact ⟨_, rfl, ConnState.handleError_onlyNotifies conn⟩
      · cases hstep
  | serverHangup =>
      simp only [EchoSystem.step] at hstep
      split at hstep
      · refine hs.serverNotifies (fun conn => ?_) hstep
        exact ⟨_, rfl, ConnState.handleClose_onlyNotifies conn⟩
      · cases hstep
  | clientHangup =>
      simp only [EchoSystem.step] at hstep
      split at hstep
      · refine hs.clientNotifies (fun conn => ?_) hstep
        exact ⟨_, rfl, ConnState.handleClose_onlyNotifies conn⟩
      · cases hstep
  | serverError =>
      refine hs.serverNotifies (fun conn => ?_) hstep
      exact ⟨_, rfl, ConnState.handleError_onlyNotifies conn⟩
  | clientError =>
      refine hs.clientNotifies (fun conn => ?_) hstep
      exact ⟨_, rfl, ConnState.handleError_onlyNotifies conn⟩
  | serverStop =>
      cases hstep
      refine ⟨⟨?_, hs.serving.client⟩, ⟨hs.intact.returned, ?_, ?_⟩⟩
      · intro conn hconn
        cases hconn
      · intro hserver
        cases hserver
      · intro hserver _
        cases hserver
  | clientStop =>
      cases hstep
      refine ⟨⟨hs.serving.server, ?_⟩,
        ⟨hs.intact.returned, hs.intact.arrived, ?_⟩⟩
      · intro conn hconn
        cases hconn
      · intro _ hclient
        cases hclient

/-- Both programs have started to read on their ends of a new connection. -/
theorem connected_sound
    (serverHandler clientHandler : IOHandler ConnHandlerCallback)
    (serverQuit clientQuit : Bool) :
    (connected serverHandler clientHandler serverQuit clientQuit).Sound := by
  obtain ⟨sconn, hsconn, hsin, hsback⟩ :=
    ConnState.serveConnection_inService serverHandler serverQuit
  obtain ⟨cconn, hcconn, hcin, hcback⟩ :=
    ConnState.serveConnection_inService clientHandler clientQuit
  rw [connected, hsconn, hcconn]
  refine ⟨⟨?_, ?_⟩, ⟨?_, ?_, ?_⟩⟩
  · intro conn hconn
    cases hconn
    exact hsin
  · intro conn hconn
    cases hconn
    exact hcin
  · exact List.prefix_refl []
  · intro _
    simp [backlogOf, hsback]
  · intro _ _
    simp [stages, backlogOf, hsback, hcback]

/-- Whatever the kernel takes and delivers at each call, in whatever order the
two loops run and whoever closes first, the client gets back a first part of
what it has written.  As long as both ends are connected, what it has back
followed by the four queues of the way is all that it has written. -/
theorem echo_intact
    (serverHandler clientHandler : IOHandler ConnHandlerCallback)
    (serverQuit clientQuit : Bool)
    {es : List EchoEvent} {s : EchoSystem}
    (hrun :
      run step
        (connected serverHandler clientHandler serverQuit clientQuit) es =
        some s) :
    s.received <+: s.written ∧
      (s.server.isSome = true → s.client.isSome = true →
        s.stages.flatten = s.written) := by
  have hsound : s.Sound :=
    invariant_of_run (I := Sound) (P := fun _ => True)
      (fun s e s' hs _ hstep => hs.step hstep)
      (connected_sound serverHandler clientHandler serverQuit clientQuit)
      (fun _ _ => trivial) hrun
  exact ⟨(List.prefix_append _ _).trans hsound.intact.returned,
    hsound.intact.whole⟩

/-- An event in which bytes of the stream move on. -/
def Moving : EchoEvent → Prop
  | .serverReadable _ _ => True
  | .clientReadable _ => True
  | .serverWritable r => 0 < r.count
  | .clientWritable r => 0 < r.count
  | _ => False

/-- Both ends have their connections. -/
def BothOpen (s : EchoSystem) : Prop :=
  s.server.isSome = true ∧ s.client.isSome = true

theorem serverReadable_stages
    {s s' : EchoSystem} {n : Nat} {r : WriteResult}
    {conn conn' : ConnState} (hconn : s.server = some conn)
    (hoffered : conn.Offered r.count (s.toServer.take n) conn')
    (hs' :
      s' =
        { s with
          server := some conn'
          toServer := s.toServer.drop n
          toClient := s.toClient ++ conn.sentSince conn' }) :
    s'.stages = shift 2 n s.stages ∨
      s'.stages = shift 1 r.count (shift 2 n s.stages) := by
  subst hs'
  by_cases hempty : conn.conn.backlog = []
  · obtain ⟨hsent, hback⟩ := hoffered.direct hempty
    right
    simp [stages, shift, hconn, backlogOf, hempty, hsent, hback]
  · obtain ⟨hsent, hback⟩ := hoffered.behind hempty
    left
    simp [stages, shift, hconn, backlogOf, hsent, hback]

/-- A moving event keeps both ends open, hands over no message and brings
bytes nearer to the client. -/
theorem Sound.moves
    {s s' : EchoSystem} (hs : s.Sound) (hopen : s.BothOpen)
    {e : EchoEvent} (he : Moving e) (hstep : s.step e = some s') :
    s'.BothOpen ∧ s'.written = s.written ∧
      work s'.stages < work s.stages := by
  cases e with
  | serverReadable n r =>
      obtain ⟨conn, conn', hconn, _, hoffered, hn, hle, hs'⟩ :=
        serverReadable_eq hs.serving hstep
      have hmore : s.stages.getD (2 + 1) [] ≠ [] :=
        List.length_pos_iff.mp (Nat.lt_of_lt_of_le hn hle)
      have hless := work_shift_lt hn hmore
      refine ⟨⟨by rw [hs']; rfl, by rw [hs']; exact hopen.2⟩,
        by rw [hs'], ?_⟩
      rcases serverReadable_stages hconn hoffered hs' with heq | heq
      · rw [heq]
        exact hless
      · rw [heq]
        exact Nat.lt_of_le_of_lt (work_shift_le _ _ _) hless
  | serverWritable r =>
      obtain ⟨conn, conn', hconn, _, hne, hback, hs', hquiet⟩ :=
        serverWritable_eq hs.serving hstep
      rw [hquiet he] at hs'
      have hstages : s'.stages = shift 1 r.count s.stages := by
        rw [hs']
        simp [stages, shift, hconn, backlogOf, hback]
      have hmore : s.stages.getD (1 + 1) [] ≠ [] := by
        simpa [stages, hconn, backlogOf] using hne
      refine ⟨⟨by rw [hs']; rfl, by rw [hs']; exact hopen.2⟩,
        by rw [hs'], ?_⟩
      rw [hstages]
      exact work_shift_lt he hmore
  | clientReadable n =>
      obtain ⟨conn, conn', hconn, _, hback, hn, hle, hs'⟩ :=
        clientReadable_eq hs.serving hstep
      have hstages : s'.stages = shift 0 n s.stages := by
        rw [hs']
        simp [stages, shift, hconn, backlogOf, hback]
      have hmore : s.stages.getD (0 + 1) [] ≠ [] :=
        List.length_pos_iff.mp (Nat.lt_of_lt_of_le hn hle)
      refine ⟨⟨by rw [hs']; exact hopen.1, by rw [hs']; rfl⟩,
        by rw [hs'], ?_⟩
      rw [hstages]
      exact work_shift_lt hn hmore
  | clientWritable r =>
      obtain ⟨conn, conn', hconn, _, hne, hback, hs', hquiet⟩ :=
        clientWritable_eq hs.serving hstep
      rw [hquiet he] at hs'
      have hstages : s'.stages = shift 3 r.count s.stages := by
        rw [hs']
        simp [stages, shift, hconn, backlogOf, hback]
      have hmore : s.stages.getD (3 + 1) [] ≠ [] := by
        simpa [stages, hconn, backlogOf] using hne
      refine ⟨⟨by rw [hs']; exact hopen.1, by rw [hs']; rfl⟩,
        by rw [hs'], ?_⟩
      rw [hstages]
      exact work_shift_lt he hmore
  | _ => exact absurd he id

/-- Where no event moves bytes on, none are on the way. -/
theorem Sound.idle
    {s : EchoSystem} (hs : s.Sound) (hopen : s.BothOpen)
    (hidle : ∀ e, Moving e → s.step e = none) :
    s.received = s.written := by
  obtain ⟨hserver, hclient⟩ := hopen
  have hwhole := hs.intact.whole hserver hclient
  obtain ⟨sconn, hsconn⟩ := Option.isSome_iff_exists.mp hserver
  obtain ⟨cconn, hcconn⟩ := Option.isSome_iff_exists.mp hclient
  have hsin := hs.serving.server sconn hsconn
  have hcin := hs.serving.client cconn hcconn
  have htoClient : s.toClient = [] := by
    by_contra hne
    have hlen := List.length_pos_iff.mpr hne
    obtain ⟨u, hu, _⟩ := hcin.consume (take_ne_nil Nat.one_pos hlen)
    have hnone := hidle (.clientReadable 1) trivial
    have hpoll : readsSome 1 s.toClient cconn = true :=
      (readsSome_iff hcin).mpr
        ⟨Nat.one_pos, hlen, Buffer.readFdOffered_pos _⟩
    simp [EchoSystem.step, pollable, hcconn, hpoll, onClient, hu] at hnone
  have hserverBacklog : sconn.conn.backlog = [] := by
    by_contra hne
    have hpoll := hsin.awaitsWrite_iff.mpr hne
    have hnone := hidle (.serverWritable (.takes 1)) Nat.one_pos
    simp [EchoSystem.step, pollable, hsconn, hpoll, onServer] at hnone
  have htoServer : s.toServer = [] := by
    by_contra hne
    have hlen := List.length_pos_iff.mpr hne
    obtain ⟨u, hu⟩ :=
      hsin.echo_returns (r := .takes 0) (by decide)
        (take_ne_nil Nat.one_pos hlen)
    have hnone := hidle (.serverReadable 1 (.takes 0)) trivial
    have hpoll : readsSome 1 s.toServer sconn = true :=
      (readsSome_iff hsin).mpr
        ⟨Nat.one_pos, hlen, Buffer.readFdOffered_pos _⟩
    simp [EchoSystem.step, pollable, hsconn, hpoll, onServer, hu] at hnone
  have hclientBacklog : cconn.conn.backlog = [] := by
    by_contra hne
    have hpoll := hcin.awaitsWrite_iff.mpr hne
    have hnone := hidle (.clientWritable (.takes 1)) Nat.one_pos
    simp [EchoSystem.step, pollable, hcconn, hpoll, onClient] at hnone
  rw [stages_flatten, hsconn, hcconn] at hwhole
  simpa [backlogOf, htoClient, hserverBacklog, htoServer, hclientBacklog]
    using hwhole

/-- A run of moving events has no more of them than there was work. -/
theorem Sound.run_moves
    {s t : EchoSystem} (hs : s.Sound) (hopen : s.BothOpen)
    {moves : List EchoEvent} (hmoves : ∀ e ∈ moves, Moving e)
    (hrun : run EchoSystem.step s moves = some t) :
    t.Sound ∧ t.BothOpen ∧ t.written = s.written ∧
      moves.length + work t.stages ≤ work s.stages := by
  have hkeeps :
      ∀ u e u', (u.Sound ∧ u.BothOpen ∧ u.written = s.written) →
        Moving e → EchoSystem.step u e = some u' →
        (u'.Sound ∧ u'.BothOpen ∧ u'.written = s.written) ∧
          work u'.stages + 1 ≤ work u.stages + 0 := by
    rintro u e u' ⟨hu, huopen, huwritten⟩ he hstep
    obtain ⟨hopen', hwritten', hless⟩ := hu.moves huopen he hstep
    exact
      ⟨⟨hu.step hstep, hopen', hwritten'.trans huwritten⟩, by omega⟩
  obtain ⟨⟨ht, htopen, htwritten⟩, hbound⟩ :=
    length_of_run (W := fun u => work u.stages) (C := fun _ => 0)
      hkeeps ⟨hs, hopen, rfl⟩ hmoves hrun
  exact ⟨ht, htopen, htwritten, by simpa using hbound⟩

/-- Once the client writes no more, every schedule of moving events ends after
a bounded number of them, and where it ends the client has everything back. -/
theorem echo_completes
    (serverHandler clientHandler : IOHandler ConnHandlerCallback)
    (serverQuit clientQuit : Bool)
    {es moves : List EchoEvent} {s t : EchoSystem}
    (hrun :
      run step
        (connected serverHandler clientHandler serverQuit clientQuit) es =
        some s)
    (hopen : s.BothOpen)
    (hmoves : ∀ e ∈ moves, Moving e)
    (hrun' : run step s moves = some t) :
    moves.length ≤ work s.stages ∧ t.BothOpen ∧
      ((∀ e, Moving e → t.step e = none) → t.received = s.written) := by
  have hsound : s.Sound :=
    invariant_of_run (I := Sound) (P := fun _ => True)
      (fun s e s' hs _ hstep => hs.step hstep)
      (connected_sound serverHandler clientHandler serverQuit clientQuit)
      (fun _ _ => trivial) hrun
  obtain ⟨ht, htopen, hwritten, hbound⟩ :=
    hsound.run_moves hopen hmoves hrun'
  refine ⟨by omega, htopen, ?_⟩
  intro hidle
  rw [← hwritten]
  exact ht.idle htopen hidle

def sampleEvents : List EchoEvent :=
  [.sendMessage [48] (.takes 3), .serverReadable 2 (.takes 1),
    .serverWritable (.takes 1), .clientReadable 1]

theorem sampleEvents_run :
    ∃ s, run step (connected (.create 5) (.create 6) false false)
        sampleEvents = some s ∧ s.BothOpen := by
  have hopen :
      ((run step (connected (.create 5) (.create 6) false false)
        sampleEvents).map fun s => s.server.isSome && s.client.isSome) =
          some true := by
    decide +kernel
  obtain ⟨s, hs, hboth⟩ := Option.map_eq_some_iff.mp hopen
  exact ⟨s, hs, by simpa [BothOpen] using hboth⟩

theorem echo_intact_sample :
    ∃ s, run step (connected (.create 5) (.create 6) false false)
        sampleEvents = some s ∧
      s.received <+: s.written ∧
        (s.server.isSome = true → s.client.isSome = true →
          s.stages.flatten = s.written) := by
  obtain ⟨s, hs, _⟩ := sampleEvents_run
  exact ⟨s, hs, echo_intact (.create 5) (.create 6) false false hs⟩

theorem echo_completes_sample :
    ∃ s t, run step (connected (.create 5) (.create 6) false false)
        sampleEvents = some s ∧
      run step s [.clientReadable 1] = some t ∧
      1 ≤ work s.stages ∧ t.BothOpen ∧
        ((∀ e, Moving e → t.step e = none) → t.received = s.written) := by
  obtain ⟨s, hs, hopen⟩ := sampleEvents_run
  have hsome :
      (run step (connected (.create 5) (.create 6) false false)
        (sampleEvents ++ [.clientReadable 1])).isSome = true := by
    decide +kernel
  rw [run_append, hs, Option.bind_some] at hsome
  obtain ⟨t, ht⟩ := Option.isSome_iff_exists.mp hsome
  refine ⟨s, t, hs, ht, ?_⟩
  exact echo_completes (.create 5) (.create 6) false false hs hopen
    (by simp [Moving]) ht

end EchoSystem

end Hohnor
