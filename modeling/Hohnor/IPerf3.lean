import Hohnor.EchoService

/-!
# The throughput benchmark

`IPerf3Server` of benchmark/iperf3/iperf3_server.cpp and `IPerf3Client` of
benchmark/iperf3/iperf3_client.cpp, any number of clients at one server.

A client writes its send buffer when it is connected, and each time one of its
write-complete functors is run it writes the buffer again: nothing but its own
notifications keeps it going.  The server counts what it reads and throws it
away.

No byte is counted twice or left out, and every client that is connected has
either one functor in its queue or bytes of one buffer waiting for a writable
event, never both and never neither.
-/

namespace Hohnor

open TransitionRuns FifoChannel

namespace ConnState

/-- Write-complete functors put into the loop's queue since `s`. -/
def completesSince (s s' : ConnState) : Nat :=
  (s'.events.drop s.events.length).countP ConnEvent.queuesWriteComplete

/-- `readBuffer.retrieveAll()`. -/
def dropAllInput (s : ConnState) : ConnState :=
  (s.setReadBuffer s.conn.readBuffer_.retrieveAll).addEvents
    [.taken s.conn.readBuffer_.readableSlice]

end ConnState

/-- `IPerf3Server::handleNewConnection`: an option of the socket, and then the
same four calls as in the echo server. -/
def IPerf3Server.handleNewConnection
    (clientConnection : ConnState) : Option ConnState :=
  serveConnection (clientConnection.setTCPNoDelay true)

/-- `IPerf3Server::handleClientData`. -/
def IPerf3Server.handleClientData : UserCode :=
  fun conn =>
    if 0 < conn.conn.readBuffer_.readableBytes then
      conn.dropAllInput.readRaw
    else
      some conn

/-- The callback that calls `IPerf3Client::handleWriteComplete`. -/
def iperfCompleteCallback : UserCallback := 3

/-- `IPerf3Client::handleNewConnection` up to the call of sendData. -/
def IPerf3Client.handleNewConnection (connection : ConnState) : ConnState :=
  (((connection.setTCPNoDelay true).setWriteCompleteCallback
    (some iperfCompleteCallback)).setCloseCallback
      (some echoCloseCallback)).setErrorCallback (some echoErrorCallback)

/-- The send buffer that the constructor of IPerf3Client fills. -/
def IPerf3Client.sendBuffer (bufferSize : Nat) : Bytes :=
  (List.range bufferSize).map fun i => UInt8.ofNat ('A'.toNat + i % 26)

/-- A client, its connection at the server and the stream between them.
`server` is the entry in clients_, and `client` is connection_ as long as
connected_ and running_ are set.  `queued` counts the write-complete functors
in the loop of the client, `bytesReceived` is the field in clientStats_, kept
when the entry is erased, and `received` collects what the server has taken out
of its read buffer. -/
structure IPerf3Link where
  server : Option ConnState
  client : Option ConnState
  sendBuffer_ : Bytes
  bytesSent_ : UInt64
  queued : Nat
  toServer : Bytes
  bytesReceived : UInt64
  received : Bytes

structure IPerf3System where
  links : List IPerf3Link
  totalBytesReceived_ : UInt64

inductive IPerf3Event where
  | connect (serverHandler clientHandler : IOHandler ConnHandlerCallback)
      (serverQuit clientQuit : Bool) (bufferSize : Nat) (r : WriteResult)
  | writeComplete (i : Nat) (r : WriteResult)
  | clientWritable (i : Nat) (r : WriteResult)
  | clientHangup (i : Nat)
  | clientReadFails (i : Nat) (e : Errno)
  | clientError (i : Nat)
  | clientStop (i : Nat)
  | serverReadable (i : Nat) (n : Nat)
  | serverHangup (i : Nat)
  | serverReadFails (i : Nat) (e : Errno)
  | serverError (i : Nat)
  | serverStop

/-- The buffer of a new client is not empty, and its length is an int as write()
takes it. -/
def IPerf3Event.Sized : IPerf3Event → Prop
  | .connect _ _ _ _ bufferSize _ => 0 < bufferSize ∧ bufferSize < 2 ^ 31
  | _ => True

namespace IPerf3Link

/-- Run an operation of the client's connection.  Its close and error callbacks
clear connected_ and running_. -/
def onClient (l : IPerf3Link) (op : ConnState → Option ConnState) :
    Option IPerf3Link :=
  l.client.bind fun conn =>
    (op conn).map fun conn' =>
      { l with
        client := if conn.endsSince conn' then none else some conn'
        queued := l.queued + conn.completesSince conn'
        toServer := l.toServer ++ conn.sentSince conn' }

/-- `IPerf3Client::sendData`, also called by handleWriteComplete. -/
def sendData (l : IPerf3Link) (r : WriteResult) : Option IPerf3Link :=
  match l.client with
  | none => some l
  | some _ =>
      ({ l with
          bytesSent_ :=
            l.bytesSent_ + UInt64.ofNat l.sendBuffer_.length }).onClient
        (ConnState.write some r l.sendBuffer_)

/-- A new connection before the client's first write. -/
def fresh
    (serverHandler clientHandler : IOHandler ConnHandlerCallback)
    (serverQuit clientQuit : Bool) (bufferSize : Nat) : IPerf3Link where
  server :=
    IPerf3Server.handleNewConnection
      (TCPConnection.create serverHandler serverQuit)
  client :=
    some
      (IPerf3Client.handleNewConnection
        (TCPConnection.create clientHandler clientQuit))
  sendBuffer_ := IPerf3Client.sendBuffer bufferSize
  bytesSent_ := 0
  queued := 0
  toServer := []
  bytesReceived := 0
  received := []

/-- The loop of the client runs a write-complete functor. -/
def writeComplete (l : IPerf3Link) (r : WriteResult) : Option IPerf3Link :=
  if 0 < l.queued then
    ({ l with queued := l.queued - 1 }).sendData r
  else
    none

/-- An event of the client's connection, where it can be dispatched. -/
def clientEvent
    (l : IPerf3Link) (ready : ConnState → Bool)
    (op : ConnState → Option ConnState) : Option IPerf3Link :=
  if EchoSystem.pollable l.client ready then l.onClient op else none

end IPerf3Link

namespace IPerf3System

def start : IPerf3System where
  links := []
  totalBytesReceived_ := 0

/-- Link `i` changes. -/
def onLink
    (s : IPerf3System) (i : Nat)
    (f : IPerf3Link → Option IPerf3Link) : Option IPerf3System :=
  (s.links[i]?).bind fun l =>
    (f l).map fun l' => { s with links := s.links.set i l' }

/-- Run an operation of the server's connection of link `i`, where the event
can be dispatched; `data` comes off the stream for it.  The close and error
callbacks erase the connection. -/
def onServer
    (s : IPerf3System) (i : Nat) (ready : IPerf3Link → ConnState → Bool)
    (n : Nat) (op : IPerf3Link → ConnState → Option ConnState) :
    Option IPerf3System :=
  (s.links[i]?).bind fun l =>
    l.server.bind fun conn =>
      if ready l conn then
        (op l conn).map fun conn' =>
          let taken := (conn.takenSince conn').flatten
          let bytesRead := UInt64.ofNat taken.length
          { links :=
              s.links.set i
                { l with
                  server :=
                    if conn.endsSince conn' then none else some conn'
                  bytesReceived := l.bytesReceived + bytesRead
                  toServer := l.toServer.drop n
                  received := l.received ++ taken }
            totalBytesReceived_ := s.totalBytesReceived_ + bytesRead }
      else
        none

def step (s : IPerf3System) : IPerf3Event → Option IPerf3System
  | .connect serverHandler clientHandler serverQuit clientQuit bufferSize r =>
      ((IPerf3Link.fresh serverHandler clientHandler serverQuit clientQuit
        bufferSize).sendData r).map fun l =>
          { s with links := s.links ++ [l] }
  | .writeComplete i r => s.onLink i fun l => l.writeComplete r
  | .clientWritable i r =>
      s.onLink i fun l =>
        l.clientEvent ConnState.awaitsWrite
          (some ∘ ConnState.handleWrite r)
  | .clientHangup i =>
      s.onLink i fun l =>
        if l.server.isNone then
          l.clientEvent ConnState.awaitsRead
            (ConnState.handleRead some (.delivers []))
        else
          none
  | .clientReadFails i e =>
      s.onLink i fun l =>
        l.clientEvent ConnState.awaitsRead
          (ConnState.handleRead some (.fails e))
  | .clientError i =>
      s.onLink i fun l => l.onClient (some ∘ ConnState.handleError)
  | .clientStop i => s.onLink i fun l => some { l with client := none }
  | .serverReadable i n =>
      s.onServer i (fun l => EchoSystem.readsSome n l.toServer) n
        fun l =>
          ConnState.handleRead IPerf3Server.handleClientData
            (.delivers (l.toServer.take n))
  | .serverHangup i =>
      s.onServer i
        (fun l conn =>
          conn.awaitsRead && l.client.isNone && l.toServer.isEmpty) 0
        fun _ =>
          ConnState.handleRead IPerf3Server.handleClientData
            (.delivers [])
  | .serverReadFails i e =>
      s.onServer i (fun _ => ConnState.awaitsRead) 0
        fun _ =>
          ConnState.handleRead IPerf3Server.handleClientData (.fails e)
  | .serverError i =>
      s.onServer i (fun _ _ => true) 0
        fun _ => some ∘ ConnState.handleError
  | .serverStop =>
      some
        { s with
          links := s.links.map fun l => { l with server := none } }

end IPerf3System

namespace ConnState

/-- Since `s` the write-complete functors of the view were queued. -/
theorem Quiet.completesSince
    {s s' : ConnState} (hquiet : Quiet s s') {n : Nat}
    (hn :
      s'.notifyView.writeCompletes = s.notifyView.writeCompletes + n) :
    s.completesSince s' = n := by
  obtain ⟨es, hes, _⟩ := hquiet
  simp only [notifyView, hes, List.countP_append] at hn
  rw [ConnState.completesSince, hes, List.drop_left]
  omega

/-- The write side of a client of the benchmark, enabled or not: EPOLLOUT and
the backlog agree, and a write-complete callback is installed. -/
structure Pumping (s : ConnState) : Prop where
  handler :
    ∃ h, s.conn.socketHandler_ = some h ∧
      h.writeCallback_ = some .handleWrite ∧
      (h.events_.EPOLLOUT = true ↔ s.conn.backlog ≠ [])
  consistent : s.outputView.Consistent
  installed : s.conn.writeCompleteCallback_ = some iperfCompleteCallback
  silent : s.conn.highWaterMarkCallback_ = none

/-- What an operation of the write side does to a pumping connection that is
left with `backlog`. -/
structure Pumps (sent backlog : Bytes) (s s' : ConnState) : Prop where
  pumping : s'.Pumping
  quiet : Quiet s s'
  sent_eq : s'.sent = s.sent ++ sent
  backlog_eq : s'.conn.backlog = backlog
  completes :
    s'.notifyView.writeCompletes =
      s.notifyView.writeCompletes + if backlog = [] then 1 else 0

theorem Pumps.sentSince
    {sent backlog : Bytes} {s s' : ConnState}
    (h : Pumps sent backlog s s') :
    s.sentSince s' = sent := by
  rw [ConnState.sentSince, h.sent_eq, List.drop_left]

theorem Pumps.completesSince
    {sent backlog : Bytes} {s s' : ConnState}
    (h : Pumps sent backlog s s') :
    s.completesSince s' = if backlog = [] then 1 else 0 :=
  h.quiet.completesSince h.completes

/-- Enabling the handler is nothing to the write side. -/
theorem Pumping.enableIfDisabled
    {s s' : ConnState} (hs : s.Pumping)
    (hstep : s.enableIfDisabled = some s') :
    s'.Pumping ∧ s'.conn.enabled = true ∧ Quiet s s' ∧
      s'.sent = s.sent ∧ s'.conn.backlog = s.conn.backlog ∧
      s'.notifyView = s.notifyView := by
  obtain ⟨h, hh, hwrite, hout⟩ := hs.handler
  obtain ⟨t, ht, hsent, hconn⟩ := enableIfDisabled_conn hh
  obtain ⟨u, hu, hview⟩ := enableIfDisabled_outputView hs.consistent.isOpen
  obtain rfl : t = s' := Option.some.inj (ht.symm.trans hstep)
  obtain rfl : u = t := Option.some.inj (hu.symm.trans ht)
  have hback : u.conn.backlog = s.conn.backlog := by
    rw [hconn]
    rfl
  refine ⟨⟨⟨{ h with status_ := .Enabled }, ?_, hwrite, ?_⟩, ?_, ?_, ?_⟩,
    ?_, enableIfDisabled_quiet ht, hsent, hback, ?_⟩
  · rw [hconn]
  · rw [hback]
    exact hout
  · rw [hview]
    exact hs.consistent
  · rw [hconn]
    exact hs.installed
  · rw [hconn]
    exact hs.silent
  · simp [TCPConnection.enabled, hconn, IOHandler.isEnabled]
  · rw [ConnState.enableIfDisabled] at ht
    split at ht
    · cases ht
      rfl
    · exact onHandler_notifyView ht

/-- writeInLoop when nothing waits: what the kernel leaves of the message is
kept, and where it leaves nothing a functor is queued. -/
theorem Pumping.writeInLoop_eq
    {s t : ConnState} (hs : s.Pumping) (hempty : s.conn.backlog = [])
    {r : WriteResult} {message : Bytes} (hmessage : message ≠ [])
    (hstep : writeInLoop some r message s = some t) :
    let u := (s.issue message).accept (message.take r.count)
    (message.drop r.count = [] ∧ t = u.queueWriteComplete) ∨
      (message.drop r.count ≠ [] ∧ t = u.bufferRest (message.drop r.count)) := by
  intro u
  have hdirect := (writesDirectly_issue_iff hs.consistent message).mpr hempty
  have hsilent :
      ∀ (bytes : Bytes) (remaining : Nat),
        notifyHighWaterMark some remaining ((s.issue message).accept bytes) =
          some ((s.issue message).accept bytes) := by
    intro bytes remaining
    have hnone :
        ((s.issue message).accept bytes).conn.highWaterMarkCallback_ =
          none := hs.silent
    rw [notifyHighWaterMark, hnone]
    split <;> rfl
  have hlen : 0 < message.length := List.length_pos_iff.mpr hmessage
  cases r with
  | takes n =>
      rw [writeInLoop, directWrite, if_pos hdirect] at hstep
      have htake : message.take (min n message.length) = message.take n := by
        rw [← List.take_eq_take_min]
      have hdrop := drop_min_length message n
      simp only [WriteResult.returns, Bool.false_eq_true, if_false,
        htake, hdrop] at hstep
      by_cases hall : message.length - min n message.length = 0
      · simp only [hall, if_true, Nat.lt_irrefl, if_false] at hstep
        refine Or.inl ⟨?_, (Option.some.inj hstep).symm⟩
        rw [WriteResult.count, List.drop_eq_nil_iff]
        omega
      · rw [if_pos (Nat.pos_of_ne_zero hall)] at hstep
        simp only [if_neg hall, hsilent, Option.map_some] at hstep
        refine Or.inr ⟨?_, (Option.some.inj hstep).symm⟩
        rw [WriteResult.count, Ne, List.drop_eq_nil_iff]
        omega
  | fails e =>
      have hnothing : (s.issue message).accept [] = s.issue message := by
        simp [accept]
      have hdone :
          directWrite (.fails e) message (s.issue message) =
            { nwrote := 0
              faultError := e = .EPIPE ∨ e = .ECONNRESET
              after := s.issue message } := by
        rw [directWrite, if_pos hdirect]
        rfl
      by_cases hfault : e = .EPIPE ∨ e = .ECONNRESET
      · simp [writeInLoop, hdone, hfault] at hstep
      · have hsame := hsilent [] message.length
        rw [hnothing] at hsame
        simp only [writeInLoop, hdone, decide_eq_true_eq, if_neg hfault,
          Nat.sub_zero, if_pos hlen, hsame, Option.map_some,
          List.drop_zero] at hstep
        refine Or.inr ⟨hmessage, ?_⟩
        rw [← Option.some.inj hstep]
        simp [u, WriteResult.count, hnothing]

theorem queueWriteComplete_sent
    (s : ConnState) :
    s.queueWriteComplete.sent = s.sent := by
  rw [queueWriteComplete]
  split <;> rfl

/-- Bytes are kept for a writable event: EPOLLOUT is set with them. -/
theorem Pumping.bufferRest
    {s : ConnState} (hs : s.Pumping) (hempty : s.conn.backlog = [])
    {rest : Bytes} (hrest : rest ≠ []) :
    (s.bufferRest rest).Pumping ∧ Quiet s (s.bufferRest rest) ∧
      (s.bufferRest rest).sent = s.sent ∧
      (s.bufferRest rest).conn.backlog = rest := by
  obtain ⟨h, hh, hwrite, _⟩ := hs.handler
  have hview := bufferRest_outputView rest s
  have hbuffer :
      (s.bufferRest rest).conn.writeBuffer_ =
        s.conn.writeBuffer_.append rest :=
    congrArg OutputView.writeBuffer_ hview
  have hback : (s.bufferRest rest).conn.backlog = rest := by
    have hslice := hs.consistent.valid.append_readableSlice rest
    rw [TCPConnection.backlog, hbuffer]
    refine hslice.trans ?_
    change s.conn.backlog ++ rest = rest
    rw [hempty, List.nil_append]
  have hwriting : s.conn.writing_ = false := by
    by_contra htrue
    have hset : s.outputView.writing_ = true := by
      simpa [outputView] using htrue
    exact hs.consistent.writing_iff.mp hset hempty
  have hconn :
      (s.bufferRest rest).conn =
        { s.conn with
          socketHandler_ := some (h.setWriteEvent true).1
          writing_ := true
          writeBuffer_ := s.conn.writeBuffer_.append rest } := by
    have hset :=
      @setWriteEvent_conn_of_some
        (s.setWriteBuffer (s.conn.writeBuffer_.append rest)) h hh true
    have hidle :
        (s.setWriteBuffer
          (s.conn.writeBuffer_.append rest)).conn.writing_ = false :=
      hwriting
    rw [ConnState.bufferRest, startWriting, if_neg (by simp [hidle]),
      ConnState.setWriting, hset]
    rfl
  refine ⟨⟨⟨(h.setWriteEvent true).1, by rw [hconn], ?_, ?_⟩, ?_, ?_, ?_⟩,
    bufferRest_quiet rest s, congrArg OutputView.sent hview, hback⟩
  · rw [IOHandler.setWriteEvent, IOHandler.setEvents_fst]
    exact hwrite
  · rw [hback]
    simp [(h.setWriteEvent_bit true).1, hrest]
  · rw [hview]
    exact hs.consistent.buffer hrest
  · rw [hconn]
    exact hs.installed
  · rw [hconn]
    exact hs.silent

/-- A message that is written when nothing waits. -/
theorem Pumping.write
    {s s' : ConnState} (hs : s.Pumping) (hempty : s.conn.backlog = [])
    {r : WriteResult} {message : Bytes} (hmessage : message ≠ [])
    (hstep : s.write some r message = some s') :
    Pumps (message.take r.count) (message.drop r.count) s s' ∧
      s'.conn.enabled = true := by
  have hopen : ¬ s.isClosed = true := by
    have h := hs.consistent.isOpen
    simp only [outputView] at h
    simp [h]
  rw [ConnState.write, if_neg hopen] at hstep
  obtain ⟨t, ht, henable⟩ := Option.bind_eq_some_iff.mp hstep
  have hcase := hs.writeInLoop_eq hempty hmessage ht
  generalize hu :
    (s.issue message).accept (message.take r.count) = u at hcase
  have hupumping : u.Pumping := by
    rw [← hu]
    exact ⟨hs.handler, (hs.consistent.issue message).send _, hs.installed,
      hs.silent⟩
  have huquiet : Quiet s u := by
    rw [← hu]
    exact Quiet.refl s
  have husent : u.sent = s.sent ++ message.take r.count := by
    rw [← hu]
    rfl
  have huempty : u.conn.backlog = [] := by
    rw [← hu]
    exact hempty
  have huview : u.notifyView = s.notifyView := by
    rw [← hu]
    rfl
  have htpumps : Pumps (message.take r.count) (message.drop r.count) s t := by
    rcases hcase with ⟨hnil, rfl⟩ | ⟨hrest, rfl⟩
    · have hview :=
        @queueWriteComplete_notifyView u (by
          rw [huview]
          exact Option.isSome_iff_exists.mpr ⟨_, hs.installed⟩)
      have hconn := queueWriteComplete_conn u
      refine ⟨⟨?_, ?_, ?_, ?_⟩,
        huquiet.trans (queueWriteComplete_quiet u), ?_, ?_, ?_⟩
      · rw [hconn]
        exact hupumping.handler
      · rw [queueWriteComplete_outputView]
        exact hupumping.consistent
      · rw [hconn]
        exact hupumping.installed
      · rw [hconn]
        exact hupumping.silent
      · rw [queueWriteComplete_sent, husent]
      · rw [hconn, huempty, hnil]
      · rw [hview, huview, if_pos hnil]
    · obtain ⟨hpumping, hquiet, hsent, hback⟩ :=
        hupumping.bufferRest huempty hrest
      refine ⟨hpumping, huquiet.trans hquiet, hsent.trans husent, hback, ?_⟩
      rw [bufferRest_notifyView, NotifyView.buffer, huview, if_neg hrest]
      rfl
  obtain ⟨hpumping, henabled, hquiet, hsent, hback, hview⟩ :=
    htpumps.pumping.enableIfDisabled henable
  refine ⟨⟨hpumping, htpumps.quiet.trans hquiet,
    hsent.trans htpumps.sent_eq, hback.trans htpumps.backlog_eq, ?_⟩,
    henabled⟩
  rw [hview]
  exact htpumps.completes

/-- What neither a write nor a writable event changes. -/
def pumpView (s : ConnState) :
    Option (Option ConnHandlerCallback) × Option UserCallback ×
      Option UserCallback :=
  (s.conn.socketHandler_.map fun h => h.writeCallback_,
    s.conn.writeCompleteCallback_, s.conn.highWaterMarkCallback_)

theorem setWriteEvent_pumpView
    (s : ConnState) (on : Bool) :
    (s.setWriteEvent on).pumpView = s.pumpView := by
  cases hh : s.conn.socketHandler_ with
  | none =>
      simp [setWriteEvent, onHandler, hh]
  | some h =>
      rw [pumpView, setWriteEvent_conn_of_some hh, pumpView]
      simp [hh, IOHandler.setWriteEvent, IOHandler.setEvents_fst]

theorem pumpView_kept : KeptByWriting pumpView where
  issue := fun _ _ => rfl
  accept := fun _ _ => rfl
  setWriting := fun _ _ => rfl
  setWriteBuffer := fun _ _ => rfl
  setWriteEvent := setWriteEvent_pumpView
  writeComplete := fun _ _ => rfl
  highWaterMark := fun _ _ => rfl
  error := fun _ _ => rfl

/-- An enabled connection that pumps has its three pieces in step. -/
theorem Pumping.inStep
    {s : ConnState} (hs : s.Pumping) (henabled : s.conn.enabled = true) :
    s.conn.InStep false := by
  obtain ⟨h, hh, _, hout⟩ := hs.handler
  have hasks : s.conn.asksForOutput = true ↔ s.conn.backlog ≠ [] := by
    rw [← hout, TCPConnection.asksForOutput, hh]
  exact ⟨henabled, hs.consistent.valid, hs.consistent.writing_iff.mp,
    hasks.mpr, fun h => Or.inl (hasks.mp h)⟩

/-- A connection whose pieces are in step still pumps where its callbacks are
the same. -/
theorem Pumping.of_inStep
    {s s' : ConnState} (hs : s.Pumping)
    (hview : s'.pumpView = s.pumpView)
    (hcons : s'.outputView.Consistent) (hin : s'.conn.InStep false) :
    s'.Pumping := by
  obtain ⟨h, hh, hwrite, _⟩ := hs.handler
  have hhandler := congrArg Prod.fst hview
  simp only [pumpView, hh, Option.map_some] at hhandler
  obtain ⟨h', hh', hsame⟩ := Option.map_eq_some_iff.mp hhandler
  have hasks : s'.conn.asksForOutput = h'.events_.EPOLLOUT := by
    rw [TCPConnection.asksForOutput, hh']
  refine ⟨⟨h', hh', hsame.trans hwrite, ?_⟩, hcons, ?_, ?_⟩
  · rw [← hasks]
    constructor
    · intro hout
      simpa using hin.backlog_of_asks hout
    · exact hin.asks_of_backlog
  · exact (congrArg (fun v => v.2.1) hview).trans hs.installed
  · exact (congrArg (fun v => v.2.2) hview).trans hs.silent

theorem shrinkWriteBuffer_completes
    (s : ConnState) :
    s.shrinkWriteBuffer.notifyView.writeCompletes =
      s.notifyView.writeCompletes := by
  obtain ⟨b, hb, _⟩ := shrinkWriteBuffer_notifyView s
  rw [hb]

/-- A functor is queued by the writable event that takes the last bytes. -/
theorem Pumping.drained_completes
    {s : ConnState} (hs : s.Pumping) (n : Nat) :
    (s.drained n).notifyView.writeCompletes =
      s.notifyView.writeCompletes +
        if s.conn.backlog.drop n = [] then 1 else 0 := by
  have hslice := hs.consistent.valid.retrieve_readableSlice n
  have hzero :
      (s.retrieveWritten n).conn.writeBuffer_.readableBytes = 0 ↔
        s.conn.backlog.drop n = [] := by
    change (s.conn.writeBuffer_.retrieve n).readableBytes = 0 ↔ _
    have hvalid : (s.conn.writeBuffer_.retrieve n).Valid :=
      hs.consistent.valid.retrieve n
    rw [← hvalid.readableSlice_eq_nil_iff]
    exact hslice ▸ Iff.rfl
  rw [drained]
  by_cases hnil : s.conn.backlog.drop n = []
  · rw [if_pos (hzero.mpr hnil), if_pos hnil, finishWriting,
      shrinkWriteBuffer_completes, queueWriteComplete_notifyView]
    · simp only [setWriting_notifyView, setWriteEvent_notifyView]
      rfl
    · rw [setWriting_notifyView, setWriteEvent_notifyView]
      exact Option.isSome_iff_exists.mpr ⟨_, hs.installed⟩
  · rw [if_neg (fun h => hnil (hzero.mp h)), if_neg hnil]
    rfl

/-- A writable event in which the kernel takes something. -/
theorem Pumping.handleWrite
    {s : ConnState} (hs : s.Pumping) (henabled : s.conn.enabled = true)
    (hback : s.conn.backlog ≠ []) {r : WriteResult} (hr : 0 < r.count) :
    Pumps (s.conn.backlog.take r.count) (s.conn.backlog.drop r.count) s
        (s.handleWrite r) ∧
      (s.handleWrite r).conn.enabled = true := by
  obtain ⟨hcons, hchannel⟩ := handleWrite_refines r hs.consistent
  have hin := handleWrite_inStep (hs.inStep henabled) r
  have hwriting : s.conn.writing_ = true :=
    hs.consistent.writing_iff.mpr hback
  have hlen : 0 < s.conn.writeBuffer_.readableSlice.length :=
    List.length_pos_iff.mpr hback
  cases r with
  | fails e =>
      exact absurd hr (Nat.lt_irrefl 0)
  | takes n =>
      have hn : 0 < n := hr
      have hmin : 0 < min n s.conn.writeBuffer_.readableSlice.length := by
        omega
      have heq : s.handleWrite (.takes n) =
          s.drained (min n s.conn.writeBuffer_.readableSlice.length) := by
        rw [ConnState.handleWrite, if_pos hwriting]
        simp only [WriteResult.returns, if_pos hmin]
      have hcompletes := hs.drained_completes
        (min n s.conn.writeBuffer_.readableSlice.length)
      have hdrop :
          s.conn.backlog.drop
              (min n s.conn.writeBuffer_.readableSlice.length) =
            s.conn.backlog.drop n :=
        drop_min_length s.conn.backlog n
      rw [hdrop, ← heq] at hcompletes
      refine ⟨⟨hs.of_inStep (pumpView_kept.handleWrite _ s) hcons hin, ?_,
        congrArg Channel.delivered hchannel,
        congrArg Channel.backlog hchannel, hcompletes⟩, hin.enabled⟩
      rw [heq]
      exact drained_quiet _ s

theorem Pumping.awaitsWrite_iff
    {s : ConnState} (hs : s.Pumping) (henabled : s.conn.enabled = true) :
    s.awaitsWrite = true ↔ s.conn.backlog ≠ [] := by
  obtain ⟨h, hh, hwrite, hout⟩ := hs.handler
  have hon : h.isEnabled = true := by
    simpa [TCPConnection.enabled, hh] using henabled
  rw [← hout]
  simp [ConnState.awaitsWrite, awaits, hh, hon, hwrite]

theorem Pumping.addEvents
    {s : ConnState} (hs : s.Pumping) (es : List ConnEvent) :
    (s.addEvents es).Pumping :=
  ⟨hs.handler, hs.consistent, hs.installed, hs.silent⟩

/-- The connection of a client before its first sendData. -/
theorem newClient_pumping
    (handler : IOHandler ConnHandlerCallback) (quit : Bool) :
    (IPerf3Client.handleNewConnection
        (TCPConnection.create handler quit)).Pumping ∧
      (IPerf3Client.handleNewConnection
        (TCPConnection.create handler quit)).conn.backlog = [] := by
  obtain ⟨h, hh, _, hout, _, hwrite⟩ := create_handler handler quit
  have hcons := create_consistent handler quit
  have hempty : (TCPConnection.create handler quit).conn.backlog = [] := by
    have hview := create_outputView handler quit
    have hbuffer := congrArg OutputView.writeBuffer_ hview
    change (TCPConnection.create handler
      quit).outputView.writeBuffer_.readableSlice = []
    rw [hbuffer]
    exact Buffer.ofSize_readableSlice _
  have hsilent :
      (TCPConnection.create handler quit).conn.highWaterMarkCallback_ =
        none := by
    rw [TCPConnection.create, setWriteEvent_conn_of_some rfl]
  refine ⟨⟨⟨h, hh, hwrite, ?_⟩, hcons, rfl, hsilent⟩, hempty⟩
  change _ ↔ (TCPConnection.create handler quit).conn.backlog ≠ []
  simp [hout, hempty]

theorem InService.count
    {s : ConnState} (hs : s.InService)
    {data : Bytes} (hdata : data ≠ []) :
    ∃ s', s.handleRead IPerf3Server.handleClientData (.delivers data) =
        some s' ∧
      s'.InService ∧ Quiet s s' ∧ s.takenSince s' = [data] := by
  obtain ⟨hvalid, hslice⟩ := hs.withInput_slice data
  have hlen := hvalid.length_readableSlice
  have hpos := List.length_pos_iff.mpr hdata
  have hin : (s.withInput data).dropAllInput.InService :=
    ((hs.setReadBuffer hvalid.retrieveAll
      (Buffer.retrieveAll_readableSlice _)).addEvents
        [.readComplete echoDataCallback]).addEvents _
  have hquiet : Quiet s (s.withInput data).dropAllInput :=
    (addEvents_quiet
      (s.setReadBuffer (s.conn.readBuffer_.readFd (.delivers data)))
      rfl).trans (addEvents_quiet (s.withInput data) rfl)
  obtain ⟨hafter, hevents, _, _⟩ := hin.shrinkReadBuffer
  refine ⟨(s.withInput data).dropAllInput.shrinkReadBuffer, ?_, hafter,
    ?_, ?_⟩
  · rw [hs.handleRead_eq _ hdata, IPerf3Server.handleClientData,
      if_pos (by rw [← hlen, hslice]; exact hpos), hin.readRaw]
    rfl
  · obtain ⟨es, hes, hall⟩ := hquiet
    exact ⟨es, hevents.trans hes, hall⟩
  · have hadds :
        (s.withInput data).dropAllInput.events =
          s.events ++ [.readComplete echoDataCallback, .taken data] := by
      change s.events ++ [.readComplete echoDataCallback] ++
        [.taken (s.withInput data).conn.readBuffer_.readableSlice] = _
      rw [hslice, List.append_assoc]
      rfl
    refine takenSince_eq ?_
    rw [ConnState.taken, hevents, hadds, List.filterMap_append]
    rfl

end ConnState

/-- A client is driven by one functor in its queue, or by the bytes of one
buffer that wait for a writable event. -/
def Clocked (bufferSize queued : Nat) (backlog : Bytes) : Prop :=
  (queued = 1 ∧ backlog = []) ∨
    (queued = 0 ∧ backlog ≠ [] ∧ backlog.length ≤ bufferSize)

namespace IPerf3Link

/-- The bytes that a client has written: its buffer over and over. -/
def writtenBuffers (l : IPerf3Link) (k : Nat) : Bytes :=
  (List.replicate k l.sendBuffer_).flatten

/-- After `k` calls of sendData, every byte is counted, on its way or waiting
in the client. -/
structure Accounted (l : IPerf3Link) (k : Nat) : Prop where
  filled : l.sendBuffer_ ≠ []
  serving : ∀ conn, l.server = some conn → conn.InService
  counted : l.bytesReceived = UInt64.ofNat l.received.length
  handed : l.bytesSent_ = UInt64.ofNat (k * l.sendBuffer_.length)
  returned : l.received ++ l.toServer <+: l.writtenBuffers k
  whole :
    ∀ conn, l.client = some conn →
      l.received ++ l.toServer ++ conn.conn.backlog = l.writtenBuffers k

/-- A client and its connection at the server between two events. -/
structure Sound (l : IPerf3Link) (k : Nat) : Prop
    extends l.Accounted k where
  pumping :
    ∀ conn, l.client = some conn →
      conn.Pumping ∧ conn.conn.enabled = true
  clocked :
    ∀ conn, l.client = some conn →
      Clocked l.sendBuffer_.length l.queued conn.conn.backlog

/-- The client has made `m` more calls of sendData, or ends. -/
theorem Accounted.clientMoves
    {l : IPerf3Link} {k : Nat} (hl : l.Accounted k)
    {conn conn' : ConnState} (hconn : l.client = some conn)
    (hpumping : conn'.Pumping) (henabled : conn'.conn.enabled = true)
    {client' : Option ConnState}
    (hafter : client' = none ∨ client' = some conn')
    {sent : Bytes} {queued' : Nat} (m : Nat)
    (hmoved :
      sent ++ conn'.conn.backlog =
        conn.conn.backlog ++ l.writtenBuffers m)
    (hclocked : Clocked l.sendBuffer_.length queued' conn'.conn.backlog) :
    ({ l with
        client := client'
        bytesSent_ :=
          l.bytesSent_ + UInt64.ofNat (m * l.sendBuffer_.length)
        queued := queued'
        toServer := l.toServer ++ sent } : IPerf3Link).Sound (k + m) := by
  have hflat :
      l.writtenBuffers (k + m) = l.writtenBuffers k ++ l.writtenBuffers m := by
    rw [writtenBuffers, List.replicate_add, List.flatten_append]
    rfl
  have hwhole :
      l.received ++ (l.toServer ++ sent) ++ conn'.conn.backlog =
        l.writtenBuffers (k + m) := by
    rw [hflat, ← hl.whole conn hconn]
    simp only [List.append_assoc]
    rw [hmoved]
  refine ⟨⟨hl.filled, hl.serving, hl.counted, ?_, ?_, ?_⟩, ?_, ?_⟩
  · change l.bytesSent_ + UInt64.ofNat (m * l.sendBuffer_.length) = _
    rw [hl.handed, Nat.add_mul, UInt64.ofNat_add]
  · change _ <+: l.writtenBuffers (k + m)
    rw [← hwhole]
    exact List.prefix_append _ _
  · intro c hc
    rcases hafter with rfl | rfl
    · cases hc
    · cases hc
      exact hwhole
  · intro c hc
    rcases hafter with rfl | rfl
    · cases hc
    · cases hc
      exact ⟨hpumping, henabled⟩
  · intro c hc
    rcases hafter with rfl | rfl
    · cases hc
    · cases hc
      exact hclocked

theorem add_ofNat_zero
    (count : UInt64) :
    count + UInt64.ofNat 0 = count :=
  UInt64.add_zero count

/-- An event of the client in which nothing is written. -/
theorem Sound.clientNotifies
    {l l' : IPerf3Link} {k : Nat} (hl : l.Sound k)
    {op : ConnState → Option ConnState}
    (hop : ∀ conn conn', op conn = some conn' →
      ConnState.OnlyNotifies conn conn')
    (hstep : l.onClient op = some l') :
    l'.Sound k ∧ l'.received = l.received := by
  obtain ⟨conn, hconn, hmap⟩ := Option.bind_eq_some_iff.mp hstep
  obtain ⟨conn', hconn', rfl⟩ := Option.map_eq_some_iff.mp hmap
  obtain ⟨es, rfl, _, hnone⟩ := hop conn conn' hconn'
  have hsame : conn.completesSince (conn.addEvents es) = 0 := by
    rw [ConnState.completesSince, ConnState.addEvents, List.drop_left]
    exact hnone
  obtain ⟨hpumping, henabled⟩ := hl.pumping conn hconn
  have hmoves :=
    hl.toAccounted.clientMoves hconn (hpumping.addEvents es) henabled
      (EchoSystem.ite_none_or (conn.endsSince (conn.addEvents es)) _) 0
      (show [] ++ (conn.addEvents es).conn.backlog =
        conn.conn.backlog ++ l.writtenBuffers 0 from
          (List.append_nil _).symm)
      (hl.clocked conn hconn)
  rw [Nat.zero_mul, Nat.add_zero, add_ofNat_zero, List.append_nil] at hmoves
  refine ⟨?_, rfl⟩
  rw [hsame]
  simpa [ConnState.sentSince, ConnState.addEvents] using hmoves

/-- sendData of a connected client for which nothing waits. -/
theorem sendData_eq
    {l l' : IPerf3Link} {conn : ConnState} {r : WriteResult}
    (hconn : l.client = some conn) (hpumping : conn.Pumping)
    (hempty : conn.conn.backlog = []) (hfilled : l.sendBuffer_ ≠ [])
    (hstep : l.sendData r = some l') :
    ∃ conn', conn'.Pumping ∧ conn'.conn.enabled = true ∧
      conn'.conn.backlog = l.sendBuffer_.drop r.count ∧
      l' =
        { l with
          client := some conn'
          bytesSent_ :=
            l.bytesSent_ + UInt64.ofNat l.sendBuffer_.length
          queued :=
            l.queued + if l.sendBuffer_.drop r.count = [] then 1 else 0
          toServer := l.toServer ++ l.sendBuffer_.take r.count } := by
  simp only [sendData, hconn] at hstep
  obtain ⟨c, hc, hmap⟩ := Option.bind_eq_some_iff.mp hstep
  obtain ⟨conn', hwrite, rfl⟩ := Option.map_eq_some_iff.mp hmap
  obtain rfl : conn = c := Option.some.inj hc
  obtain ⟨hpumps, henabled⟩ := hpumping.write hempty hfilled hwrite
  refine ⟨conn', hpumps.pumping, henabled, hpumps.backlog_eq, ?_⟩
  simp [hpumps.quiet.endsSince, hpumps.completesSince, hpumps.sentSince]

theorem clocked_of_drop
    {n : Nat} {bytes : Bytes} {bufferSize : Nat}
    (hle : bytes.length ≤ bufferSize) :
    Clocked bufferSize (0 + if bytes.drop n = [] then 1 else 0)
      (bytes.drop n) := by
  by_cases hnil : bytes.drop n = []
  · left
    rw [if_pos hnil]
    exact ⟨rfl, hnil⟩
  · right
    rw [if_neg hnil, List.length_drop]
    exact ⟨rfl, hnil, by omega⟩

/-- The client writes its buffer once more. -/
theorem Accounted.sendData
    {l l' : IPerf3Link} {k : Nat} (hl : l.Accounted k)
    {conn : ConnState} {r : WriteResult}
    (hconn : l.client = some conn) (hpumping : conn.Pumping)
    (hempty : conn.conn.backlog = []) (hqueued : l.queued = 0)
    (hstep : l.sendData r = some l') :
    l'.Sound (k + 1) ∧ l'.received = l.received := by
  obtain ⟨conn', hpumping', henabled, hback, rfl⟩ :=
    sendData_eq hconn hpumping hempty hl.filled hstep
  have hmoves :=
    hl.clientMoves hconn hpumping' henabled (Or.inr rfl) 1
      (show l.sendBuffer_.take r.count ++ conn'.conn.backlog =
          conn.conn.backlog ++ l.writtenBuffers 1 by
        simp [hback, hempty, writtenBuffers])
      (show Clocked l.sendBuffer_.length
          (0 + if l.sendBuffer_.drop r.count = [] then 1 else 0)
            conn'.conn.backlog by
        rw [hback]
        exact clocked_of_drop (Nat.le_refl _))
  rw [hqueued]
  rw [Nat.one_mul] at hmoves
  exact ⟨hmoves, rfl⟩

theorem fresh_accounted
    (serverHandler clientHandler : IOHandler ConnHandlerCallback)
    (serverQuit clientQuit : Bool) {bufferSize : Nat}
    (hsize : 0 < bufferSize) :
    (fresh serverHandler clientHandler serverQuit clientQuit
      bufferSize).Accounted 0 := by
  obtain ⟨conn, hserve, hin, _⟩ :=
    ConnState.serveConnection_inService serverHandler serverQuit
  obtain ⟨_, hempty⟩ :=
    ConnState.newClient_pumping clientHandler clientQuit
  have hserver :
      (fresh serverHandler clientHandler serverQuit clientQuit
        bufferSize).server = some conn := by
    simp only [fresh, IPerf3Server.handleNewConnection,
      ConnState.setTCPNoDelay]
    exact hserve
  refine ⟨?_, ?_, rfl, ?_, ?_, ?_⟩
  · intro hnil
    have hlen := congrArg List.length hnil
    simp [fresh, IPerf3Client.sendBuffer] at hlen
    omega
  · intro c hc
    rw [hserver] at hc
    cases hc
    exact hin
  · rw [Nat.zero_mul]
    rfl
  · simp only [fresh, List.append_nil]
    exact List.nil_prefix
  · intro c hc
    obtain rfl := Option.some.inj hc
    simp only [fresh, List.append_nil, hempty]
    rfl

/-- Both programs have started on a new connection. -/
theorem fresh_sound
    {serverHandler clientHandler : IOHandler ConnHandlerCallback}
    {serverQuit clientQuit : Bool} {bufferSize : Nat} {r : WriteResult}
    (hsize : 0 < bufferSize) {l : IPerf3Link}
    (hstep :
      (fresh serverHandler clientHandler serverQuit clientQuit
        bufferSize).sendData r = some l) :
    l.Sound 1 ∧ l.received = [] := by
  obtain ⟨hpumping, hempty⟩ :=
    ConnState.newClient_pumping clientHandler clientQuit
  exact (fresh_accounted serverHandler clientHandler serverQuit clientQuit
    hsize).sendData rfl hpumping hempty rfl hstep

/-- The loop of the client runs a write-complete functor. -/
theorem Sound.writeComplete
    {l l' : IPerf3Link} {k : Nat} (hl : l.Sound k) {r : WriteResult}
    (hstep : l.writeComplete r = some l') :
    (∃ k', l'.Sound k') ∧ l'.received = l.received := by
  rw [IPerf3Link.writeComplete] at hstep
  split at hstep
  · rename_i hpos
    cases hclient : l.client with
    | none =>
        simp only [IPerf3Link.sendData, hclient] at hstep
        cases hstep
        refine ⟨⟨k, ⟨⟨hl.filled, hl.serving, hl.counted, hl.handed,
          hl.returned, ?_⟩, ?_, ?_⟩⟩, rfl⟩
        all_goals
          intro c hc
          cases hc
    | some conn =>
        obtain ⟨hpumping, _⟩ := hl.pumping conn hclient
        rcases hl.clocked conn hclient with ⟨hone, hempty⟩ | ⟨hzero, _, _⟩
        · have hless :
              ({ l with queued := l.queued - 1 } :
                IPerf3Link).Accounted k :=
            ⟨hl.filled, hl.serving, hl.counted, hl.handed, hl.returned,
              hl.whole⟩
          obtain ⟨hsound, hsame⟩ :=
            hless.sendData hclient hpumping hempty (by simp [hone]) hstep
          exact ⟨⟨k + 1, hsound⟩, hsame⟩
        · omega
  · cases hstep

theorem clientEvent_eq
    {l l' : IPerf3Link} {ready : ConnState → Bool}
    {op : ConnState → Option ConnState}
    (hstep : l.clientEvent ready op = some l') :
    ∃ conn, l.client = some conn ∧ ready conn = true ∧
      l.onClient op = some l' := by
  rw [clientEvent] at hstep
  split at hstep
  · rename_i hready
    cases hclient : l.client with
    | none =>
        rw [hclient] at hready
        cases hready
    | some conn =>
        rw [hclient] at hready
        exact ⟨conn, rfl, hready, hstep⟩
  · cases hstep

/-- A writable event of the client. -/
theorem Sound.clientWritable
    {l l' : IPerf3Link} {k : Nat} (hl : l.Sound k) {r : WriteResult}
    (hstep :
      l.clientEvent ConnState.awaitsWrite
        (some ∘ ConnState.handleWrite r) = some l') :
    l'.Sound k ∧ l'.received = l.received := by
  obtain ⟨conn, hconn, hready, hop⟩ := clientEvent_eq hstep
  obtain ⟨hpumping, henabled⟩ := hl.pumping conn hconn
  have hback := (hpumping.awaitsWrite_iff henabled).mp hready
  rcases Nat.eq_zero_or_pos r.count with hzero | hpos
  · -- the kernel takes nothing: handleWrite calls the error callback
    have herror : conn.handleWrite r = conn.handleError := by
      have hwriting : conn.conn.writing_ = true :=
        hpumping.consistent.writing_iff.mpr hback
      rw [ConnState.handleWrite, if_pos hwriting]
      cases r with
      | fails e => rfl
      | takes n =>
          simp only [WriteResult.count] at hzero
          simp [WriteResult.returns, hzero]
    have hsame : l.onClient (some ∘ ConnState.handleError) = some l' := by
      rw [← hop, onClient, onClient, hconn]
      simp only [Option.bind_some, Function.comp, herror]
    refine hl.clientNotifies (fun c c' hc => ?_) hsame
    obtain rfl : c.handleError = c' := Option.some.inj hc
    exact ConnState.handleError_onlyNotifies c
  · obtain ⟨c, hc, hmap⟩ := Option.bind_eq_some_iff.mp hop
    obtain ⟨conn', hwrite, rfl⟩ := Option.map_eq_some_iff.mp hmap
    obtain rfl : conn = c := Option.some.inj (hconn.symm.trans hc)
    obtain rfl : conn.handleWrite r = conn' := Option.some.inj hwrite
    obtain ⟨hpumps, henabled'⟩ := hpumping.handleWrite henabled hback hpos
    rcases hl.clocked conn hconn with ⟨_, hempty⟩ | ⟨hqueued, _, hle⟩
    · exact absurd hempty hback
    · have hmoves :=
        hl.toAccounted.clientMoves hconn hpumps.pumping henabled'
          (Or.inr rfl) 0
          (show conn.conn.backlog.take r.count ++
              (conn.handleWrite r).conn.backlog =
              conn.conn.backlog ++ l.writtenBuffers 0 by
            simp [hpumps.backlog_eq, writtenBuffers])
          (show Clocked l.sendBuffer_.length
              (0 + if conn.conn.backlog.drop r.count = [] then 1 else 0)
                (conn.handleWrite r).conn.backlog by
            rw [hpumps.backlog_eq]
            exact clocked_of_drop hle)
      rw [Nat.zero_mul, Nat.add_zero, add_ofNat_zero] at hmoves
      refine ⟨?_, rfl⟩
      simpa [hpumps.quiet.endsSince, hpumps.completesSince,
        hpumps.sentSince, hqueued] using hmoves

/-- The server takes the first `n` bytes off the stream and counts them. -/
theorem Sound.serverMoves
    {l : IPerf3Link} {k : Nat} (hl : l.Sound k)
    {conn' : ConnState} (hin : conn'.InService)
    {server' : Option ConnState}
    (hafter : server' = none ∨ server' = some conn')
    {n : Nat} {taken : Bytes} (htaken : taken = l.toServer.take n) :
    ({ l with
        server := server'
        bytesReceived := l.bytesReceived + UInt64.ofNat taken.length
        toServer := l.toServer.drop n
        received := l.received ++ taken } :
      IPerf3Link).Sound k := by
  have hsame :
      l.received ++ taken ++ l.toServer.drop n =
        l.received ++ l.toServer := by
    rw [htaken, List.append_assoc, List.take_append_drop]
  refine ⟨⟨hl.filled, ?_, ?_, hl.handed, ?_, ?_⟩, hl.pumping, hl.clocked⟩
  · intro c hc
    rcases hafter with rfl | rfl
    · cases hc
    · cases hc
      exact hin
  · change l.bytesReceived + _ = UInt64.ofNat (l.received ++ taken).length
    rw [hl.counted, List.length_append, UInt64.ofNat_add]
  · rw [hsame]
    exact hl.returned
  · intro c hc
    rw [hsame]
    exact hl.whole c hc

end IPerf3Link

namespace IPerf3System

structure Sound (s : IPerf3System) : Prop where
  links : ∀ l ∈ s.links, ∃ k, l.Sound k
  total :
    s.totalBytesReceived_ =
      UInt64.ofNat (s.links.map fun l => l.received.length).sum

/-- A measure summed over the components of a system, after one of them has
changed. -/
theorem sum_map_set
    {σ : Type} {f : σ → Nat} {l : List σ} {i : Nat} {s : σ}
    (hs : l[i]? = some s) (s' : σ) :
    ((l.set i s').map f).sum + f s = (l.map f).sum + f s' := by
  induction l generalizing i with
  | nil =>
      cases hs
  | cons a l ih =>
      cases i with
      | zero =>
          cases hs
          simp only [List.set_cons_zero, List.map_cons, List.sum_cons]
          omega
      | succ i =>
          have hrest := ih hs
          simp only [List.set_cons_succ, List.map_cons, List.sum_cons]
          omega

/-- One link changes, and what the server has counted of it is in the total. -/
theorem Sound.set
    {s : IPerf3System} (hs : s.Sound)
    {i : Nat} {l l' : IPerf3Link} (hl : s.links[i]? = some l)
    (hl' : ∃ k, l'.Sound k)
    {taken : Bytes} (htaken : l'.received = l.received ++ taken) :
    ({ links := s.links.set i l'
       totalBytesReceived_ :=
         s.totalBytesReceived_ + UInt64.ofNat taken.length } :
      IPerf3System).Sound := by
  constructor
  · intro m hm
    rcases List.mem_or_eq_of_mem_set hm with hm | rfl
    · exact hs.links m hm
    · exact hl'
  · have hsum :=
      sum_map_set (f := fun l : IPerf3Link => l.received.length) hl l'
    rw [htaken, List.length_append] at hsum
    have htotal :
        ((s.links.set i l').map fun l => l.received.length).sum =
          (s.links.map fun l => l.received.length).sum + taken.length := by
      omega
    change s.totalBytesReceived_ + UInt64.ofNat taken.length =
      UInt64.ofNat ((s.links.set i l').map fun l => l.received.length).sum
    rw [htotal, hs.total, UInt64.ofNat_add]

theorem Sound.onLink
    {s s' : IPerf3System} (hs : s.Sound) {i : Nat}
    {f : IPerf3Link → Option IPerf3Link}
    (hf :
      ∀ l k l', l.Sound k → f l = some l' →
        (∃ k', l'.Sound k') ∧ l'.received = l.received)
    (hstep : s.onLink i f = some s') :
    s'.Sound := by
  obtain ⟨l, hl, hmap⟩ := Option.bind_eq_some_iff.mp hstep
  obtain ⟨l', hl', rfl⟩ := Option.map_eq_some_iff.mp hmap
  obtain ⟨k, hk⟩ := hs.links l (List.mem_of_getElem? hl)
  obtain ⟨hsound, hsame⟩ := hf l k l' hk hl'
  have hnone : l'.received = l.received ++ [] :=
    hsame.trans (List.append_nil _).symm
  simpa using hs.set hl hsound hnone

theorem Sound.onServer
    {s s' : IPerf3System} (hs : s.Sound) {i n : Nat}
    {ready : IPerf3Link → ConnState → Bool}
    {op : IPerf3Link → ConnState → Option ConnState}
    (hop :
      ∀ l conn conn', conn.InService → ready l conn = true →
        op l conn = some conn' →
          conn'.InService ∧
            (conn.takenSince conn').flatten = l.toServer.take n)
    (hstep : s.onServer i ready n op = some s') :
    s'.Sound := by
  obtain ⟨l, hl, hserver⟩ := Option.bind_eq_some_iff.mp hstep
  obtain ⟨conn, hconn, hready⟩ := Option.bind_eq_some_iff.mp hserver
  split at hready
  · rename_i hpoll
    obtain ⟨conn', hconn', rfl⟩ := Option.map_eq_some_iff.mp hready
    obtain ⟨k, hk⟩ := hs.links l (List.mem_of_getElem? hl)
    obtain ⟨hin, hread⟩ :=
      hop l conn conn' (hk.serving conn hconn) hpoll hconn'
    exact hs.set hl
      ⟨k, hk.serverMoves hin (EchoSystem.ite_none_or _ conn') hread⟩ rfl
  · cases hready

/-- The close and error callbacks take nothing out of the read buffer. -/
theorem notified
    {conn conn' : ConnState} (hin : conn.InService)
    (honly : ConnState.OnlyNotifies conn conn') (toServer : Bytes) :
    conn'.InService ∧
      (conn.takenSince conn').flatten = toServer.take 0 := by
  rw [ConnState.takenSince_nil honly.taken]
  obtain ⟨es, rfl, _⟩ := honly
  exact ⟨hin.addEvents es, rfl⟩

/-- Every event keeps the benchmark sound. -/
theorem Sound.step
    {s s' : IPerf3System} (hs : s.Sound) {e : IPerf3Event}
    (he : e.Sized) (hstep : s.step e = some s') :
    s'.Sound := by
  cases e with
  | connect serverHandler clientHandler serverQuit clientQuit bufferSize r =>
      obtain ⟨l, hl, rfl⟩ := Option.map_eq_some_iff.mp hstep
      obtain ⟨hsound, hzero⟩ := IPerf3Link.fresh_sound he.1 hl
      constructor
      · intro m hm
        rcases List.mem_append.mp hm with hm | hm
        · exact hs.links m hm
        · rw [List.mem_singleton.mp hm]
          exact ⟨1, hsound⟩
      · rw [List.map_append, List.sum_append, List.map_singleton, hzero]
        exact hs.total
  | writeComplete i r =>
      exact hs.onLink (fun l k l' hl h => hl.writeComplete h) hstep
  | clientWritable i r =>
      refine hs.onLink (fun l k l' hl h => ?_) hstep
      obtain ⟨hsound, hsame⟩ := hl.clientWritable h
      exact ⟨⟨k, hsound⟩, hsame⟩
  | clientHangup i =>
      refine hs.onLink (fun l k l' hl h => ?_) hstep
      split at h
      · obtain ⟨_, _, _, hop⟩ := IPerf3Link.clientEvent_eq h
        obtain ⟨hsound, hsame⟩ :=
          hl.clientNotifies (fun c c' hc => by
            cases hc
            exact ConnState.handleClose_onlyNotifies c) hop
        exact ⟨⟨k, hsound⟩, hsame⟩
      · cases h
  | clientReadFails i e =>
      refine hs.onLink (fun l k l' hl h => ?_) hstep
      obtain ⟨_, _, _, hop⟩ := IPerf3Link.clientEvent_eq h
      obtain ⟨hsound, hsame⟩ :=
        hl.clientNotifies (fun c c' hc => by
          cases hc
          exact ConnState.handleError_onlyNotifies c) hop
      exact ⟨⟨k, hsound⟩, hsame⟩
  | clientError i =>
      refine hs.onLink (fun l k l' hl h => ?_) hstep
      obtain ⟨hsound, hsame⟩ :=
        hl.clientNotifies (fun c c' hc => by
          cases hc
          exact ConnState.handleError_onlyNotifies c) h
      exact ⟨⟨k, hsound⟩, hsame⟩
  | clientStop i =>
      refine hs.onLink (fun l k l' hl h => ?_) hstep
      cases h
      refine ⟨⟨k, ⟨⟨hl.filled, hl.serving, hl.counted, hl.handed,
        hl.returned, ?_⟩, ?_, ?_⟩⟩, rfl⟩
      all_goals
        intro c hc
        cases hc
  | serverReadable i n =>
      refine hs.onServer (fun l conn conn' hin hready h => ?_) hstep
      obtain ⟨hn, hle, _⟩ := (EchoSystem.readsSome_iff hin).mp hready
      obtain ⟨u, hu, hin', _, htaken⟩ :=
        hin.count (EchoSystem.take_ne_nil hn hle)
      obtain rfl : u = conn' := Option.some.inj (hu.symm.trans h)
      exact ⟨hin', by simp [htaken]⟩
  | serverHangup i =>
      refine hs.onServer (fun l conn conn' hin _ h => ?_) hstep
      cases h
      exact notified hin (ConnState.handleClose_onlyNotifies conn) _
  | serverReadFails i e =>
      refine hs.onServer (fun l conn conn' hin _ h => ?_) hstep
      cases h
      exact notified hin (ConnState.handleError_onlyNotifies conn) _
  | serverError i =>
      refine hs.onServer (fun l conn conn' hin _ h => ?_) hstep
      cases h
      exact notified hin (ConnState.handleError_onlyNotifies conn) _
  | serverStop =>
      cases hstep
      constructor
      · intro m hm
        obtain ⟨l, hl, rfl⟩ := List.mem_map.mp hm
        obtain ⟨k, hk⟩ := hs.links l hl
        refine ⟨k, ⟨⟨hk.filled, ?_, hk.counted, hk.handed, hk.returned,
          hk.whole⟩, hk.pumping, hk.clocked⟩⟩
        intro c hc
        cases hc
      · rw [List.map_map]
        exact hs.total

theorem start_sound : start.Sound where
  links := by
    intro l hl
    cases hl
  total := rfl

theorem run_sound
    {es : List IPerf3Event} (hes : ∀ e ∈ es, e.Sized)
    {s : IPerf3System} (hrun : run step start es = some s) :
    s.Sound :=
  invariant_of_run (I := Sound) (P := IPerf3Event.Sized)
    (fun _ _ _ hs he hstep => hs.step he hstep) start_sound hes hrun

/-- The total is the number of bytes that the server has read from all clients,
closed ones too, modulo 2^64.  Of each client these are the first bytes of its
buffer written over and over; what is on its way and what waits in the client
follow, and bytesSent_ is the length of all of it, modulo 2^64. -/
theorem counts_every_byte
    {es : List IPerf3Event} (hes : ∀ e ∈ es, e.Sized)
    {s : IPerf3System} (hrun : run step start es = some s) :
    s.totalBytesReceived_ =
        UInt64.ofNat (s.links.map fun l => l.received.length).sum ∧
      ∀ l ∈ s.links, ∃ k,
        l.bytesReceived = UInt64.ofNat l.received.length ∧
        l.bytesSent_ = UInt64.ofNat (l.writtenBuffers k).length ∧
        l.received ++ l.toServer <+: l.writtenBuffers k ∧
        ∀ conn, l.client = some conn →
          l.received ++ l.toServer ++ conn.conn.backlog =
            l.writtenBuffers k := by
  have hsound := run_sound hes hrun
  refine ⟨hsound.total, ?_⟩
  intro l hl
  obtain ⟨k, hk⟩ := hsound.links l hl
  refine ⟨k, hk.counted, ?_, hk.returned, hk.whole⟩
  rw [hk.handed, IPerf3Link.writtenBuffers, List.length_flatten,
    List.map_replicate, List.sum_replicate_nat]

theorem onLink_isSome
    {s : IPerf3System} {i : Nat} {l : IPerf3Link}
    (hl : s.links[i]? = some l) {f : IPerf3Link → Option IPerf3Link}
    (hf : (f l).isSome = true) :
    (s.onLink i f).isSome = true := by
  rw [onLink, hl, Option.bind_some, Option.isSome_map]
  exact hf

/-- A client that is connected has one functor in its queue or bytes of one
buffer waiting, never more and never neither, and its loop can go on with it:
the benchmark does not stall, whatever the kernel takes at each call. -/
theorem never_stalls
    {es : List IPerf3Event} (hes : ∀ e ∈ es, e.Sized)
    {s : IPerf3System} (hrun : run step start es = some s)
    {i : Nat} {l : IPerf3Link} (hl : s.links[i]? = some l)
    {conn : ConnState} (hconn : l.client = some conn) :
    (l.queued = 1 ∧ conn.conn.backlog = [] ∧
        ∀ r : WriteResult, r.Tolerated →
          (s.step (.writeComplete i r)).isSome = true) ∨
      (l.queued = 0 ∧ conn.conn.backlog ≠ [] ∧
        conn.conn.backlog.length ≤ l.sendBuffer_.length ∧
        ∀ r, (s.step (.clientWritable i r)).isSome = true) := by
  obtain ⟨k, hk⟩ :=
    (run_sound hes hrun).links l (List.mem_of_getElem? hl)
  obtain ⟨hpumping, henabled⟩ := hk.pumping conn hconn
  rcases hk.clocked conn hconn with ⟨hone, hempty⟩ | ⟨hzero, hback, hle⟩
  · refine Or.inl ⟨hone, hempty, fun r hr => ?_⟩
    obtain ⟨conn', hwrite, _⟩ :=
      ConnState.write_refines some_leavesOutput hr l.sendBuffer_
        hpumping.consistent
    refine onLink_isSome hl (f := fun l => l.writeComplete r) ?_
    rw [IPerf3Link.writeComplete, if_pos (by omega), IPerf3Link.sendData]
    simp only [hconn, IPerf3Link.onClient, Option.bind_some, hwrite,
      Option.map_some]
    rfl
  · refine Or.inr ⟨hzero, hback, hle, fun r => ?_⟩
    refine onLink_isSome hl
      (f := fun l =>
        l.clientEvent ConnState.awaitsWrite
          (some ∘ ConnState.handleWrite r)) ?_
    rw [IPerf3Link.clientEvent, hconn, EchoSystem.pollable_some,
      if_pos ((hpumping.awaitsWrite_iff henabled).mpr hback)]
    simp only [IPerf3Link.onClient, hconn, Option.bind_some,
      Function.comp, Option.map_some]
    rfl

/-- Two clients, the first of which writes its three bytes a second time. -/
def sampleEvents : List IPerf3Event :=
  [.connect (.create 5) (.create 6) false false 3 (.takes 1),
    .connect (.create 7) (.create 8) false false 2 (.takes 2),
    .serverReadable 0 1, .clientWritable 0 (.takes 2),
    .writeComplete 0 (.takes 2), .serverReadable 0 4]

theorem sampleEvents_sized : ∀ e ∈ sampleEvents, e.Sized := by
  intro e he
  rcases List.mem_cons.mp he with rfl | he
  · exact ⟨by decide, by decide⟩
  · rcases List.mem_cons.mp he with rfl | he
    · exact ⟨by decide, by decide⟩
    · fin_cases he <;> trivial

theorem sampleEvents_run :
    ∃ s l conn, run step start sampleEvents = some s ∧
      s.totalBytesReceived_ = 5 ∧ s.links[0]? = some l ∧
      l.client = some conn := by
  have hsome :
      ((run step start sampleEvents).bind fun s =>
        (s.links[0]?).bind fun l =>
          l.client.map fun _ => s.totalBytesReceived_) = some 5 := by
    decide +kernel
  obtain ⟨s, hs, hlink⟩ := Option.bind_eq_some_iff.mp hsome
  obtain ⟨l, hl, hclient⟩ := Option.bind_eq_some_iff.mp hlink
  obtain ⟨conn, hconn, htotal⟩ := Option.map_eq_some_iff.mp hclient
  exact ⟨s, l, conn, hs, htotal, hl, hconn⟩

theorem counts_every_byte_sample :
    ∃ s, run step start sampleEvents = some s ∧
      s.totalBytesReceived_ = 5 ∧
      s.totalBytesReceived_ =
        UInt64.ofNat (s.links.map fun l => l.received.length).sum := by
  obtain ⟨s, _, _, hs, htotal, _⟩ := sampleEvents_run
  exact ⟨s, hs, htotal, (counts_every_byte sampleEvents_sized hs).1⟩

theorem never_stalls_sample :
    ∃ s, ∃ l : IPerf3Link, ∃ conn : ConnState,
      run step start sampleEvents = some s ∧
      ((l.queued = 1 ∧ conn.conn.backlog = [] ∧
          ∀ r : WriteResult, r.Tolerated →
            (s.step (.writeComplete 0 r)).isSome = true) ∨
        (l.queued = 0 ∧ conn.conn.backlog ≠ [] ∧
          conn.conn.backlog.length ≤ l.sendBuffer_.length ∧
          ∀ r, (s.step (.clientWritable 0 r)).isSome = true)) := by
  obtain ⟨s, l, conn, hs, _, hl, hconn⟩ := sampleEvents_run
  exact ⟨s, l, conn, hs, never_stalls sampleEvents_sized hs hl hconn⟩

end IPerf3System

end Hohnor
