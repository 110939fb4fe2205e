import Hohnor.IPerf3
import Hohnor.ReadUntil

/-!
# The request benchmark

`WrkHttpServer` of benchmark/wrk/wrk_server.cpp and `HttpClient` of
benchmark/wrk/wrk_client.cpp.  The client writes one request on each of its
connections and writes the next one when a response has come back; the server
answers when readUntil finds the empty line at the end of a request.

On a new connection readUntil searches only what is past the first
`kInitialSize` bytes of the stream.  The requests of this client are shorter
unless its host name is as long, so the two wait for each other: no request is
ever answered.
-/

namespace Hohnor

open TransitionRuns FifoChannel

/-- The end of the headers, for which both programs read. -/
def headersEnd : Bytes := asciiText "\r\n\r\n"

namespace WrkHttpServer

def body : String :=
  "Hello, wrk! This is a high-performance HTTP server built with Hohnor library."

def body404 : String := "404 Not Found"

/-- A response of prepareHttpResponses. -/
def httpResponse (statusLine text : String) : Bytes :=
  asciiText statusLine ++ asciiText "Content-Type: text/plain\r\n" ++
    asciiText "Content-Length: " ++ toStringBytes text.length ++
    asciiText "\r\n" ++ asciiText "Connection: keep-alive\r\n" ++
    asciiText "Server: Hohnor-wrk/1.0\r\n" ++ asciiText "\r\n" ++
    asciiText text

def httpResponse200_ : Bytes := httpResponse "HTTP/1.1 200 OK\r\n" body

def httpResponse404_ : Bytes :=
  httpResponse "HTTP/1.1 404 Not Found\r\n" body404

/-- `isspace` in the classic locale. -/
def isSpace (b : Byte) : Bool :=
  b = 32 || (9 ≤ b && b ≤ 13)

/-- `iss >> word`: the word and what is left of the stream; there is no word
where the stream has only white space left. -/
def readWord (text : Bytes) : Bytes × Bytes :=
  let rest := text.dropWhile isSpace
  (rest.takeWhile fun b => !isSpace b, rest.dropWhile fun b => !isSpace b)

def parseAndGenerateResponse (request : Bytes) : Bytes :=
  let method := readWord request
  let path := readWord method.2
  if method.1 = asciiText "GET" then
    if path.1 = asciiText "/" ∨ path.1 = asciiText "/index.html" ∨
        path.1 = asciiText "/test" then
      httpResponse200_
    else
      httpResponse404_
  else
    httpResponse200_

/-- `WrkHttpServer::handleNewConnection`. -/
def handleNewConnection (clientConnection : ConnState) :
    Option ConnState :=
  ((((clientConnection.setTCPNoDelay true).setReadCompleteCallback
    (some echoDataCallback)).setCloseCallback
      (some echoCloseCallback)).setErrorCallback
        (some echoErrorCallback)).readUntil headersEnd

/-- `WrkHttpServer::handleHttpRequest`; `r` answers the `::write` of the
response.  All that is in the read buffer is taken as one request. -/
def handleHttpRequest (r : WriteResult) : UserCode :=
  fun conn =>
    if 0 < conn.conn.readBuffer_.readableBytes then
      (conn.retrieveAllInput.write some r
        (parseAndGenerateResponse
          conn.conn.readBuffer_.retrieveAllAsString.1)).bind
        (ConnState.readUntil headersEnd)
    else
      some conn

end WrkHttpServer

namespace HttpClient

/-- The request of prepareHttpRequest. -/
def httpRequest (serverHost : Bytes) (serverPort : UInt16) : Bytes :=
  asciiText "GET / HTTP/1.1\r\n" ++
    asciiText "Host: " ++ serverHost ++ asciiText ":" ++
    toStringBytes serverPort.toNat ++ asciiText "\r\n" ++
    asciiText "User-Agent: Hohnor-wrk-client/1.0\r\n" ++
    asciiText "Accept: */*\r\n" ++
    asciiText "Connection: keep-alive\r\n" ++
    asciiText "\r\n"

/-- `HttpClient::handleNewConnection` up to the call of sendHttpRequest. -/
def handleNewConnection (conn : ConnState) : ConnState :=
  (((conn.setTCPNoDelay true).setReadCompleteCallback
    (some echoDataCallback)).setCloseCallback
      (some echoCloseCallback)).setErrorCallback (some echoErrorCallback)

/-- `HttpClient::handleHttpResponse`; the timer that it adds is in the step. -/
def handleHttpResponse : UserCode :=
  fun conn =>
    if 0 < conn.conn.readBuffer_.readableBytes then
      some conn.retrieveAllInput
    else
      some conn

end HttpClient

/-- A connection of the client and its counterpart in clients_ of the server.
`timers` are the timers of the client that will call sendHttpRequest, `disables`
the functors of handleClose in its queue, and `received` collects what the
server has read.  The client keeps a connection that has been closed. -/
structure WrkLink where
  server : Option ConnState
  client : Option ConnState
  toServer : Bytes
  toClient : Bytes
  timers : Nat
  disables : Nat
  received : Bytes

/-- The fields of WrkHttpServer and of ClientStats that count, with the request
of the client.  They count without the bound of uint64_t, so 0 means never. -/
structure WrkBenchmark where
  links : List WrkLink
  totalRequests_ : Nat
  totalBytesReceived_ : Nat
  totalBytesSent_ : Nat
  httpRequest_ : Bytes
  running_ : Bool
  requestsSent : Nat
  responsesReceived : Nat
  bytesSent : Nat
  bytesReceived : Nat
  errors : Nat

/-- `inTime` is the test of the clock against testEndTime_. -/
inductive WrkEvent where
  | connect (serverHandler clientHandler : IOHandler ConnHandlerCallback)
      (serverQuit clientQuit : Bool) (inTime : Bool) (r : WriteResult)
  | timer (i : Nat) (inTime : Bool) (r : WriteResult)
  | clientReadable (i : Nat) (n : Nat) (inTime : Bool)
  | clientWritable (i : Nat) (r : WriteResult)
  | clientHangup (i : Nat)
  | clientReadFails (i : Nat) (e : Errno)
  | clientError (i : Nat)
  | clientDisable (i : Nat)
  | clientStop
  | serverReadable (i : Nat) (n : Nat) (r : WriteResult)
  | serverWritable (i : Nat) (r : WriteResult)
  | serverHangup (i : Nat)
  | serverReadFails (i : Nat) (e : Errno)
  | serverError (i : Nat)
  | serverStop

namespace WrkBenchmark

/-- The client has been started and has not connected yet. -/
def start (serverHost : Bytes) (serverPort : UInt16) : WrkBenchmark where
  links := []
  totalRequests_ := 0
  totalBytesReceived_ := 0
  totalBytesSent_ := 0
  httpRequest_ := HttpClient.httpRequest serverHost serverPort
  running_ := true
  requestsSent := 0
  responsesReceived := 0
  bytesSent := 0
  bytesReceived := 0
  errors := 0

/-- `HttpClient::sendHttpRequest` on connection `i`. -/
def sendHttpRequest
    (s : WrkBenchmark) (i : Nat) (inTime : Bool) (r : WriteResult) :
    Option WrkBenchmark :=
  (s.links[i]?).bind fun l =>
    match l.client with
    | none => some s
    | some conn =>
        if s.running_ && !conn.isClosed && inTime then
          ((conn.write some r s.httpRequest_).bind
            (ConnState.readUntil headersEnd)).map fun conn' =>
              { s with
                links :=
                  s.links.set i
                    { l with
                      client := some conn'
                      toServer := l.toServer ++ conn.sentSince conn' }
                requestsSent := s.requestsSent + 1
                bytesSent := s.bytesSent + s.httpRequest_.length }
        else
          some s

/-- Run an operation of the client's connection `i`, where the event can be
dispatched, with the first `n` bytes of the stream.  Each response that it takes
adds a timer as long as the test runs, and each call of the error callback
counts. -/
def onClient
    (s : WrkBenchmark) (i : Nat) (ready : WrkLink → ConnState → Bool)
    (n : Nat) (inTime : Bool)
    (op : WrkLink → ConnState → Option ConnState) : Option WrkBenchmark :=
  (s.links[i]?).bind fun l =>
    l.client.bind fun conn =>
      if ready l conn then
        (op l conn).map fun conn' =>
          let responses := conn.takenSince conn'
          { s with
            links :=
              s.links.set i
                { l with
                  client := some conn'
                  toClient := l.toClient.drop n
                  toServer := l.toServer ++ conn.sentSince conn'
                  timers :=
                    l.timers +
                      if s.running_ && inTime then responses.length else 0
                  disables :=
                    l.disables +
                      (conn'.queuedDisables - conn.queuedDisables) }
            responsesReceived := s.responsesReceived + responses.length
            bytesReceived :=
              s.bytesReceived + (responses.map List.length).sum
            errors :=
              s.errors +
                (conn'.events.drop conn.events.length).count
                  (.error echoErrorCallback) }
      else
        none

/-- Run an operation of the server's connection `i`, where the event can be
dispatched, with the first `n` bytes of the stream.  The close and error
callbacks erase the connection. -/
def onServer
    (s : WrkBenchmark) (i : Nat) (ready : WrkLink → ConnState → Bool)
    (n : Nat) (op : WrkLink → ConnState → Option ConnState) :
    Option WrkBenchmark :=
  (s.links[i]?).bind fun l =>
    l.server.bind fun conn =>
      if ready l conn then
        (op l conn).map fun conn' =>
          let requests := conn.takenSince conn'
          { s with
            links :=
              s.links.set i
                { l with
                  server :=
                    if conn.endsSince conn' then none else some conn'
                  toServer := l.toServer.drop n
                  toClient := l.toClient ++ conn.sentSince conn'
                  received := l.received ++ l.toServer.take n }
            totalRequests_ := s.totalRequests_ + requests.length
            totalBytesReceived_ :=
              s.totalBytesReceived_ + (requests.map List.length).sum
            totalBytesSent_ :=
              s.totalBytesSent_ +
                (requests.map fun request =>
                  (WrkHttpServer.parseAndGenerateResponse
                    request).length).sum }
      else
        none

/-- A timer of connection `i` fires. -/
def fireTimer
    (s : WrkBenchmark) (i : Nat) (inTime : Bool) (r : WriteResult) :
    Option WrkBenchmark :=
  (s.links[i]?).bind fun l =>
    if 0 < l.timers then
      ({ s with
          links := s.links.set i { l with timers := l.timers - 1 }
        }).sendHttpRequest i inTime r
    else
      none

/-- The loop of the client runs a functor of handleClose. -/
def runDisable (s : WrkBenchmark) (i : Nat) : Option WrkBenchmark :=
  (s.links[i]?).bind fun l =>
    l.client.bind fun conn =>
      if 0 < l.disables then
        (conn.onHandler fun h => h.disable conn.quit_).map fun conn' =>
          { s with
            links :=
              s.links.set i
                { l with
                  client := some conn'
                  disables := l.disables - 1 } }
      else
        none

/-- A new connection before the client writes on it. -/
def fresh
    (serverHandler clientHandler : IOHandler ConnHandlerCallback)
    (serverQuit clientQuit : Bool) : WrkLink where
  server :=
    WrkHttpServer.handleNewConnection
      (TCPConnection.create serverHandler serverQuit)
  client :=
    some
      (HttpClient.handleNewConnection
        (TCPConnection.create clientHandler clientQuit))
  toServer := []
  toClient := []
  timers := 0
  disables := 0
  received := []

/-- `connect` stands for the first connections and for those that the client
makes again after a close. -/
def step (s : WrkBenchmark) : WrkEvent → Option WrkBenchmark
  | .connect serverHandler clientHandler serverQuit clientQuit inTime r =>
      ({ s with
          links :=
            s.links ++
              [fresh serverHandler clientHandler serverQuit clientQuit]
        }).sendHttpRequest s.links.length inTime r
  | .timer i inTime r => s.fireTimer i inTime r
  | .clientReadable i n inTime =>
      s.onClient i (fun l => EchoSystem.readsSome n l.toClient) n inTime
        fun l =>
          ConnState.handleRead HttpClient.handleHttpResponse
            (.delivers (l.toClient.take n))
  | .clientWritable i r =>
      s.onClient i (fun _ => ConnState.awaitsWrite) 0 false
        fun _ => some ∘ ConnState.handleWrite r
  | .clientHangup i =>
      s.onClient i
        (fun l conn =>
          conn.awaitsRead && l.server.isNone && l.toClient.isEmpty) 0 false
        fun _ =>
          ConnState.handleRead HttpClient.handleHttpResponse (.delivers [])
  | .clientReadFails i e =>
      s.onClient i (fun _ => ConnState.awaitsRead) 0 false
        fun _ =>
          ConnState.handleRead HttpClient.handleHttpResponse (.fails e)
  | .clientError i =>
      s.onClient i (fun _ => ConnState.isEnabled) 0 false
        fun _ => some ∘ ConnState.handleError
  | .clientDisable i => s.runDisable i
  | .clientStop =>
      some
        { s with
          running_ := false
          links := s.links.map fun l => { l with client := none } }
  | .serverReadable i n r =>
      s.onServer i (fun l => EchoSystem.readsSome n l.toServer) n
        fun l =>
          ConnState.handleRead (WrkHttpServer.handleHttpRequest r)
            (.delivers (l.toServer.take n))
  | .serverWritable i r =>
      s.onServer i (fun _ => ConnState.awaitsWrite) 0
        fun _ => some ∘ ConnState.handleWrite r
  | .serverHangup i =>
      s.onServer i
        (fun l conn =>
          conn.awaitsRead && l.client.isNone && l.toServer.isEmpty) 0
        fun _ =>
          ConnState.handleRead (WrkHttpServer.handleHttpRequest (.takes 0))
            (.delivers [])
  | .serverReadFails i e =>
      s.onServer i (fun _ => ConnState.awaitsRead) 0
        fun _ =>
          ConnState.handleRead (WrkHttpServer.handleHttpRequest (.takes 0))
            (.fails e)
  | .serverError i =>
      s.onServer i (fun _ _ => true) 0
        fun _ => some ∘ ConnState.handleError
  | .serverStop =>
      some
        { s with
          links := s.links.map fun l => { l with server := none } }

end WrkBenchmark

namespace ConnState

/-- The server has read `received` on a new connection and has not found the
end of the headers in it. -/
structure Waiting (received : Bytes) (s : ConnState) : Prop where
  only : s.conn.readBuffer_.OnlyRead received
  armed :
    s.conn.readStopCondition_ = some (untilDelimiter headersEnd)
  idle : s.conn.writing_ = false

theorem Waiting.addEvents
    {received : Bytes} {s : ConnState} (hs : s.Waiting received)
    (es : List ConnEvent) :
    (s.addEvents es).Waiting received :=
  ⟨hs.only, hs.armed, hs.idle⟩

/-- The server's connection after handleNewConnection. -/
theorem newServer_waiting
    (handler : IOHandler ConnHandlerCallback) (quit : Bool) :
    ∃ s, WrkHttpServer.handleNewConnection
        (TCPConnection.create handler quit) = some s ∧
      s.Waiting [] := by
  obtain ⟨h, hh, _⟩ := create_handler handler quit
  have hbuffer : (TCPConnection.create handler quit).conn.readBuffer_ =
      .empty :=
    congrArg ReadView.readBuffer_ (create_readView handler quit).1
  have hwriting : (TCPConnection.create handler quit).conn.writing_ =
      false :=
    congrArg OutputView.writing_ (create_outputView handler quit)
  rw [WrkHttpServer.handleNewConnection]
  generalize TCPConnection.create handler quit = s₀ at hh hbuffer hwriting
  generalize ht :
    ((((s₀.setTCPNoDelay true).setReadCompleteCallback
      (some echoDataCallback)).setCloseCallback
        (some echoCloseCallback)).setErrorCallback
          (some echoErrorCallback)).setReadStopCondition
            (some (untilDelimiter headersEnd)) = t
  have hth : t.conn.socketHandler_ = some h := by
    rw [← ht]
    exact hh
  obtain ⟨s, hs, _, hconn⟩ := enableIfDisabled_conn hth
  refine ⟨s, ?_, ?_, ?_, ?_⟩
  · rw [readUntil, readUntilCondition, ht]
    exact hs
  · have hempty : s.conn.readBuffer_ = .empty := by
      rw [hconn, ← ht]
      exact hbuffer
    rw [hempty]
    exact Buffer.empty_onlyRead
  · rw [hconn, ← ht]
    rfl
  · rw [hconn, ← ht]
    exact hwriting

/-- Of a stream that is not longer than `kInitialSize` and three bytes, less
than the end of the headers is searched. -/
theorem Waiting.read
    {received : Bytes} {s : ConnState} (hs : s.Waiting received)
    {data : Bytes} (hdata : data ≠ [])
    (hfits : data.length ≤ s.conn.readBuffer_.readFdOffered)
    (hshort : (received ++ data).length ≤ kInitialSize + 3)
    (code : UserCode) :
    s.handleRead code (.delivers data) =
        some
          (s.setReadBuffer (s.conn.readBuffer_.readFd (.delivers data))) ∧
      (s.setReadBuffer
        (s.conn.readBuffer_.readFd (.delivers data))).Waiting
          (received ++ data) := by
  have honly := hs.only.readFd hdata
  have hspilled :
      data.length - s.conn.readBuffer_.writableBytes < 2 ^ 31 :=
    KernelFits.spilled (s := s) (e := ⟨some, data⟩) hfits
  have hwindow := hs.only.searchWindow_eq hdata
  have hmissing :
      ¬ headersEnd <:+: (received ++ data).drop
        (max kInitialSize received.length) := by
    intro hfound
    have hlen := hfound.length_le
    have hfour : headersEnd.length = 4 := by decide
    have hpos := List.length_pos_iff.mpr hdata
    rw [List.length_drop] at hlen
    omega
  have hcontent :
      (s.setReadBuffer
        (s.conn.readBuffer_.readFd
          (.delivers data))).conn.readBuffer_.readableBytes ≠ 0 := by
    intro hzero
    have hnil := honly.valid.readableSlice_eq_nil_iff.mpr hzero
    rw [honly.readable, List.append_eq_nil_iff] at hnil
    exact hdata hnil.2
  refine ⟨?_, honly, hs.armed, hs.idle⟩
  rw [handleRead_delivers code hdata, dispatchRead,
    stopsReading_armed hs.armed,
    untilDelimiter_readFd (by decide) hs.only.valid hspilled, hwindow,
    Option.map_some, Option.bind_some, decide_eq_false hmissing]
  simp only [Bool.false_eq_true, if_false, Option.map_some]
  rw [shrinkReadBuffer_of_content hcontent]

/-- An operation of the client in which it takes nothing and hands nothing to
its connection. -/
structure JustSends (s s' : ConnState) : Prop where
  consistent : s'.outputView.Consistent
  moved : s.sentSince s' ++ s'.conn.backlog = s.conn.backlog
  untaken : s.takenSince s' = []

theorem justSends_handleWrite
    {s : ConnState} (hs : s.outputView.Consistent) (r : WriteResult) :
    JustSends s (s.handleWrite r) := by
  obtain ⟨hcons, hchannel⟩ := handleWrite_refines r hs
  have hsent : (s.handleWrite r).sent =
      s.sent ++ s.conn.backlog.take r.count :=
    congrArg Channel.delivered hchannel
  have hback : (s.handleWrite r).conn.backlog =
      s.conn.backlog.drop r.count :=
    congrArg Channel.backlog hchannel
  refine ⟨hcons, ?_, ?_⟩
  · rw [sentSince, hsent, List.drop_left, hback, List.take_append_drop]
  · exact takenSince_nil (handleWrite_taken r s)

theorem OnlyNotifies.justSends
    {s s' : ConnState} (h : OnlyNotifies s s')
    (hs : s.outputView.Consistent) :
    JustSends s s' := by
  have htaken := takenSince_nil h.taken
  obtain ⟨es, rfl, _⟩ := h
  refine ⟨hs, ?_, htaken⟩
  rw [sentSince]
  simp [addEvents]

/-- The request is handed to a connection on which nothing waits. -/
theorem send_request
    {s s' : ConnState} (hs : s.outputView.Consistent)
    (hempty : s.conn.backlog = [])
    {r : WriteResult} {request : Bytes}
    (hstep :
      (s.write some r request).bind (readUntil headersEnd) = some s') :
    s'.outputView.Consistent ∧
      s.sentSince s' ++ s'.conn.backlog = request := by
  obtain ⟨t, ht, hread⟩ := Option.bind_eq_some_iff.mp hstep
  obtain ⟨r', hr', _, hwrite⟩ := tolerated_of_write hs ht
  obtain ⟨u, hu, hcons, _, hchannel⟩ :=
    write_refines some_leavesOutput hr' request hs
  obtain rfl : u = t := Option.some.inj (hu.symm.trans hwrite)
  have hmoved := (Offered.of_channel hchannel).moved
  rw [hempty, List.nil_append] at hmoved
  rw [readUntil, readUntilCondition] at hread
  obtain ⟨v, hv, hview⟩ :=
    enableIfDisabled_outputView
      (s := u.setReadStopCondition (some (untilDelimiter headersEnd)))
      hcons.isOpen
  obtain rfl : v = s' := Option.some.inj (hv.symm.trans hread)
  have hsame : v.outputView = u.outputView := hview
  have hsent : v.sent = u.sent := congrArg OutputView.sent hsame
  have hback : v.conn.backlog = u.conn.backlog :=
    congrArg (fun o => o.writeBuffer_.readableSlice) hsame
  refine ⟨hsame ▸ hcons, ?_⟩
  rw [sentSince, hsent, hback]
  exact hmoved

theorem newWrkClient_consistent
    (handler : IOHandler ConnHandlerCallback) (quit : Bool) :
    (HttpClient.handleNewConnection
        (TCPConnection.create handler quit)).outputView.Consistent ∧
      (HttpClient.handleNewConnection
        (TCPConnection.create handler quit)).conn.backlog = [] := by
  refine ⟨create_consistent handler quit, ?_⟩
  have hbuffer :=
    congrArg OutputView.writeBuffer_ (create_outputView handler quit)
  change (TCPConnection.create handler
    quit).outputView.writeBuffer_.readableSlice = []
  rw [hbuffer]
  exact Buffer.ofSize_readableSlice _

end ConnState

namespace WrkBenchmark

/-- A connection on which the request, if it has been written, is on its way to
a server that does not find its end. -/
structure Stuck (request : Bytes) (l : WrkLink) : Prop where
  server : ∀ conn, l.server = some conn → conn.Waiting l.received
  client : ∀ conn, l.client = some conn → conn.outputView.Consistent
  stream :
    l.received ++ l.toServer ++ EchoSystem.backlogOf l.client <+: request
  unanswered : l.toClient = []
  untimed : l.timers = 0

structure Sound (request : Bytes) (s : WrkBenchmark) : Prop where
  request_eq : s.httpRequest_ = request
  links : ∀ l ∈ s.links, Stuck request l
  unhandled :
    s.totalRequests_ = 0 ∧ s.totalBytesReceived_ = 0 ∧
      s.totalBytesSent_ = 0
  unanswered : s.responsesReceived = 0 ∧ s.bytesReceived = 0
  once : s.requestsSent ≤ s.links.length

/-- One link changes; nothing is counted but what is sent. -/
theorem Sound.set
    {request : Bytes} {s s' : WrkBenchmark} (hs : s.Sound request)
    {i : Nat} {l' : WrkLink} (hlinks : s'.links = s.links.set i l')
    (hl' : Stuck request l')
    (hsame :
      s'.httpRequest_ = s.httpRequest_ ∧
        s'.totalRequests_ = s.totalRequests_ ∧
        s'.totalBytesReceived_ = s.totalBytesReceived_ ∧
        s'.totalBytesSent_ = s.totalBytesSent_ ∧
        s'.responsesReceived = s.responsesReceived ∧
        s'.bytesReceived = s.bytesReceived ∧
        s'.requestsSent = s.requestsSent) :
    s'.Sound request := by
  obtain ⟨hrequest, hreq, hrecv, hsent, hresp, hbytes, honce⟩ := hsame
  refine ⟨hrequest.trans hs.request_eq, ?_, ?_, ?_, ?_⟩
  · intro m hm
    rw [hlinks] at hm
    rcases List.mem_or_eq_of_mem_set hm with hm | rfl
    · exact hs.links m hm
    · exact hl'
  · rw [hreq, hrecv, hsent]
    exact hs.unhandled
  · rw [hresp, hbytes]
    exact hs.unanswered
  · rw [honce, hlinks, List.length_set]
    exact hs.once

/-- An event of a client that takes nothing. -/
theorem Sound.onClient
    {request : Bytes} {s s' : WrkBenchmark} (hs : s.Sound request)
    {i n : Nat} {inTime : Bool}
    {ready : WrkLink → ConnState → Bool}
    {op : WrkLink → ConnState → Option ConnState}
    (hop :
      ∀ l conn conn', Stuck request l → conn.outputView.Consistent →
        ready l conn = true → op l conn = some conn' →
          ConnState.JustSends conn conn')
    (hstep : s.onClient i ready n inTime op = some s') :
    s'.Sound request := by
  obtain ⟨l, hl, hclient⟩ := Option.bind_eq_some_iff.mp hstep
  obtain ⟨conn, hconn, hready⟩ := Option.bind_eq_some_iff.mp hclient
  split at hready
  · rename_i hpoll
    obtain ⟨conn', hconn', rfl⟩ := Option.map_eq_some_iff.mp hready
    have hstuck := hs.links l (List.mem_of_getElem? hl)
    have hsends :=
      hop l conn conn' hstuck (hstuck.client conn hconn) hpoll hconn'
    refine hs.set rfl ⟨hstuck.server, ?_, ?_, ?_, ?_⟩
      ⟨rfl, rfl, rfl, rfl, ?_, ?_, rfl⟩
    · intro c hc
      cases hc
      exact hsends.consistent
    · have hstream := hstuck.stream
      rw [hconn] at hstream
      change l.received ++ (l.toServer ++ conn.sentSince conn') ++
        conn'.conn.backlog <+: request
      rw [List.append_assoc, List.append_assoc, hsends.moved,
        ← List.append_assoc]
      exact hstream
    · change l.toClient.drop n = []
      rw [hstuck.unanswered, List.drop_nil]
    · simp [hsends.untaken, hstuck.untimed]
    · simp [hsends.untaken]
    · simp [hsends.untaken]
  · cases hready

/-- An event of the server in which it handles no request. -/
theorem Sound.onServer
    {request : Bytes} {s s' : WrkBenchmark} (hs : s.Sound request)
    {i n : Nat} {ready : WrkLink → ConnState → Bool}
    {op : WrkLink → ConnState → Option ConnState}
    (hop :
      ∀ l conn conn', Stuck request l → conn.Waiting l.received →
        ready l conn = true → op l conn = some conn' →
          conn'.Waiting (l.received ++ l.toServer.take n) ∧
            conn.takenSince conn' = [] ∧ conn.sentSince conn' = [])
    (hstep : s.onServer i ready n op = some s') :
    s'.Sound request := by
  obtain ⟨l, hl, hserver⟩ := Option.bind_eq_some_iff.mp hstep
  obtain ⟨conn, hconn, hready⟩ := Option.bind_eq_some_iff.mp hserver
  split at hready
  · rename_i hpoll
    obtain ⟨conn', hconn', rfl⟩ := Option.map_eq_some_iff.mp hready
    have hstuck := hs.links l (List.mem_of_getElem? hl)
    obtain ⟨hwaiting, huntaken, hunsent⟩ :=
      hop l conn conn' hstuck (hstuck.server conn hconn) hpoll hconn'
    refine hs.set rfl ⟨?_, hstuck.client, ?_, ?_, hstuck.untimed⟩
      ⟨rfl, ?_, ?_, ?_, rfl, rfl, rfl⟩
    · intro c hc
      rcases EchoSystem.ite_none_or (conn.endsSince conn') conn' with
        hnone | hsome
      · rw [hnone] at hc
        cases hc
      · rw [hsome] at hc
        cases hc
        exact hwaiting
    · change l.received ++ l.toServer.take n ++ l.toServer.drop n ++ _
        <+: request
      rw [List.append_assoc l.received, List.take_append_drop]
      exact hstuck.stream
    · change l.toClient ++ conn.sentSince conn' = []
      rw [hstuck.unanswered, hunsent]
      rfl
    · simp [huntaken]
    · simp [huntaken]
    · simp [huntaken]
  · cases hready

/-- The close and error callbacks leave the server waiting. -/
theorem waiting_notified
    {conn conn' : ConnState} {received : Bytes}
    (hwaiting : conn.Waiting received)
    (honly : ConnState.OnlyNotifies conn conn') (toServer : Bytes) :
    conn'.Waiting (received ++ toServer.take 0) ∧
      conn.takenSince conn' = [] ∧ conn.sentSince conn' = [] := by
  have hnone := ConnState.takenSince_nil honly.taken
  obtain ⟨es, rfl, _⟩ := honly
  rw [List.take_zero, List.append_nil]
  refine ⟨hwaiting.addEvents es, hnone, ?_⟩
  simp [ConnState.sentSince, ConnState.addEvents]

theorem fresh_stuck
    (serverHandler clientHandler : IOHandler ConnHandlerCallback)
    (serverQuit clientQuit : Bool) (request : Bytes) :
    Stuck request
      (fresh serverHandler clientHandler serverQuit clientQuit) := by
  obtain ⟨conn, hserve, hwaiting⟩ :=
    ConnState.newServer_waiting serverHandler serverQuit
  obtain ⟨hcons, hempty⟩ :=
    ConnState.newWrkClient_consistent clientHandler clientQuit
  rw [fresh, hserve]
  refine ⟨?_, ?_, ?_, rfl, rfl⟩
  · intro c hc
    cases hc
    exact hwaiting
  · intro c hc
    cases hc
    exact hcons
  · rw [EchoSystem.backlogOf, hempty]
    exact List.nil_prefix

/-- The client makes a connection and writes its request on it. -/
theorem Sound.connect
    {request : Bytes} {s s' : WrkBenchmark} (hs : s.Sound request)
    {serverHandler clientHandler : IOHandler ConnHandlerCallback}
    {serverQuit clientQuit inTime : Bool} {r : WriteResult}
    (hstep :
      s.step (.connect serverHandler clientHandler serverQuit clientQuit
        inTime r) = some s') :
    s'.Sound request := by
  have hnew :=
    fresh_stuck serverHandler clientHandler serverQuit clientQuit request
  obtain ⟨hcons, hempty⟩ :=
    ConnState.newWrkClient_consistent clientHandler clientQuit
  simp only [WrkBenchmark.step, sendHttpRequest] at hstep
  have hat :
      (s.links ++
        [fresh serverHandler clientHandler serverQuit
          clientQuit])[s.links.length]? =
        some (fresh serverHandler clientHandler serverQuit clientQuit) := by
    simp
  generalize hlink :
    fresh serverHandler clientHandler serverQuit clientQuit = l
    at hnew hat hstep
  have hclient :
      l.client =
        some
          (HttpClient.handleNewConnection
            (TCPConnection.create clientHandler clientQuit)) := by
    rw [← hlink]
    rfl
  have hstreams : l.received = [] ∧ l.toServer = [] := by
    rw [← hlink]
    exact ⟨rfl, rfl⟩
  generalize HttpClient.handleNewConnection
    (TCPConnection.create clientHandler clientQuit) = conn
    at hcons hempty hclient
  have hadded :
      ({ s with links := s.links ++ [l] } : WrkBenchmark).Sound request := by
    refine ⟨hs.request_eq, ?_, hs.unhandled, hs.unanswered, ?_⟩
    · intro m hm
      rcases List.mem_append.mp hm with hm | hm
      · exact hs.links m hm
      · rw [List.mem_singleton.mp hm]
        exact hnew
    · have honce := hs.once
      change s.requestsSent ≤ (s.links ++ [l]).length
      rw [List.length_append]
      omega
  rw [hat, Option.bind_some, hclient] at hstep
  simp only at hstep
  split at hstep
  · obtain ⟨conn', hsend, rfl⟩ := Option.map_eq_some_iff.mp hstep
    obtain ⟨hcons', hmoved⟩ := ConnState.send_request hcons hempty hsend
    refine ⟨hs.request_eq, ?_, hs.unhandled, hs.unanswered, ?_⟩
    · intro m hm
      rcases List.mem_or_eq_of_mem_set hm with hm | rfl
      · exact hadded.links m hm
      · refine ⟨hnew.server, ?_, ?_, hnew.unanswered, hnew.untimed⟩
        · intro c hc
          cases hc
          exact hcons'
        · change l.received ++ (l.toServer ++ conn.sentSince conn') ++
            conn'.conn.backlog <+: request
          rw [hstreams.1, hstreams.2, List.nil_append, List.nil_append,
            hmoved, hs.request_eq]
    · have honce := hs.once
      simp only [List.length_set, List.length_append,
        List.length_singleton]
      omega
  · cases hstep
    exact hadded

/-- Every event leaves the two programs waiting for each other. -/
theorem Sound.step
    {request : Bytes} (hshort : request.length ≤ kInitialSize + 3)
    {s s' : WrkBenchmark} (hs : s.Sound request) {e : WrkEvent}
    (hstep : s.step e = some s') :
    s'.Sound request := by
  cases e with
  | connect serverHandler clientHandler serverQuit clientQuit inTime r =>
      exact hs.connect hstep
  | timer i inTime r =>
      obtain ⟨l, hl, hfire⟩ := Option.bind_eq_some_iff.mp hstep
      have huntimed := (hs.links l (List.mem_of_getElem? hl)).untimed
      rw [if_neg (by omega)] at hfire
      cases hfire
  | clientReadable i n inTime =>
      refine hs.onClient (fun l conn conn' hstuck _ hready _ => ?_) hstep
      rw [hstuck.unanswered] at hready
      simp only [EchoSystem.readsSome, Bool.and_eq_true,
        decide_eq_true_eq, List.length_nil] at hready
      omega
  | clientWritable i r =>
      refine hs.onClient (fun l conn conn' _ hcons _ h => ?_) hstep
      cases h
      exact ConnState.justSends_handleWrite hcons r
  | clientHangup i =>
      refine hs.onClient (fun l conn conn' _ hcons _ h => ?_) hstep
      cases h
      exact (ConnState.handleClose_onlyNotifies conn).justSends hcons
  | clientReadFails i e =>
      refine hs.onClient (fun l conn conn' _ hcons _ h => ?_) hstep
      cases h
      exact (ConnState.handleError_onlyNotifies conn).justSends hcons
  | clientError i =>
      refine hs.onClient (fun l conn conn' _ hcons _ h => ?_) hstep
      cases h
      exact (ConnState.handleError_onlyNotifies conn).justSends hcons
  | clientDisable i =>
      obtain ⟨l, hl, hclient⟩ := Option.bind_eq_some_iff.mp hstep
      obtain ⟨conn, hconn, hrun⟩ := Option.bind_eq_some_iff.mp hclient
      split at hrun
      · obtain ⟨conn', hconn', rfl⟩ := Option.map_eq_some_iff.mp hrun
        have hstuck := hs.links l (List.mem_of_getElem? hl)
        have hview := ConnState.onHandler_outputView hconn'
        have hback : conn'.conn.backlog = conn.conn.backlog :=
          congrArg (fun o => o.writeBuffer_.readableSlice) hview
        refine hs.set rfl ⟨hstuck.server, ?_, ?_, hstuck.unanswered,
          hstuck.untimed⟩ ⟨rfl, rfl, rfl, rfl, rfl, rfl, rfl⟩
        · intro c hc
          cases hc
          rw [hview]
          exact hstuck.client conn hconn
        · have hstream := hstuck.stream
          rw [hconn] at hstream
          change _ ++ conn'.conn.backlog <+: request
          rw [hback]
          exact hstream
      · cases hrun
  | clientStop =>
      cases hstep
      refine ⟨hs.request_eq, ?_, hs.unhandled, hs.unanswered, ?_⟩
      · intro m hm
        obtain ⟨l, hl, rfl⟩ := List.mem_map.mp hm
        have hstuck := hs.links l hl
        refine ⟨hstuck.server, ?_, ?_, hstuck.unanswered,
          hstuck.untimed⟩
        · intro c hc
          cases hc
        · change l.received ++ l.toServer ++ [] <+: request
          rw [List.append_nil]
          exact (List.prefix_append _ _).trans hstuck.stream
      · rw [List.length_map]
        exact hs.once
  | serverReadable i n r =>
      refine hs.onServer
        (fun l conn conn' hstuck hwaiting hready h => ?_) hstep
      simp only [EchoSystem.readsSome, Bool.and_eq_true,
        decide_eq_true_eq] at hready
      obtain ⟨⟨⟨_, hn⟩, hle⟩, hfits⟩ := hready
      have hlen := hstuck.stream.length_le
      simp only [List.length_append] at hlen
      obtain ⟨hread, hwaiting'⟩ :=
        hwaiting.read (EchoSystem.take_ne_nil hn hle)
          (by rw [List.length_take]; omega)
          (by rw [List.length_append, List.length_take]; omega)
          (WrkHttpServer.handleHttpRequest r)
      obtain rfl := Option.some.inj (hread.symm.trans h)
      refine ⟨hwaiting', ConnState.takenSince_nil rfl, ?_⟩
      simp [ConnState.sentSince, ConnState.setReadBuffer]
  | serverWritable i r =>
      refine hs.onServer (fun l conn conn' _ hwaiting _ h => ?_) hstep
      have hidle : conn.handleWrite r = conn := by
        rw [ConnState.handleWrite, if_neg (by simp [hwaiting.idle])]
      obtain rfl : conn = conn' := hidle.symm.trans (Option.some.inj h)
      exact waiting_notified hwaiting
        ⟨[], by simp [ConnState.addEvents], rfl, rfl⟩ l.toServer
  | serverHangup i =>
      refine hs.onServer (fun l conn conn' _ hwaiting _ h => ?_) hstep
      cases h
      exact waiting_notified hwaiting
        (ConnState.handleClose_onlyNotifies conn) l.toServer
  | serverReadFails i e =>
      refine hs.onServer (fun l conn conn' _ hwaiting _ h => ?_) hstep
      cases h
      exact waiting_notified hwaiting
        (ConnState.handleError_onlyNotifies conn) l.toServer
  | serverError i =>
      refine hs.onServer (fun l conn conn' _ hwaiting _ h => ?_) hstep
      cases h
      exact waiting_notified hwaiting
        (ConnState.handleError_onlyNotifies conn) l.toServer
  | serverStop =>
      cases hstep
      refine ⟨hs.request_eq, ?_, hs.unhandled, hs.unanswered, ?_⟩
      · intro m hm
        obtain ⟨l, hl, rfl⟩ := List.mem_map.mp hm
        have hstuck := hs.links l hl
        refine ⟨?_, hstuck.client, hstuck.stream, hstuck.unanswered,
          hstuck.untimed⟩
        intro c hc
        cases hc
      · rw [List.length_map]
        exact hs.once

theorem start_sound
    (serverHost : Bytes) (serverPort : UInt16) :
    (start serverHost serverPort).Sound
      (HttpClient.httpRequest serverHost serverPort) where
  request_eq := rfl
  links := by
    intro l hl
    cases hl
  unhandled := ⟨rfl, rfl, rfl⟩
  unanswered := ⟨rfl, rfl⟩
  once := Nat.zero_le _

/-- **The request benchmark.**  A client whose request is at most three bytes
longer than `kInitialSize` is never answered: whatever the kernel takes and
delivers, and however many connections the client makes, the server handles no
request, and the client writes at most one on each of its connections. -/
theorem never_answers
    {serverHost : Bytes} {serverPort : UInt16}
    (hshort :
      (HttpClient.httpRequest serverHost serverPort).length ≤
        kInitialSize + 3)
    {es : List WrkEvent} {s : WrkBenchmark}
    (hrun : run step (start serverHost serverPort) es = some s) :
    s.totalRequests_ = 0 ∧ s.totalBytesSent_ = 0 ∧
      s.responsesReceived = 0 ∧ s.requestsSent ≤ s.links.length ∧
      ∀ l ∈ s.links, l.toClient = [] ∧
        l.received <+: HttpClient.httpRequest serverHost serverPort := by
  have hsound :
      s.Sound (HttpClient.httpRequest serverHost serverPort) :=
    invariant_of_run
      (I := Sound (HttpClient.httpRequest serverHost serverPort))
      (P := fun _ => True)
      (fun _ _ _ hs _ hstep => hs.step hshort hstep)
      (start_sound serverHost serverPort) (fun _ _ => trivial) hrun
  refine ⟨hsound.unhandled.1, hsound.unhandled.2.2, hsound.unanswered.1,
    hsound.once, fun l hl => ?_⟩
  have hstuck := hsound.links l hl
  refine ⟨hstuck.unanswered, ?_⟩
  have hstream := hstuck.stream
  rw [List.append_assoc] at hstream
  exact (List.prefix_append _ _).trans hstream

/-- Two connections to localhost, on the first of which the server reads the
whole request in two pieces. -/
def sampleEvents : List WrkEvent :=
  [.connect (.create 5) (.create 6) false false true (.takes 300),
    .connect (.create 7) (.create 8) false false true (.takes 7),
    .serverReadable 0 50 (.takes 9), .clientWritable 1 (.takes 20),
    .serverReadable 0 62 (.takes 9), .clientStop]

theorem never_answers_sample :
    ∃ s, run step (start (asciiText "localhost") 8080) sampleEvents =
        some s ∧
      s.requestsSent = 2 ∧ s.totalRequests_ = 0 ∧
      s.responsesReceived = 0 := by
  have hsent :
      (run step (start (asciiText "localhost") 8080) sampleEvents).map
        WrkBenchmark.requestsSent = some 2 := by
    decide +kernel
  obtain ⟨s, hs, htwo⟩ := Option.map_eq_some_iff.mp hsent
  obtain ⟨hnone, _, hno, _⟩ := never_answers (by decide +kernel) hs
  exact ⟨s, hs, htwo, hnone, hno⟩

/-- One byte more, and the request can be handled. -/
example :
    (run step (start (List.replicate 925 97) 8080)
      [.connect (.create 5) (.create 6) false false true (.takes 1028),
        .serverReadable 0 1028 (.takes 9)]).map
        WrkBenchmark.totalRequests_ = some 1 := by
  decide +kernel

end WrkBenchmark

end Hohnor
