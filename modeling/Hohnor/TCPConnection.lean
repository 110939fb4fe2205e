import Hohnor.Buffer
import Hohnor.IOHandler

/-!
# The TCP connection in its loop thread

`TCPConnection` of include/hohnor/net/TCPConnection.h and
src/net/TCPConnection.cpp.  Every operation runs in the loop thread, where
runInLoop calls its functor at once.

`ConnState` is the connection with what the code around it observes: the
bytes the kernel took, the messages in the order in which writeInLoop was
entered, and the list of calls to the loop, to epoll and to the user.

An operation is partial.  It has no result where the program aborts (HCHECK),
where a null handler is dereferenced, and where the stop condition reads
outside the storage.  The two user callbacks that are called in the middle of
an operation are arguments of it: functions from the state in which they are
called to the state that they leave.
-/

namespace Hohnor

/-- The name of a user's function object. -/
abbrev UserCallback := Nat

/-- What a TCPConnection installs on its handler. -/
inductive ConnHandlerCallback where
  | handleRead
  | handleWrite
  | handleClose
  | handleError
deriving DecidableEq, Repr

/-- A stop condition sees the read buffer; none is an access outside of the
storage. -/
abbrev ReadStopCondition := Buffer → Option Bool

structure TCPConnection where
  socketHandler_ : Option (IOHandler ConnHandlerCallback)
  writing_ : Bool
  readBuffer_ : Buffer
  writeBuffer_ : Buffer
  highWaterMark_ : Nat
  highWaterMarkCallback_ : Option UserCallback
  readCompleteCallback_ : Option UserCallback
  writeCompleteCallback_ : Option UserCallback
  readStopCondition_ : Option ReadStopCondition
  closeCallback_ : Option UserCallback
  errorCallback_ : Option UserCallback

/-- Functors that a connection puts into its loop's queue. -/
inductive ConnFunctor where
  | writeComplete (cb : UserCallback)
  | disableHandler
deriving DecidableEq, Repr

/-- Effects of a connection's operations outside of its own fields, and the
bytes that the user takes out of the read buffer. -/
inductive ConnEvent where
  | epoll (ctl : EpollCtl)
  | queued (f : ConnFunctor)
  | highWaterMark (cb : UserCallback)
  | readComplete (cb : UserCallback)
  | closed (cb : UserCallback)
  | error (cb : UserCallback)
  | shutdownWrite
  | taken (bytes : Bytes)
deriving DecidableEq, Repr

structure ConnState where
  conn : TCPConnection
  quit_ : Bool
  sent : Bytes
  issued : List Bytes
  events : List ConnEvent

/-- A user's function that is called in the middle of an operation. -/
abbrev UserCode := ConnState → Option ConnState

namespace ConnState

def addEvents (s : ConnState) (es : List ConnEvent) : ConnState :=
  { s with events := s.events ++ es }

/-- The kernel takes bytes. -/
def accept (s : ConnState) (bytes : Bytes) : ConnState :=
  { s with sent := s.sent ++ bytes }

/-- A write call is entered. -/
def issue (s : ConnState) (message : Bytes) : ConnState :=
  { s with issued := s.issued ++ [message] }

def setWriting (s : ConnState) (on : Bool) : ConnState :=
  { s with conn := { s.conn with writing_ := on } }

def setWriteBuffer (s : ConnState) (b : Buffer) : ConnState :=
  { s with conn := { s.conn with writeBuffer_ := b } }

def setReadBuffer (s : ConnState) (b : Buffer) : ConnState :=
  { s with conn := { s.conn with readBuffer_ := b } }

def setReadStopCondition
    (s : ConnState) (condition : Option ReadStopCondition) : ConnState :=
  { s with conn := { s.conn with readStopCondition_ := condition } }

def isClosed (s : ConnState) : Bool :=
  s.conn.socketHandler_.isNone

/-- `Socket::isEnabled`. -/
def isEnabled (s : ConnState) : Bool :=
  match s.conn.socketHandler_ with
  | none => false
  | some h => h.isEnabled

/-- Call an operation of the handler; a null handler has none. -/
def onHandler
    (op : IOHandler ConnHandlerCallback →
      IOHandler ConnHandlerCallback × List EpollCtl)
    (s : ConnState) : Option ConnState :=
  match s.conn.socketHandler_ with
  | none => none
  | some h =>
      some
        ({ s with
            conn := { s.conn with socketHandler_ := some (op h).1 }
          }.addEvents ((op h).2.map .epoll))

/-- An open connection has a handler to call. -/
theorem onHandler_isSome
    (op : IOHandler ConnHandlerCallback →
      IOHandler ConnHandlerCallback × List EpollCtl)
    {s : ConnState}
    (hopen : s.isClosed = false) :
    ∃ s', s.onHandler op = some s' := by
  unfold onHandler
  cases hh : s.conn.socketHandler_ with
  | none =>
      simp [isClosed, hh] at hopen
  | some h =>
      exact ⟨_, rfl⟩

/-- `TCPConnection::setWriteEvent`. -/
def setWriteEvent (s : ConnState) (on : Bool) : ConnState :=
  match s.onHandler (fun h => h.setWriteEvent on) with
  | none => s
  | some s' => s'

/-- `enable()` unless the handler is enabled, as the public operations do. -/
def enableIfDisabled (s : ConnState) : Option ConnState :=
  if s.isEnabled then some s else s.onHandler IOHandler.enable

/-- `queueInLoop(std::bind(writeCompleteCallback_, ...))` if it is set. -/
def queueWriteComplete (s : ConnState) : ConnState :=
  match s.conn.writeCompleteCallback_ with
  | none => s
  | some cb => s.addEvents [.queued (.writeComplete cb)]

def handleError (s : ConnState) : ConnState :=
  match s.conn.errorCallback_ with
  | none => s
  | some cb => s.addEvents [.error cb]

def handleClose (s : ConnState) : ConnState :=
  let s' :=
    if s.isClosed then s
    else s.addEvents [.queued .disableHandler]
  match s'.conn.closeCallback_ with
  | none => s'
  | some cb => s'.addEvents [.closed cb]

/-- The bytes on their way to the peer: what the kernel took, then what the
write buffer still holds. -/
def output (s : ConnState) : Bytes :=
  s.sent ++ s.conn.writeBuffer_.readableSlice

/-- writeInLoop writes directly when no data is in the output queue. -/
def writesDirectly (s : ConnState) : Bool :=
  !s.conn.writing_ && s.conn.writeBuffer_.readableBytes = 0

end ConnState

/-- Result of the first part of writeInLoop. -/
structure DirectWrite where
  nwrote : Nat
  faultError : Bool
  after : ConnState

namespace ConnState

/-- The direct `::write` of writeInLoop, if it is made. -/
def directWrite (r : WriteResult) (message : Bytes) (s : ConnState) :
    DirectWrite :=
  if s.writesDirectly then
    match r.returns message with
    | .ok nwrote =>
        { nwrote := nwrote
          faultError := false
          after :=
            if message.length - nwrote = 0 then
              (s.accept (message.take nwrote)).queueWriteComplete
            else
              s.accept (message.take nwrote) }
    | .error e =>
        { nwrote := 0
          faultError := e = .EPIPE ∨ e = .ECONNRESET
          after := s }
  else
    { nwrote := 0, faultError := false, after := s }

/-- The high water mark is crossed by `remaining` more bytes. -/
def crossesHighWaterMark (remaining : Nat) (s : ConnState) : Bool :=
  let oldLen := s.conn.writeBuffer_.readableBytes
  oldLen + remaining ≥ s.conn.highWaterMark_ ∧
    oldLen < s.conn.highWaterMark_

/-- The high water mark test of writeInLoop with the call it makes. -/
def notifyHighWaterMark
    (onHighWaterMark : UserCode) (remaining : Nat) (s : ConnState) :
    Option ConnState :=
  if s.crossesHighWaterMark remaining then
    match s.conn.highWaterMarkCallback_ with
    | none => some s
    | some cb => onHighWaterMark (s.addEvents [.highWaterMark cb])
  else
    some s

/-- Ask for writable events unless that has been done. -/
def startWriting (s : ConnState) : ConnState :=
  if s.conn.writing_ then s
  else (s.setWriteEvent true).setWriting true

/-- The tail of writeInLoop: keep what was not sent. -/
def bufferRest (rest : Bytes) (s : ConnState) : ConnState :=
  (s.setWriteBuffer (s.conn.writeBuffer_.append rest)).startWriting

/-- `TCPConnection::writeInLoop`. -/
def writeInLoop
    (onHighWaterMark : UserCode)
    (r : WriteResult) (message : Bytes) (s : ConnState) :
    Option ConnState :=
  let d := directWrite r message (s.issue message)
  if d.faultError then
    none
  else if 0 < message.length - d.nwrote then
    (notifyHighWaterMark onHighWaterMark
      (message.length - d.nwrote) d.after).map
        (bufferRest (message.drop d.nwrote))
  else
    some d.after

/-- `::write` took the first `n` bytes of the write buffer. -/
def retrieveWritten (n : Nat) (s : ConnState) : ConnState :=
  (s.accept (s.conn.writeBuffer_.readableSlice.take n)).setWriteBuffer
    (s.conn.writeBuffer_.retrieve n)

/-- handleWrite drops storage that is large. -/
def shrinkWriteBuffer (s : ConnState) : ConnState :=
  if s.conn.writeBuffer_.capacity > 1024 * 1024 then
    s.setWriteBuffer (s.conn.writeBuffer_.shrink 0)
  else
    s

/-- handleWrite when all data is written. -/
def finishWriting (s : ConnState) : ConnState :=
  ((s.setWriteEvent false).setWriting
    false).queueWriteComplete.shrinkWriteBuffer

/-- handleWrite once `::write` took `n > 0` bytes. -/
def drained (n : Nat) (s : ConnState) : ConnState :=
  if (s.retrieveWritten n).conn.writeBuffer_.readableBytes = 0 then
    (s.retrieveWritten n).finishWriting
  else
    s.retrieveWritten n

/-- `TCPConnection::handleWrite`. -/
def handleWrite (r : WriteResult) (s : ConnState) : ConnState :=
  if s.conn.writing_ then
    match r.returns s.conn.writeBuffer_.readableSlice with
    | .ok n => if 0 < n then s.drained n else s.handleError
    | .error _ => s.handleError
  else
    s

/-- `TCPConnection::write` of a message. -/
def write
    (onHighWaterMark : UserCode)
    (r : WriteResult) (message : Bytes) (s : ConnState) :
    Option ConnState :=
  if s.isClosed then
    s.enableIfDisabled
  else
    (writeInLoop onHighWaterMark r message s).bind enableIfDisabled

/-- `TCPConnection::write()`: only ask for writable events. -/
def writePending (s : ConnState) : Option ConnState :=
  if s.isClosed then
    s.enableIfDisabled
  else
    (s.onHandler (fun h => h.setWriteEvent true)).bind enableIfDisabled

/-- `TCPConnection::shutdown`. -/
def shutdown (s : ConnState) : ConnState :=
  s.addEvents [.shutdownWrite]

/-- `TCPConnection::forceClose`. -/
def forceClose (s : ConnState) : ConnState :=
  match s.onHandler (fun h => h.disable s.quit_) with
  | none => s
  | some s' => s'

/-- `TCPConnection::readRaw`. -/
def readRaw (s : ConnState) : Option ConnState :=
  (s.setReadStopCondition none).enableIfDisabled

/-- `TCPConnection::readUntilCondition`. -/
def readUntilCondition (condition : ReadStopCondition) (s : ConnState) :
    Option ConnState :=
  (s.setReadStopCondition (some condition)).enableIfDisabled

end ConnState

/-- `std::search` finds the pattern somewhere in the text. -/
def containsPattern (pattern : Bytes) : Bytes → Bool
  | [] => pattern.isEmpty
  | b :: text =>
      pattern.isPrefixOf (b :: text) || containsPattern pattern text

/-- The bytes that `readUntil` searches: the last lastWriteBytes() bytes in
front of beginWrite(), if they lie in the storage. -/
def searchedBytes (buffer : Buffer) : Option Bytes :=
  if 0 ≤ buffer.lastWriteBytes ∧
      buffer.lastWriteBytes ≤ buffer.writerIndex_ then
    some
      (ListSegments.segment buffer.buffer_
        (buffer.writerIndex_ - buffer.lastWriteBytes.toNat)
        buffer.writerIndex_)
  else
    none

/-- The stop condition that `readUntil` makes.  An empty range has nothing
found in it: `std::search` then returns its end. -/
def untilDelimiter (delimiter : Bytes) : ReadStopCondition :=
  fun buffer =>
    (searchedBytes buffer).map fun text =>
      decide (text ≠ []) && containsPattern delimiter text

/-- The stop condition that `readBytes` makes. -/
def atLeastBytes (length : Nat) : ReadStopCondition :=
  fun buffer => some (decide (buffer.readableBytes ≥ length))

namespace ConnState

/-- `TCPConnection::readUntil`. -/
def readUntil (delimiter : Bytes) (s : ConnState) : Option ConnState :=
  s.readUntilCondition (untilDelimiter delimiter)

/-- `TCPConnection::readBytes`. -/
def readBytes (length : Nat) (s : ConnState) : Option ConnState :=
  s.readUntilCondition (atLeastBytes length)

/-- The test of handleRead before it calls the read-complete callback. -/
def stopsReading (s : ConnState) : Option Bool :=
  match s.conn.readStopCondition_ with
  | none => some true
  | some condition => condition s.conn.readBuffer_

/-- The call of the read-complete callback, if it is set. -/
def notifyReadComplete
    (onReadComplete : UserCode) (s : ConnState) : Option ConnState :=
  match s.conn.readCompleteCallback_ with
  | none => some s
  | some cb => onReadComplete (s.addEvents [.readComplete cb])

/-- handleRead drops storage that is large and empty. -/
def shrinkReadBuffer (s : ConnState) : ConnState :=
  if s.conn.readBuffer_.readableBytes = 0 ∧
      s.conn.readBuffer_.capacity > 1024 * 1024 then
    s.setReadBuffer (s.conn.readBuffer_.shrink 0)
  else
    s

/-- handleRead after new bytes have been read. -/
def dispatchRead
    (onReadComplete : UserCode) (s : ConnState) : Option ConnState :=
  s.stopsReading.bind fun stop =>
    (if stop then s.notifyReadComplete onReadComplete
      else some s).map shrinkReadBuffer

/-- `TCPConnection::handleRead`. -/
def handleRead
    (onReadComplete : UserCode) (r : ReadResult) (s : ConnState) :
    Option ConnState :=
  match r with
  | .fails _ => some s.handleError
  | .delivers [] => some s.handleClose
  | .delivers (b :: data) =>
      (s.setReadBuffer
        (s.conn.readBuffer_.readFd (.delivers (b :: data)))
        ).dispatchRead onReadComplete

end ConnState

/-- The constructor, on a handler that accept or connect made. -/
def TCPConnection.create
    (handler : IOHandler ConnHandlerCallback) (quit : Bool) : ConnState :=
  let r := handler.setReadCallback (some .handleRead)
  let w := r.1.setWriteCallback (some .handleWrite)
  let c := w.1.setCloseCallback (some .handleClose)
  let e := c.1.setErrorCallback (some .handleError)
  let s : ConnState :=
    { conn :=
        { socketHandler_ := some e.1
          writing_ := false
          readBuffer_ := .empty
          writeBuffer_ := .empty
          highWaterMark_ := 64 * 1024 * 1024
          highWaterMarkCallback_ := none
          readCompleteCallback_ := none
          writeCompleteCallback_ := none
          readStopCondition_ := none
          closeCallback_ := none
          errorCallback_ := none }
      quit_ := quit
      sent := []
      issued := []
      events := (r.2 ++ w.2 ++ c.2 ++ e.2).map .epoll }
  s.setWriteEvent false

namespace ConnState

def setHighWaterMarkCallback
    (highWaterMark : Nat) (cb : Option UserCallback) (s : ConnState) :
    ConnState :=
  { s with
    conn :=
      { s.conn with
        highWaterMark_ := highWaterMark
        highWaterMarkCallback_ := cb } }

def setReadCompleteCallback (cb : Option UserCallback) (s : ConnState) :
    ConnState :=
  { s with conn := { s.conn with readCompleteCallback_ := cb } }

def setWriteCompleteCallback (cb : Option UserCallback) (s : ConnState) :
    ConnState :=
  { s with conn := { s.conn with writeCompleteCallback_ := cb } }

def setCloseCallback (cb : Option UserCallback) (s : ConnState) :
    ConnState :=
  { s with conn := { s.conn with closeCallback_ := cb } }

def setErrorCallback (cb : Option UserCallback) (s : ConnState) :
    ConnState :=
  { s with conn := { s.conn with errorCallback_ := cb } }

end ConnState

/-- One operation on the write side of a connection, with the answer of the
kernel and what the high-water-mark callback does if it is called. -/
inductive OutputOp where
  | writeInLoop (onHighWaterMark : UserCode) (r : WriteResult)
      (message : Bytes)
  | write (onHighWaterMark : UserCode) (r : WriteResult)
      (message : Bytes)
  | handleWrite (r : WriteResult)
  | shutdown
  | setHighWaterMarkCallback (highWaterMark : Nat)
      (cb : Option UserCallback)
  | setWriteCompleteCallback (cb : Option UserCallback)
  | setErrorCallback (cb : Option UserCallback)

namespace ConnState

/-- Run one operation of the write side in the loop thread. -/
def outputStep (s : ConnState) : OutputOp → Option ConnState
  | .writeInLoop hw r message => writeInLoop hw r message s
  | .write hw r message => write hw r message s
  | .handleWrite r => some (handleWrite r s)
  | .shutdown => some s.shutdown
  | .setHighWaterMarkCallback mark cb =>
      some (s.setHighWaterMarkCallback mark cb)
  | .setWriteCompleteCallback cb => some (s.setWriteCompleteCallback cb)
  | .setErrorCallback cb => some (s.setErrorCallback cb)

end ConnState

end Hohnor
