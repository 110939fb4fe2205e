import Hohnor.TCPConnection

/-!
# Read events

What handleRead does with bytes that arrive, as far as the reading side of a
connection goes: the read buffer, the stop condition, the read-complete
callback and what the user has seen of it.  readUntil and readBytes are two
stop conditions over the same path; ReadUntil and Framing take it up from
here.
-/

namespace Hohnor

/-- The call of a read-complete callback. -/
def ConnEvent.isReadComplete : ConnEvent → Bool
  | .readComplete _ => true
  | _ => false

/-- Bytes that the user took out of the read buffer. -/
def ConnEvent.takenBytes : ConnEvent → Option Bytes
  | .taken bytes => some bytes
  | _ => none

/-- The part of the state that decides what a read event does, with the
number of calls of the read-complete callback and what the user took. -/
structure ReadView where
  readBuffer_ : Buffer
  readStopCondition_ : Option ReadStopCondition
  readCompleteCallback_ : Option UserCallback
  readCompletes : Nat
  taken : List Bytes

namespace ConnState

def readCompletes (s : ConnState) : Nat :=
  s.events.countP ConnEvent.isReadComplete

def taken (s : ConnState) : List Bytes :=
  s.events.filterMap ConnEvent.takenBytes

def readView (s : ConnState) : ReadView where
  readBuffer_ := s.conn.readBuffer_
  readStopCondition_ := s.conn.readStopCondition_
  readCompleteCallback_ := s.conn.readCompleteCallback_
  readCompletes := s.readCompletes
  taken := s.taken

theorem addEvents_epoll_readView
    (s : ConnState) (ctls : List EpollCtl) :
    (s.addEvents (ctls.map .epoll)).readView = s.readView := by
  have hcount :
      (ctls.map ConnEvent.epoll).countP
        ConnEvent.isReadComplete = 0 := by
    rw [List.countP_eq_zero]
    intro ev hev
    obtain ⟨ctl, _, rfl⟩ := List.mem_map.mp hev
    simp [ConnEvent.isReadComplete]
  have htaken :
      (ctls.map ConnEvent.epoll).filterMap
        ConnEvent.takenBytes = [] := by
    rw [List.filterMap_eq_nil_iff]
    intro ev hev
    obtain ⟨ctl, _, rfl⟩ := List.mem_map.mp hev
    rfl
  simp [readView, readCompletes, taken, addEvents, hcount, htaken]

/-- Calls to the handler leave the reading side alone. -/
theorem onHandler_readView
    {op : IOHandler ConnHandlerCallback →
      IOHandler ConnHandlerCallback × List EpollCtl}
    {s s' : ConnState}
    (hop : s.onHandler op = some s') :
    s'.readView = s.readView ∧ s'.isClosed = s.isClosed := by
  unfold onHandler at hop
  cases hh : s.conn.socketHandler_ with
  | none =>
      simp [hh] at hop
  | some h =>
      simp only [hh, Option.some.injEq] at hop
      subst hop
      refine ⟨?_, ?_⟩
      · exact addEvents_epoll_readView _ _
      · simp [isClosed, addEvents, hh]

theorem setWriteEvent_readView
    (s : ConnState) (on : Bool) :
    (s.setWriteEvent on).readView = s.readView ∧
    (s.setWriteEvent on).isClosed = s.isClosed := by
  unfold setWriteEvent
  split
  · exact ⟨rfl, rfl⟩
  · rename_i s' hop
    exact onHandler_readView hop

theorem enableIfDisabled_readView
    {s : ConnState}
    (hopen : s.isClosed = false) :
    ∃ s', s.enableIfDisabled = some s' ∧
      s'.readView = s.readView ∧
      s'.isClosed = false := by
  unfold enableIfDisabled
  split
  · exact ⟨s, rfl, rfl, hopen⟩
  · obtain ⟨s', hop⟩ := onHandler_isSome IOHandler.enable hopen
    obtain ⟨hview, hclosed⟩ := onHandler_readView hop
    exact ⟨s', hop, hview, hclosed.trans hopen⟩

theorem handleRead_delivers
    (code : UserCode)
    {data : Bytes} (hdata : data ≠ [])
    (s : ConnState) :
    handleRead code (.delivers data) s =
      (s.setReadBuffer
        (s.conn.readBuffer_.readFd (.delivers data))
        ).dispatchRead code := by
  cases data with
  | nil =>
      exact absurd rfl hdata
  | cons b data =>
      rfl

/-- The armed condition is tested on the buffer with the new bytes. -/
theorem stopsReading_armed
    {condition : ReadStopCondition}
    {s : ConnState}
    (harmed : s.conn.readStopCondition_ = some condition)
    (b : Buffer) :
    (s.setReadBuffer b).stopsReading = condition b := by
  unfold stopsReading
  simp only [setReadBuffer, harmed]

/-- Shrinking replaces the storage and keeps the content. -/
theorem shrinkReadBuffer_readView
    (s : ConnState) :
    ∃ b : Buffer,
      s.shrinkReadBuffer.readView =
        { s.readView with readBuffer_ := b } ∧
      s.shrinkReadBuffer.isClosed = s.isClosed ∧
      (s.conn.readBuffer_.Valid → b.Valid) ∧
      b.readableSlice = s.conn.readBuffer_.readableSlice := by
  unfold shrinkReadBuffer
  split
  · obtain ⟨hvalid, hslice⟩ := s.conn.readBuffer_.shrink_valid 0
    exact ⟨_, rfl, rfl, fun _ => hvalid, hslice⟩
  · exact ⟨s.conn.readBuffer_, rfl, rfl, id, rfl⟩

/-- A read buffer with content is not shrunk. -/
theorem shrinkReadBuffer_of_content
    {s : ConnState}
    (hs : s.conn.readBuffer_.readableBytes ≠ 0) :
    s.shrinkReadBuffer = s := by
  unfold shrinkReadBuffer
  rw [if_neg (fun h => hs h.1)]

/-- A new connection on which a read-complete callback is installed and a stop
condition is armed. -/
def newReader
    (handler : IOHandler ConnHandlerCallback) (quit : Bool)
    (cb : UserCallback) (condition : ReadStopCondition) :
    Option ConnState :=
  ((TCPConnection.create handler quit).setReadCompleteCallback
    (some cb)).readUntilCondition condition

theorem create_readView
    (handler : IOHandler ConnHandlerCallback) (quit : Bool) :
    (TCPConnection.create handler quit).readView =
        { readBuffer_ := .empty, readStopCondition_ := none,
          readCompleteCallback_ := none, readCompletes := 0,
          taken := [] } ∧
    (TCPConnection.create handler quit).isClosed = false := by
  unfold TCPConnection.create
  refine ⟨?_, ?_⟩
  · rw [(setWriteEvent_readView _ _).1]
    exact addEvents_epoll_readView
      { conn := _, quit_ := quit, sent := [], issued := [],
        events := [] } _
  · rw [(setWriteEvent_readView _ _).2]
    rfl

theorem newReader_readView
    (handler : IOHandler ConnHandlerCallback) (quit : Bool)
    (cb : UserCallback) (condition : ReadStopCondition) :
    ∃ s, newReader handler quit cb condition = some s ∧
      s.readView =
        { readBuffer_ := .empty
          readStopCondition_ := some condition
          readCompleteCallback_ := some cb
          readCompletes := 0
          taken := [] } ∧
      s.isClosed = false := by
  obtain ⟨hcreate, hopen⟩ := create_readView handler quit
  obtain ⟨s, hs, hview, hclosed⟩ :=
    @enableIfDisabled_readView
      (((TCPConnection.create handler quit).setReadCompleteCallback
        (some cb)).setReadStopCondition (some condition))
      hopen
  refine ⟨s, hs, ?_, hclosed⟩
  have hbuffer := congrArg ReadView.readBuffer_ hcreate
  have hcount := congrArg ReadView.readCompletes hcreate
  have htaken := congrArg ReadView.taken hcreate
  rw [hview]
  simp only [readView] at hbuffer hcount htaken ⊢
  simp only [readCompletes, taken, setReadStopCondition,
    setReadCompleteCallback] at hbuffer hcount htaken ⊢
  rw [hbuffer, hcount, htaken]

end ConnState

end Hohnor
