import Hohnor.ClosedConnection
import Hohnor.DisabledHandler

/-!
# The close callback of a connection

The iterations of the loop as one connection sees them: at most one event of
its handler in a batch, which `IOHandler::run` takes through its four tests,
then the functors queued so far, and the next batch.  User code may call the
operations of the connection at any step.

A hang-up calls handleClose, and so does a read of 0 bytes.  Only the disable
that the first one queues keeps events from calling it again, and it runs after
the event.  `close_callback_once_iff` says when an event calls closeCallback_
a second time.
-/

namespace Hohnor

open TransitionRuns

def ConnEvent.isCloseCall : ConnEvent → Bool
  | .closed _ => true
  | _ => false

/-- The callbacks of the handler, the calls of closeCallback_ so far and the
functors that handleClose has queued. -/
structure CloseView where
  callbacks : Option (HandlerKind → Option ConnHandlerCallback)
  closes : Nat
  queuedDisables : Nat

namespace ConnState

/-- Calls of closeCallback_ so far. -/
def closes (s : ConnState) : Nat :=
  s.events.countP ConnEvent.isCloseCall

def closeView (s : ConnState) : CloseView where
  callbacks := s.conn.socketHandler_.map fun h => h.callbackOf
  closes := s.closes
  queuedDisables := s.queuedDisables

theorem addEvents_closeView
    (s : ConnState) {es : List ConnEvent}
    (hcloses : es.countP ConnEvent.isCloseCall = 0)
    (hdisables : es.count (.queued .disableHandler) = 0) :
    (s.addEvents es).closeView = s.closeView := by
  simp [closeView, closes, queuedDisables, addEvents, hcloses, hdisables]

theorem epollEvents_closeView
    (s : ConnState) (ctls : List EpollCtl) :
    (s.addEvents (ctls.map .epoll)).closeView = s.closeView := by
  refine addEvents_closeView s ?_ ?_
  · simp [List.countP_eq_zero, ConnEvent.isCloseCall]
  · simp [List.count_eq_zero]

/-- A call to the handler that leaves its callbacks. -/
theorem onHandler_closeView
    {op : IOHandler ConnHandlerCallback →
      IOHandler ConnHandlerCallback × List EpollCtl}
    (hcallbacks : ∀ h, (op h).1.callbackOf = h.callbackOf)
    {s s' : ConnState} (hop : s.onHandler op = some s') :
    s'.closeView = s.closeView := by
  unfold onHandler at hop
  split at hop
  · cases hop
  · rename_i h hh
    cases hop
    rw [epollEvents_closeView]
    simp [closeView, hh, hcallbacks, closes, queuedDisables]

theorem setWriteEvent_callbackOf
    (h : IOHandler ConnHandlerCallback) (on : Bool) :
    (h.setWriteEvent on).1.callbackOf = h.callbackOf := by
  funext k
  rw [IOHandler.setWriteEvent, IOHandler.setEvents_fst]
  cases k <;> rfl

theorem enable_callbackOf
    (h : IOHandler ConnHandlerCallback) :
    h.enable.1.callbackOf = h.callbackOf := by
  funext k
  rw [IOHandler.enable_fst]
  cases k <;> rfl

theorem setWriteEvent_closeView
    (s : ConnState) (on : Bool) :
    (s.setWriteEvent on).closeView = s.closeView := by
  rw [setWriteEvent]
  split
  · rfl
  · rename_i s' hop
    exact onHandler_closeView
      (fun h => setWriteEvent_callbackOf h on) hop

theorem enableIfDisabled_closeView
    {s s' : ConnState} (hop : s.enableIfDisabled = some s') :
    s'.closeView = s.closeView := by
  unfold enableIfDisabled at hop
  split at hop
  · cases hop
    rfl
  · exact onHandler_closeView enable_callbackOf hop

theorem closeView_kept : KeptByWriting closeView where
  issue := fun _ _ => rfl
  accept := fun _ _ => rfl
  setWriting := fun _ _ => rfl
  setWriteBuffer := fun _ _ => rfl
  setWriteEvent := setWriteEvent_closeView
  writeComplete := fun s _ => addEvents_closeView s rfl rfl
  highWaterMark := fun s _ => addEvents_closeView s rfl rfl
  error := fun s _ => addEvents_closeView s rfl rfl

theorem shrinkReadBuffer_closeView
    (s : ConnState) :
    s.shrinkReadBuffer.closeView = s.closeView := by
  rw [shrinkReadBuffer]
  split
  · rfl
  · rfl

theorem beginWrite_closeView
    {r : WriteResult} {message : Bytes} {s : ConnState}
    {out : ConnState × Option CallFrame}
    (hstep : s.beginWrite r message = some out) :
    out.1.closeView = s.closeView := by
  rcases closeView_kept.beginWrite hstep with
    ⟨_, _, hview⟩ | ⟨_, t, ht, henable⟩
  · exact hview
  · exact (enableIfDisabled_closeView henable).trans ht

theorem writePending_closeView
    {s s' : ConnState} (hstep : s.writePending = some s') :
    s'.closeView = s.closeView := by
  obtain ⟨t, ht, henable⟩ := closeView_kept.writePending hstep
  exact (enableIfDisabled_closeView henable).trans ht

theorem appendAndWrite_closeView
    {data : Bytes} {s s' : ConnState}
    (hstep : s.appendAndWrite data = some s') :
    s'.closeView = s.closeView := by
  obtain ⟨t, ht, henable⟩ := closeView_kept.appendAndWrite hstep
  exact (enableIfDisabled_closeView henable).trans ht

theorem readRaw_closeView
    {s s' : ConnState} (hstep : s.readRaw = some s') :
    s'.closeView = s.closeView := by
  have hview := enableIfDisabled_closeView hstep
  exact hview

theorem readUntilCondition_closeView
    {condition : ReadStopCondition} {s s' : ConnState}
    (hstep : s.readUntilCondition condition = some s') :
    s'.closeView = s.closeView := by
  have hview := enableIfDisabled_closeView hstep
  exact hview

/-- A read of 0 bytes is handleClose; every other one leaves the view. -/
theorem beginRead_closeView
    {r : ReadResult} {s : ConnState}
    {out : ConnState × Option CallFrame}
    (hstep : s.beginRead r = some out) :
    out.1.closeView =
      if r = .delivers [] then s.handleClose.closeView
      else s.closeView := by
  unfold beginRead at hstep
  split at hstep
  · cases hstep
    simpa using closeView_kept.handleError s
  · cases hstep
    simp
  · obtain ⟨stop, _, rfl⟩ := Option.map_eq_some_iff.mp hstep
    simp only [ReadResult.delivers.injEq, reduceCtorEq, if_false]
    split
    · exact shrinkReadBuffer_closeView _
    · exact addEvents_closeView _ rfl rfl

theorem handleClose_closeView
    {s : ConnState} (hopen : s.isClosed = false) :
    s.handleClose.closeView =
      { s.closeView with
        closes :=
          s.closes + if s.conn.closeCallback_.isSome then 1 else 0
        queuedDisables := s.queuedDisables + 1 } := by
  rw [handleClose]
  simp only [hopen, Bool.false_eq_true, if_false]
  cases hcb : s.conn.closeCallback_ with
  | none =>
      simp [addEvents, closeView, closes, queuedDisables, hcb,
        ConnEvent.isCloseCall]
  | some cb =>
      simp [addEvents, closeView, closes, queuedDisables, hcb,
        ConnEvent.isCloseCall]

theorem disable_closeView
    {s s' : ConnState}
    (hop : s.onHandler (fun h => h.disable s.quit_) = some s') :
    s'.closeView = { s.closeView with callbacks := some fun _ => none } := by
  unfold onHandler at hop
  split at hop
  · cases hop
  · rename_i h hh
    cases hop
    rw [epollEvents_closeView]
    have hnone :
        (h.disable s.quit_).1.callbackOf = fun _ => none := by
      funext k
      rw [IOHandler.disable_fst]
      cases k <;> rfl
    simp [closeView, hnone, closes, queuedDisables]

theorem forceClose_closeView
    {s : ConnState} (hopen : s.isClosed = false) :
    s.forceClose.closeView =
      { s.closeView with callbacks := some fun _ => none } := by
  obtain ⟨s', hop⟩ :=
    onHandler_isSome (fun h => h.disable s.quit_) hopen
  rw [forceClose]
  rw [hop]
  exact disable_closeView hop

theorem isClosed_iff_closeView
    (s : ConnState) :
    s.isClosed = true ↔ s.closeView.callbacks = none := by
  cases hh : s.conn.socketHandler_ with
  | none =>
      simp [isClosed, closeView, hh]
  | some h =>
      simp [isClosed, closeView, hh]

end ConnState

/-- What user code calls: not an event of the handler, and not the functor that
handleClose queues. -/
def ConnOp.isUser : ConnOp → Bool
  | .readEvent _ => false
  | .writeEvent _ => false
  | .closeEvent => false
  | .errorEvent => false
  | .runDisable => false
  | _ => true

namespace ConnRun

/-- A step that calls no closeCallback_ and queues no disable; it may clear the
callbacks of the handler. -/
structure KeepsClose (m m' : ConnRun) : Prop where
  disablesRun : m'.disablesRun = m.disablesRun
  closeView :
    m'.state.closeView = m.state.closeView ∨
      m'.state.closeView =
        { m.state.closeView with callbacks := some fun _ => none }

theorem keepsClose_of_same
    {m m' : ConnRun} {s : ConnState}
    (hm' : m.setState s = m')
    (hview : s.closeView = m.state.closeView) :
    m.KeepsClose m' := by
  subst hm'
  exact ⟨rfl, Or.inl hview⟩

theorem keepsClose_of_enter
    {m m' : ConnRun} {r : WriteResult} {message : Bytes}
    (hstep : (m.state.beginWrite r message).map m.enter = some m') :
    m.KeepsClose m' := by
  obtain ⟨out, hout, rfl⟩ := Option.map_eq_some_iff.mp hstep
  exact ⟨rfl, Or.inl (ConnState.beginWrite_closeView hout)⟩

theorem keepsClose_of_setState
    {m m' : ConnRun} {out : Option ConnState}
    (hout :
      ∀ s, out = some s → s.closeView = m.state.closeView)
    (hstep : out.map m.setState = some m') :
    m.KeepsClose m' := by
  obtain ⟨s, hs, rfl⟩ := Option.map_eq_some_iff.mp hstep
  exact ⟨rfl, Or.inl (hout s hs)⟩

theorem finishCall_keepsClose
    {m m' : ConnRun} (hstep : m.finishCall = some m') :
    m.KeepsClose m' := by
  unfold finishCall at hstep
  split at hstep
  · cases hstep
  · rename_i frame frames _
    obtain ⟨s, hs, rfl⟩ := Option.map_eq_some_iff.mp hstep
    refine ⟨rfl, Or.inl ?_⟩
    cases frame with
    | writeRest rest =>
        rw [ConnState.enableIfDisabled_closeView hs]
        exact ConnState.closeView_kept.bufferRest rest m.state
    | readTail =>
        cases hs
        exact ConnState.shrinkReadBuffer_closeView m.state

/-- What user code calls makes no call of closeCallback_. -/
theorem step_keepsClose
    {m m' : ConnRun} {op : ConnOp}
    (hopen : m.state.isClosed = false) (hop : op.isUser = true)
    (hstep : m.step op = some m') :
    m.KeepsClose m' := by
  cases op with
  | write r message =>
      exact keepsClose_of_enter hstep
  | writeBuffer r buffer =>
      simp only [step] at hstep
      split at hstep
      · exact keepsClose_of_enter hstep
      · cases hstep
        exact ⟨rfl, Or.inl rfl⟩
  | writePending =>
      exact keepsClose_of_setState
        (fun _ hs => ConnState.writePending_closeView hs) hstep
  | appendAndWrite data =>
      exact keepsClose_of_setState
        (fun _ hs => ConnState.appendAndWrite_closeView hs) hstep
  | readRaw =>
      exact keepsClose_of_setState
        (fun _ hs => ConnState.readRaw_closeView hs) hstep
  | readUntil delimiter =>
      exact keepsClose_of_setState
        (fun _ hs => ConnState.readUntilCondition_closeView hs) hstep
  | readBytes length =>
      exact keepsClose_of_setState
        (fun _ hs => ConnState.readUntilCondition_closeView hs) hstep
  | readUntilCondition condition =>
      exact keepsClose_of_setState
        (fun _ hs => ConnState.readUntilCondition_closeView hs) hstep
  | shutdown =>
      exact keepsClose_of_same (Option.some.inj hstep)
        (ConnState.addEvents_closeView m.state rfl rfl)
  | forceClose =>
      cases hstep
      exact ⟨rfl, Or.inr (ConnState.forceClose_closeView hopen)⟩
  | onReadBuffer op =>
      simp only [step, Option.ite_none_right_eq_some,
        Option.some.injEq] at hstep
      exact keepsClose_of_same hstep.2 rfl
  | onWriteBuffer op =>
      simp only [step, Option.ite_none_right_eq_some,
        Option.some.injEq] at hstep
      exact keepsClose_of_same hstep.2 rfl
  | finishCall =>
      exact finishCall_keepsClose hstep
  | readEvent r =>
      cases hop
  | writeEvent r =>
      cases hop
  | closeEvent =>
      cases hop
  | errorEvent =>
      cases hop
  | runDisable =>
      cases hop
  | _ =>
      exact keepsClose_of_same (Option.some.inj hstep) rfl

/-- The event of a callback, with the answer of the kernel. -/
def eventOp (r : ReadResult) (w : WriteResult) : HandlerKind → ConnOp
  | .close => .closeEvent
  | .error => .errorEvent
  | .read => .readEvent r
  | .write => .writeEvent w

/-- handleClose is called for a hang-up and by a read of 0 bytes. -/
def callsHandleClose (r : ReadResult) : HandlerKind → Bool
  | .close => true
  | .error => false
  | .read => r = .delivers []
  | .write => false

/-- An event changes the view as handleClose does, if it calls it. -/
theorem event_closeView
    {m m' : ConnRun} {r : ReadResult} {w : WriteResult}
    {k : HandlerKind} (hstep : m.step (eventOp r w k) = some m') :
    m'.disablesRun = m.disablesRun ∧
      m'.state.closeView =
        if callsHandleClose r k then m.state.handleClose.closeView
        else m.state.closeView := by
  cases k with
  | close =>
      simp only [eventOp, step, Option.ite_none_right_eq_some,
        Option.some.injEq] at hstep
      obtain ⟨_, rfl⟩ := hstep
      exact ⟨rfl, rfl⟩
  | error =>
      simp only [eventOp, step, Option.ite_none_right_eq_some,
        Option.some.injEq] at hstep
      obtain ⟨_, rfl⟩ := hstep
      exact ⟨rfl, ConnState.closeView_kept.handleError m.state⟩
  | read =>
      simp only [eventOp, step, Option.ite_none_right_eq_some,
        Option.map_eq_some_iff] at hstep
      obtain ⟨_, out, hout, rfl⟩ := hstep
      refine ⟨rfl, ?_⟩
      simp only [callsHandleClose, decide_eq_true_eq]
      exact ConnState.beginRead_closeView hout
  | write =>
      simp only [eventOp, step, Option.ite_none_right_eq_some,
        Option.some.injEq] at hstep
      obtain ⟨_, rfl⟩ := hstep
      exact ⟨rfl, ConnState.closeView_kept.handleWrite w m.state⟩

theorem runDisable_closeView
    {m m' : ConnRun} (hstep : m.runDisable = some m') :
    m.disablesRun < m.state.queuedDisables ∧
      m'.disablesRun = m.disablesRun + 1 ∧
      m'.state.closeView =
        { m.state.closeView with callbacks := some fun _ => none } := by
  simp only [runDisable, Option.ite_none_right_eq_some,
    Option.map_eq_some_iff] at hstep
  obtain ⟨⟨_, hqueued⟩, s, hs, rfl⟩ := hstep
  exact ⟨hqueued, rfl, ConnState.disable_closeView hs⟩

end ConnRun

/-- Where an iteration of the loop is with the handler of the connection;
`notified` says that closeCallback_ has been called in this event. -/
inductive ClosePlace where
  | waiting
  | dispatching (revents : EventMask) (ks : List HandlerKind)
      (notified : Bool)
  | dispatched
deriving DecidableEq, Repr

structure CloseRun where
  conn : ConnRun
  place : ClosePlace

inductive CloseStep where
  | user (op : ConnOp)
  | event (revents : EventMask)
  | test (r : ReadResult) (w : WriteResult)
  | runDisable
  | poll

namespace CloseRun

def start (handler : IOHandler ConnHandlerCallback) (quit : Bool) :
    CloseRun where
  conn := .start handler quit
  place := .waiting

def closes (s : CloseRun) : Nat :=
  s.conn.state.closes

/-- The handler has a callback of this kind. -/
def hasCallback (s : CloseRun) (k : HandlerKind) : Bool :=
  match s.conn.state.conn.socketHandler_ with
  | none => false
  | some h => (h.callbackOf k).isSome

/-- The entry of run. -/
def enterRun (s : CloseRun) (revents : EventMask) : CloseRun :=
  { s with
    place :=
      if s.conn.state.isEnabled then
        .dispatching revents HandlerKind.runOrder false
      else
        .dispatched }

/-- One test of run with the call it makes. -/
def test (s : CloseRun) (r : ReadResult) (w : WriteResult)
    (revents : EventMask) (k : HandlerKind) (ks : List HandlerKind)
    (notified : Bool) : Option CloseRun :=
  if k.triggered revents && s.hasCallback k then
    (s.conn.step (ConnRun.eventOp r w k)).map fun c =>
      { conn := c
        place :=
          .dispatching revents ks
            (notified || decide (s.closes < c.state.closes)) }
  else
    some { s with place := .dispatching revents ks notified }

/-- The functors of one iteration run after its batch, and the next batch comes
after they have run. -/
def step (s : CloseRun) : CloseStep → Option CloseRun
  | .user op =>
      if op.isUser then
        (s.conn.step op).map fun c => { s with conn := c }
      else
        none
  | .event revents =>
      if s.place = .waiting ∧ s.conn.frames = [] then
        some (s.enterRun revents)
      else
        none
  | .test r w =>
      if s.conn.frames = [] then
        match s.place with
        | .dispatching _ [] _ => some { s with place := .dispatched }
        | .dispatching revents (k :: ks) notified =>
            s.test r w revents k ks notified
        | _ => none
      else
        none
  | .runDisable =>
      match s.place with
      | .dispatching _ _ _ => none
      | _ => (s.conn.step .runDisable).map fun c => { s with conn := c }
  | .poll =>
      match s.place with
      | .dispatching _ _ _ => none
      | _ =>
          if s.conn.frames = [] ∧
              s.conn.disablesRun = s.conn.state.queuedDisables then
            some { s with place := .waiting }
          else
            none

/-- closeCallback_ has been called at most once. -/
def ClosesOnce
    (_ : CloseRun) (_ : CloseStep) (s' : CloseRun) : Prop :=
  s'.closes ≤ 1

/-- No event that has called closeCallback_ goes on to a read of 0 bytes while
the handler still reads and closeCallback_ is set. -/
def NoReadAfterClose
    (s : CloseRun) (l : CloseStep) (_ : CloseRun) : Prop :=
  ∀ r w revents ks, l = .test r w →
    s.place = .dispatching revents (.read :: ks) true →
    HandlerKind.read.triggered revents = true →
    s.hasCallback .read = true →
    s.conn.state.conn.closeCallback_.isSome = true →
    r ≠ .delivers []

/-- The handler has no callbacks. -/
def Cleared (s : CloseRun) : Prop :=
  ∀ k, s.hasCallback k = false

/-- closeCallback_ has not been called yet, or no event will call it: the
handler has no callbacks, or their clearing is queued in this iteration. -/
structure CloseInv (s : CloseRun) : Prop where
  isOpen : s.conn.state.isClosed = false
  queued : s.conn.disablesRun ≤ s.conn.state.queuedDisables
  once : s.closes ≤ 1
  settled :
    s.closes = 0 ∨ s.Cleared ∨
      (s.conn.disablesRun < s.conn.state.queuedDisables ∧
        s.place ≠ .waiting)
  inEvent :
    ∀ revents ks notified,
      s.place = .dispatching revents ks notified →
      ks <:+ HandlerKind.runOrder ∧
      (notified = false → s.closes = 0 ∨ s.Cleared) ∧
      (notified = true →
        s.closes = 1 ∧ .close ∉ ks ∧
          (.read ∈ ks → HandlerKind.close.triggered revents = true))

theorem hasCallback_congr
    {s s' : CloseRun}
    (hview :
      s'.conn.state.closeView.callbacks =
        s.conn.state.closeView.callbacks) :
    s'.hasCallback = s.hasCallback := by
  funext k
  simp only [ConnState.closeView] at hview
  unfold hasCallback
  cases hh : s.conn.state.conn.socketHandler_ with
  | none =>
      simp only [hh, Option.map_none, Option.map_eq_none_iff] at hview
      rw [hview]
  | some h =>
      simp only [hh, Option.map_some, Option.map_eq_some_iff] at hview
      obtain ⟨h', hh', hcallbacks⟩ := hview
      simp only [hh', hcallbacks]

theorem cleared_of_closeView
    {s : CloseRun}
    (hview : s.conn.state.closeView.callbacks = some fun _ => none) :
    s.Cleared := by
  intro k
  obtain ⟨h, hh, hnone⟩ := Option.map_eq_some_iff.mp hview
  simp [hasCallback, hh, hnone]

theorem start_closeInv
    (handler : IOHandler ConnHandlerCallback) (quit : Bool) :
    CloseInv (start handler quit) := by
  have hcloses : (start handler quit).closes = 0 := by
    simp only [closes, start, ConnRun.start, TCPConnection.create]
    change (ConnState.setWriteEvent _ false).closeView.closes = 0
    rw [ConnState.setWriteEvent_closeView]
    simp [ConnState.closeView, ConnState.closes, ConnEvent.isCloseCall,
      List.countP_eq_zero]
  refine ⟨ConnRun.start_isOpen handler quit, Nat.zero_le _,
    by omega, Or.inl hcloses, ?_⟩
  intro revents ks notified hplace
  cases hplace

/-- A step that calls no closeCallback_, as the place goes on. -/
theorem CloseInv.keep
    {s s' : CloseRun} (hs : CloseInv s)
    (hkeep : s.conn.KeepsClose s'.conn)
    (hwaiting : s'.place = .waiting → s.place = .waiting)
    (hplace :
      ∀ revents ks notified,
        s'.place = .dispatching revents ks notified →
        ∃ before, s.place = .dispatching revents (before ++ ks)
          notified) :
    CloseInv s' := by
  have hcloses : s'.closes = s.closes := by
    rcases hkeep.closeView with hview | hview
    · exact congrArg CloseView.closes hview
    · exact congrArg CloseView.closes hview
  have hqueued :
      s'.conn.state.queuedDisables = s.conn.state.queuedDisables := by
    rcases hkeep.closeView with hview | hview
    · exact congrArg CloseView.queuedDisables hview
    · exact congrArg CloseView.queuedDisables hview
  have hcleared : s.Cleared → s'.Cleared := by
    intro hclear
    rcases hkeep.closeView with hview | hview
    · intro k
      rw [hasCallback_congr (congrArg CloseView.callbacks hview)]
      exact hclear k
    · exact cleared_of_closeView (congrArg CloseView.callbacks hview)
  refine ⟨?_, ?_, ?_, ?_, ?_⟩
  · have hopen := hs.isOpen
    rw [← Bool.not_eq_true, ConnState.isClosed_iff_closeView] at hopen ⊢
    rcases hkeep.closeView with hview | hview
    · rw [hview]
      exact hopen
    · rw [hview]
      simp
  · rw [hkeep.disablesRun, hqueued]
    exact hs.queued
  · rw [hcloses]
    exact hs.once
  · rw [hcloses, hkeep.disablesRun, hqueued]
    rcases hs.settled with hzero | hclear | ⟨hlt, hnot⟩
    · exact Or.inl hzero
    · exact Or.inr (Or.inl (hcleared hclear))
    · exact Or.inr (Or.inr ⟨hlt, fun h => hnot (hwaiting h)⟩)
  · intro revents ks notified hnow
    obtain ⟨before, hbefore⟩ := hplace revents ks notified hnow
    obtain ⟨hsuffix, hfalse, htrue⟩ :=
      hs.inEvent revents (before ++ ks) notified hbefore
    rw [hcloses]
    refine ⟨(List.suffix_append before ks).trans hsuffix, ?_, ?_⟩
    · intro hn
      exact (hfalse hn).imp_right hcleared
    · intro hn
      obtain ⟨hone, hclose, hread⟩ := htrue hn
      exact ⟨hone, fun h => hclose (List.mem_append_right _ h),
        fun h => hread (List.mem_append_right _ h)⟩

/-- No close test follows another test, and no read test a read test. -/
theorem runOrder_after
    {k : HandlerKind} {ks : List HandlerKind}
    (hsuffix : k :: ks <:+ HandlerKind.runOrder) :
    .close ∉ ks ∧ (k = .read → .read ∉ ks) := by
  have hnodup : (k :: ks).Nodup := hsuffix.sublist.nodup (by decide)
  have hcases :
      ks = [.error, .read, .write] ∨ ks = [.read, .write] ∨
        ks = [.write] ∨ ks = [] := by
    simp only [HandlerKind.runOrder, List.suffix_cons_iff,
      List.cons.injEq] at hsuffix
    simp at hsuffix
    tauto
  refine ⟨?_, ?_⟩
  · rcases hcases with rfl | rfl | rfl | rfl <;> simp
  · rintro rfl
    exact (List.nodup_cons.mp hnodup).1

/-- Behind a test that calls handleClose no close test comes, and the read test
only if it was the close test. -/
theorem tests_after_handleClose
    {r : ReadResult} {revents : EventMask} {k : HandlerKind}
    {ks : List HandlerKind}
    (hsuffix : k :: ks <:+ HandlerKind.runOrder)
    (htriggered : k.triggered revents = true)
    (hcalls : ConnRun.callsHandleClose r k = true) :
    .close ∉ ks ∧
      (.read ∈ ks → HandlerKind.close.triggered revents = true) := by
  obtain ⟨hclose, hread⟩ := runOrder_after hsuffix
  refine ⟨hclose, ?_⟩
  intro hmem
  cases k with
  | close =>
      exact htriggered
  | read =>
      exact absurd hmem (hread rfl)
  | error =>
      cases hcalls
  | write =>
      cases hcalls

/-- handleClose calls closeCallback_ where it is set, which is not so where it
has been called in this event. -/
theorem closes_after
    {closes closes' : Nat} {callback notified : Bool}
    (hcloses : closes' = closes + if callback then 1 else 0)
    (hzero : notified = false → closes = 0)
    (hone : notified = true → closes = 1 ∧ callback = false) :
    closes' ≤ 1 ∧
      (decide (closes < closes') = true →
        notified = false ∧ closes' = 1) ∧
      (decide (closes < closes') = false → closes' = closes) := by
  cases notified with
  | false =>
      have h0 := hzero rfl
      cases callback <;> simp [hcloses, h0]
  | true =>
      obtain ⟨h1, hnone⟩ := hone rfl
      simp [hcloses, h1, hnone]

/-- A test whose callback calls handleClose. -/
theorem CloseInv.handleClose
    {s : CloseRun} (hs : CloseInv s)
    {r : ReadResult} {revents : EventMask} {k : HandlerKind}
    {ks : List HandlerKind} {notified : Bool} {c : ConnRun}
    (hplace : s.place = .dispatching revents (k :: ks) notified)
    (htriggered : k.triggered revents = true)
    (hcallback : s.hasCallback k = true)
    (hcalls : ConnRun.callsHandleClose r k = true)
    (hcondition :
      notified = true →
        s.conn.state.conn.closeCallback_.isSome = false)
    (hdisables : c.disablesRun = s.conn.disablesRun)
    (hview : c.state.closeView = s.conn.state.handleClose.closeView) :
    CloseInv
      { conn := c
        place :=
          .dispatching revents ks
            (notified || decide (s.closes < c.state.closes)) } := by
  obtain ⟨hsuffix, hfalse, htrue⟩ :=
    hs.inEvent revents (k :: ks) notified hplace
  have hnotCleared : ¬ s.Cleared := by
    intro hclear
    rw [hclear k] at hcallback
    cases hcallback
  have hzero : notified = false → s.closes = 0 :=
    fun hn => (hfalse hn).resolve_right hnotCleared
  rw [ConnState.handleClose_closeView hs.isOpen] at hview
  have hcloses :
      c.state.closes =
        s.closes +
          if s.conn.state.conn.closeCallback_.isSome then 1 else 0 :=
    congrArg CloseView.closes hview
  have hqueued :
      c.state.queuedDisables = s.conn.state.queuedDisables + 1 :=
    congrArg CloseView.queuedDisables hview
  have hcallbacks :
      c.state.closeView.callbacks =
        s.conn.state.closeView.callbacks := by
    rw [hview]
  have hlt : c.disablesRun < c.state.queuedDisables := by
    have := hs.queued
    omega
  obtain ⟨honce, hnew, hold⟩ :=
    closes_after hcloses hzero
      (fun hn => ⟨(htrue hn).1, hcondition hn⟩)
  have hks : ks <:+ HandlerKind.runOrder :=
    (List.suffix_cons k ks).trans hsuffix
  refine ⟨?_, hlt.le, honce, Or.inr (Or.inr ⟨hlt, by simp⟩), ?_⟩
  · have hopen := hs.isOpen
    rw [← Bool.not_eq_true, ConnState.isClosed_iff_closeView] at hopen ⊢
    rw [hcallbacks]
    exact hopen
  · intro revents' ks' notified' hnow
    cases hnow
    refine ⟨hks, ?_, ?_⟩
    · intro hn
      obtain ⟨hn, hsame⟩ := Bool.or_eq_false_iff.mp hn
      exact Or.inl ((hold hsame).trans (hzero hn))
    · intro hn
      rcases Bool.or_eq_true_iff.mp hn with hn | hmore
      · obtain ⟨hone, hclose, hread⟩ := htrue hn
        have hsame : c.state.closes = s.closes := by
          cases hd : decide (s.closes < c.state.closes) with
          | false =>
              exact hold hd
          | true =>
              rw [(hnew hd).1] at hn
              cases hn
        refine ⟨hsame.trans hone, ?_, ?_⟩
        · exact fun h => hclose (List.mem_cons_of_mem k h)
        · exact fun h => hread (List.mem_cons_of_mem k h)
      · exact ⟨(hnew hmore).2,
          tests_after_handleClose hsuffix htriggered hcalls⟩

theorem test_closeInv
    {s s' : CloseRun} (hs : CloseInv s)
    {r : ReadResult} {w : WriteResult} {revents : EventMask}
    {k : HandlerKind} {ks : List HandlerKind} {notified : Bool}
    (hplace : s.place = .dispatching revents (k :: ks) notified)
    (hcondition : NoReadAfterClose s (.test r w) s')
    (hstep : s.test r w revents k ks notified = some s') :
    CloseInv s' := by
  unfold test at hstep
  split at hstep
  · rename_i hfound
    obtain ⟨htriggered, hcallback⟩ := Bool.and_eq_true_iff.mp hfound
    obtain ⟨c, hc, rfl⟩ := Option.map_eq_some_iff.mp hstep
    obtain ⟨hdisables, hview⟩ := ConnRun.event_closeView hc
    cases hcalls : ConnRun.callsHandleClose r k with
    | false =>
        simp only [hcalls, Bool.false_eq_true, if_false] at hview
        have hsame : c.state.closes = s.closes :=
          congrArg CloseView.closes hview
        refine hs.keep ⟨hdisables, Or.inl hview⟩ (by simp) ?_
        intro revents' ks' notified' hnow
        cases hnow
        refine ⟨[k], ?_⟩
        rw [hplace, hsame]
        simp
    | true =>
        simp only [hcalls, if_true] at hview
        refine hs.handleClose hplace htriggered hcallback hcalls ?_
          hdisables hview
        rintro rfl
        cases k with
        | close =>
            have hnot :=
              ((hs.inEvent _ _ _ hplace).2.2 rfl).2.1
            simp at hnot
        | read =>
            by_contra hset
            exact hcondition r w revents ks rfl hplace htriggered
              hcallback (eq_true_of_ne_false hset) (of_decide_eq_true hcalls)
        | error =>
            cases hcalls
        | write =>
            cases hcalls
  · cases hstep
    refine hs.keep ⟨rfl, Or.inl rfl⟩ (by simp) ?_
    intro revents' ks' notified' hnow
    cases hnow
    exact ⟨[k], hplace⟩

theorem step_closeInv
    {s s' : CloseRun} {l : CloseStep} (hs : CloseInv s)
    (hcondition : NoReadAfterClose s l s')
    (hstep : s.step l = some s') :
    CloseInv s' := by
  cases l with
  | user op =>
      simp only [step, Option.ite_none_right_eq_some,
        Option.map_eq_some_iff] at hstep
      obtain ⟨hop, c, hc, rfl⟩ := hstep
      exact hs.keep (ConnRun.step_keepsClose hs.isOpen hop hc) id
        (fun _ _ _ hplace => ⟨[], hplace⟩)
  | event revents =>
      simp only [step, Option.ite_none_right_eq_some,
        Option.some.injEq] at hstep
      obtain ⟨⟨hwaiting, _⟩, rfl⟩ := hstep
      have hsettled : s.closes = 0 ∨ s.Cleared := by
        rcases hs.settled with hzero | hclear | ⟨_, hnot⟩
        · exact Or.inl hzero
        · exact Or.inr hclear
        · exact absurd hwaiting hnot
      refine ⟨hs.isOpen, hs.queued, hs.once, ?_, ?_⟩
      · exact hsettled.imp_right Or.inl
      · intro revents' ks notified hplace
        simp only [enterRun] at hplace
        split at hplace
        · cases hplace
          exact ⟨List.suffix_refl _, fun _ => hsettled, by simp⟩
        · cases hplace
  | test r w =>
      simp only [step, Option.ite_none_right_eq_some] at hstep
      obtain ⟨_, hstep⟩ := hstep
      split at hstep
      · cases hstep
        exact hs.keep ⟨rfl, Or.inl rfl⟩ (by simp) (by simp)
      · rename_i revents k ks notified hplace
        exact test_closeInv hs hplace hcondition hstep
      · cases hstep
  | runDisable =>
      simp only [step] at hstep
      split at hstep
      · cases hstep
      · rename_i hplace
        obtain ⟨c, hc, rfl⟩ := Option.map_eq_some_iff.mp hstep
        obtain ⟨hlt, hran, hview⟩ := ConnRun.runDisable_closeView hc
        have hcloses : c.state.closes = s.closes :=
          congrArg CloseView.closes hview
        have hqueued :
            c.state.queuedDisables = s.conn.state.queuedDisables :=
          congrArg CloseView.queuedDisables hview
        refine ⟨?_, ?_, ?_, ?_, ?_⟩
        · rw [← Bool.not_eq_true, ConnState.isClosed_iff_closeView, hview]
          simp
        · rw [hran, hqueued]
          exact hlt
        · exact hcloses.trans_le hs.once
        · exact Or.inr (Or.inl
            (cleared_of_closeView (congrArg CloseView.callbacks hview)))
        · intro revents ks notified hnow
          exact absurd hnow (hplace revents ks notified)
  | poll =>
      simp only [step] at hstep
      split at hstep
      · cases hstep
      · simp only [Option.ite_none_right_eq_some,
          Option.some.injEq] at hstep
        obtain ⟨⟨_, hran⟩, rfl⟩ := hstep
        refine ⟨hs.isOpen, hs.queued, hs.once, ?_, by simp⟩
        rcases hs.settled with hzero | hclear | ⟨hlt, _⟩
        · exact Or.inl hzero
        · exact Or.inr (Or.inl hclear)
        · omega

/-- A read of 0 bytes in such an event calls closeCallback_ again. -/
theorem noReadAfterClose_of_closesOnce
    {s s' : CloseRun} {l : CloseStep} (hs : CloseInv s)
    (honce : ClosesOnce s l s') (hstep : s.step l = some s') :
    NoReadAfterClose s l s' := by
  rintro r w revents ks rfl hplace htriggered hcallback hset rfl
  have hone := ((hs.inEvent _ _ _ hplace).2.2 rfl).1
  simp only [step, hplace, Option.ite_none_right_eq_some, test,
    htriggered, hcallback, Bool.and_self, if_true,
    Option.map_eq_some_iff] at hstep
  obtain ⟨_, c, hc, rfl⟩ := hstep
  have hview := (ConnRun.event_closeView hc).2
  simp only [ConnRun.callsHandleClose, decide_true, if_true,
    ConnState.handleClose_closeView hs.isOpen, hset] at hview
  have hcloses : c.state.closes = s.closes + 1 :=
    congrArg CloseView.closes hview
  simp only [ClosesOnce, closes] at honce hone hcloses
  omega

/-- In every run closeCallback_ is called at most once exactly when no event
that has called it for a hang-up goes on to a read of 0 bytes while the handler
still reads and closeCallback_ is set. -/
theorem close_callback_once_iff
    (handler : IOHandler ConnHandlerCallback) (quit : Bool)
    (ls : List CloseStep) :
    EveryStep step ClosesOnce (start handler quit) ls ↔
      EveryStep step NoReadAfterClose (start handler quit) ls := by
  refine everyStep_iff CloseInv (P := fun _ => True) ?_
    (start_closeInv handler quit) (fun _ _ => trivial)
  intro s l s' hs _ hstep
  refine ⟨⟨?_, ?_⟩, ?_⟩
  · intro honce
    exact noReadAfterClose_of_closesOnce hs honce hstep
  · intro hcondition
    exact (step_closeInv hs hcondition hstep).once
  · intro hcondition
    exact step_closeInv hs hcondition hstep

/-- An event that triggers the close branch does not trigger the read
branch. -/
def SplitMask (revents : EventMask) : Prop :=
  HandlerKind.close.triggered revents = true →
    HandlerKind.read.triggered revents = false

theorem step_splitMask
    {s s' : CloseRun} {l : CloseStep}
    (hs :
      ∀ revents ks notified,
        s.place = .dispatching revents ks notified → SplitMask revents)
    (hl : ∀ revents, l = .event revents → SplitMask revents)
    (hstep : s.step l = some s') :
    ∀ revents ks notified,
      s'.place = .dispatching revents ks notified →
        SplitMask revents := by
  cases l with
  | user op =>
      simp only [step, Option.ite_none_right_eq_some,
        Option.map_eq_some_iff] at hstep
      obtain ⟨_, c, _, rfl⟩ := hstep
      exact hs
  | event revents =>
      simp only [step, Option.ite_none_right_eq_some,
        Option.some.injEq] at hstep
      obtain ⟨_, rfl⟩ := hstep
      intro revents' ks notified hplace
      simp only [enterRun] at hplace
      split at hplace
      · cases hplace
        exact hl revents rfl
      · cases hplace
  | test r w =>
      simp only [step, Option.ite_none_right_eq_some] at hstep
      obtain ⟨_, hstep⟩ := hstep
      split at hstep
      · cases hstep
        intro revents ks notified hplace
        cases hplace
      · rename_i revents k ks notified hplace
        have hmask := hs revents (k :: ks) notified hplace
        unfold test at hstep
        split at hstep
        · obtain ⟨c, _, rfl⟩ := Option.map_eq_some_iff.mp hstep
          intro revents' ks' notified' hnow
          cases hnow
          exact hmask
        · cases hstep
          intro revents' ks' notified' hnow
          cases hnow
          exact hmask
      · cases hstep
  | runDisable =>
      simp only [step] at hstep
      split at hstep
      · cases hstep
      · obtain ⟨c, _, rfl⟩ := Option.map_eq_some_iff.mp hstep
        exact hs
  | poll =>
      simp only [step] at hstep
      split at hstep
      · cases hstep
      · simp only [Option.ite_none_right_eq_some,
          Option.some.injEq] at hstep
        obtain ⟨_, rfl⟩ := hstep
        intro revents ks notified hplace
        cases hplace

/-- Where no event brings a hang-up without EPOLLIN together with EPOLLPRI or
EPOLLRDHUP, closeCallback_ is called at most once. -/
theorem closes_once_of_splitMasks
    (handler : IOHandler ConnHandlerCallback) (quit : Bool)
    (ls : List CloseStep)
    (hmasks : ∀ l ∈ ls, ∀ revents, l = .event revents →
      SplitMask revents) :
    EveryStep step ClosesOnce (start handler quit) ls := by
  refine everyStep_of_invariant
    (I := fun s => CloseInv s ∧
      ∀ revents ks notified,
        s.place = .dispatching revents ks notified → SplitMask revents)
    ?_ ⟨start_closeInv handler quit, fun _ _ _ hplace => by cases hplace⟩
    hmasks
  rintro s l s' ⟨hs, hmask⟩ hl hstep
  have hcondition : NoReadAfterClose s l s' := by
    rintro r w revents ks rfl hplace htriggered
    have hclose :=
      ((hs.inEvent _ _ _ hplace).2.2 rfl).2.2 (List.mem_cons_self ..)
    rw [hmask _ _ _ hplace hclose] at htriggered
    cases htriggered
  have hs' := step_closeInv hs hcondition hstep
  exact ⟨⟨hs', step_splitMask hmask hl hstep⟩, hs'.once⟩

/-- EPOLLHUP with EPOLLRDHUP and without EPOLLIN: the close branch calls
closeCallback_, and the read branch reads the end of the stream. -/
def hangUpSteps : List CloseStep :=
  [.user (.setCloseCallback (some 9)), .user .readRaw,
    .event ⟨false, false, false, true, false, true⟩,
    .test (.delivers []) (.takes 0), .test (.delivers []) (.takes 0),
    .test (.delivers []) (.takes 0)]

/-- One event calls closeCallback_ twice. -/
theorem close_callback_called_twice :
    ∃ s, run step (start (.create 5) false) hangUpSteps = some s ∧
      s.closes = 2 ∧
      ¬ EveryStep step ClosesOnce (start (.create 5) false)
        hangUpSteps := by
  have hview :
      (run step (start (.create 5) false) hangUpSteps).map closes =
        some 2 := by
    decide +kernel
  obtain ⟨s, hrun, hcloses⟩ := Option.map_eq_some_iff.mp hview
  refine ⟨s, hrun, hcloses, ?_⟩
  intro hsteps
  have honce : s.closes ≤ 1 :=
    everyStep_last (J := fun s => s.closes ≤ 1)
      (start_closeInv (.create 5) false).once hsteps hrun
  omega

end CloseRun

end Hohnor
