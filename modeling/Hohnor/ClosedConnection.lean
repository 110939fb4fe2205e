import Hohnor.ConnRun
import Hohnor.ReadEvents
import Hohnor.TransitionRuns

/-!
# Closed connections

forceClose and the functor that handleClose queues disable the handler of a
connection.  Both leave the handler where it is, and isClosed() asks whether
there is one.  So the guards of the public operations never see a closed
connection, and each of them that reads or writes enables the handler again.

`StatusView` is what this is about: the status of the handler and the number of
times that it has been registered in epoll.  Every step of a connection keeps
it, enables the handler or disables it.
-/

namespace Hohnor

open TransitionRuns

def ConnEvent.isRegistration : ConnEvent → Bool
  | .epoll (.add _ _) => true
  | _ => false

/-- The status of the handler, none without one, and the number of
EPOLL_CTL_ADD calls that have been issued for it. -/
structure StatusView where
  status : Option Status
  registrations : Nat
deriving DecidableEq, Repr

namespace StatusView

def enable (v : StatusView) : StatusView :=
  if v.status = some .Enabled then v
  else ⟨some .Enabled, v.registrations + 1⟩

def disable (v : StatusView) : StatusView :=
  ⟨some .Disabled, v.registrations⟩

end StatusView

namespace ConnState

def registrations (s : ConnState) : Nat :=
  s.events.countP ConnEvent.isRegistration

def statusView (s : ConnState) : StatusView where
  status := s.conn.socketHandler_.map (·.status_)
  registrations := s.registrations

theorem isClosed_iff_status
    (s : ConnState) :
    s.isClosed = true ↔ s.statusView.status = none := by
  cases hh : s.conn.socketHandler_ with
  | none =>
      simp [isClosed, statusView, hh]
  | some h =>
      simp [isClosed, statusView, hh]

theorem isClosed_of_same
    {s s' : ConnState} (hview : s'.statusView = s.statusView)
    (hopen : s.isClosed = false) :
    s'.isClosed = false := by
  rw [← Bool.not_eq_true, isClosed_iff_status] at hopen ⊢
  rw [hview]
  exact hopen

theorem isEnabled_iff_status
    (s : ConnState) :
    s.isEnabled = true ↔ s.statusView.status = some .Enabled := by
  cases hh : s.conn.socketHandler_ with
  | none =>
      simp [isEnabled, statusView, hh]
  | some h =>
      simp [isEnabled, statusView, hh, IOHandler.isEnabled]

theorem addEvents_statusView
    (s : ConnState) {es : List ConnEvent}
    (hes : es.countP ConnEvent.isRegistration = 0) :
    (s.addEvents es).statusView = s.statusView := by
  simp [statusView, registrations, addEvents, hes]

/-- A call that issues `n` registrations and leaves the status `st`. -/
theorem onHandler_statusView
    {op : IOHandler ConnHandlerCallback →
      IOHandler ConnHandlerCallback × List EpollCtl}
    {s s' : ConnState}
    (hop : s.onHandler op = some s') :
    ∃ h, s.conn.socketHandler_ = some h ∧
      s'.statusView =
        ⟨some (op h).1.status_,
          s.registrations +
            ((op h).2.map ConnEvent.epoll).countP
              ConnEvent.isRegistration⟩ := by
  unfold onHandler at hop
  cases hh : s.conn.socketHandler_ with
  | none =>
      simp [hh] at hop
  | some h =>
      simp only [hh, Option.some.injEq] at hop
      subst hop
      refine ⟨h, rfl, ?_⟩
      simp [statusView, registrations, addEvents]

theorem setWriteEvent_frame
    (h : IOHandler ConnHandlerCallback) (on : Bool) :
    (h.setWriteEvent on).1.status_ = h.status_ ∧
    ((h.setWriteEvent on).2.map ConnEvent.epoll).countP
      ConnEvent.isRegistration = 0 := by
  cases hst : h.status_ with
  | Created =>
      simp [IOHandler.setWriteEvent, IOHandler.setEvents,
        IOHandler.isEnabled, hst]
  | Enabled =>
      simp [IOHandler.setWriteEvent, IOHandler.setEvents,
        IOHandler.isEnabled, IOHandler.updateInLoop,
        IOHandler.updateIOHandler, ConnEvent.isRegistration, hst]
  | Disabled =>
      simp [IOHandler.setWriteEvent, IOHandler.setEvents,
        IOHandler.isEnabled, hst]

theorem onHandler_setWriteEvent_statusView
    {s s' : ConnState} {on : Bool}
    (hop : s.onHandler (fun h => h.setWriteEvent on) = some s') :
    s'.statusView = s.statusView := by
  obtain ⟨h, hh, hview⟩ := onHandler_statusView hop
  obtain ⟨hstatus, hcount⟩ := setWriteEvent_frame h on
  rw [hview, hstatus, hcount]
  simp [statusView, hh]

theorem setWriteEvent_statusView
    (s : ConnState) (on : Bool) :
    (s.setWriteEvent on).statusView = s.statusView := by
  rw [setWriteEvent]
  split
  · rfl
  · rename_i s' hop
    exact onHandler_setWriteEvent_statusView hop

/-- `enable()` unless enabled registers the handler again unless it is
enabled. -/
theorem enableIfDisabled_statusView
    {s s' : ConnState} (hop : s.enableIfDisabled = some s') :
    s.isClosed = false ∧ s'.statusView = s.statusView.enable := by
  unfold enableIfDisabled at hop
  split at hop
  · rename_i hon
    cases hop
    have hst := (isEnabled_iff_status s).mp hon
    refine ⟨?_, ?_⟩
    · rw [← Bool.not_eq_true, isClosed_iff_status, hst]
      simp
    · rw [StatusView.enable, if_pos hst]
  · rename_i hoff
    obtain ⟨h, hh, hview⟩ := onHandler_statusView hop
    have hne : h.status_ ≠ .Enabled := by
      simpa [isEnabled, hh, IOHandler.isEnabled] using hoff
    refine ⟨by simp [isClosed, hh], ?_⟩
    rw [hview, StatusView.enable]
    cases hst : h.status_ with
    | Created =>
        simp [IOHandler.enable, IOHandler.update, IOHandler.updateInLoop,
          IOHandler.updateIOHandler, ConnEvent.isRegistration,
          statusView, hh, hst]
    | Enabled =>
        exact absurd hst hne
    | Disabled =>
        simp [IOHandler.enable, IOHandler.update, IOHandler.updateInLoop,
          IOHandler.updateIOHandler, ConnEvent.isRegistration,
          statusView, hh, hst]

theorem disable_statusView
    {s s' : ConnState}
    (hop : s.onHandler (fun h => h.disable s.quit_) = some s') :
    s'.statusView = s.statusView.disable := by
  obtain ⟨h, _, hview⟩ := onHandler_statusView hop
  rw [hview, StatusView.disable]
  cases hquit : s.quit_ with
  | true =>
      simp [IOHandler.disable, statusView]
  | false =>
      cases hst : h.status_ with
      | Created =>
          simp [IOHandler.disable, IOHandler.update,
            IOHandler.cleanCallbacks, statusView, hst]
      | Enabled =>
          simp [IOHandler.disable, IOHandler.update,
            IOHandler.updateInLoop, IOHandler.updateIOHandler,
            IOHandler.cleanCallbacks, IOHandler.isEnabled,
            ConnEvent.isRegistration, statusView, hst]
      | Disabled =>
          simp [IOHandler.disable, IOHandler.update,
            IOHandler.cleanCallbacks, statusView, hst]

theorem forceClose_statusView
    {s : ConnState} (hopen : s.isClosed = false) :
    s.forceClose.statusView = s.statusView.disable := by
  obtain ⟨s', hop⟩ :=
    onHandler_isSome (fun h => h.disable s.quit_) hopen
  rw [forceClose]
  rw [hop]
  exact disable_statusView hop

theorem statusView_kept : KeptByWriting statusView where
  issue := fun _ _ => rfl
  accept := fun _ _ => rfl
  setWriting := fun _ _ => rfl
  setWriteBuffer := fun _ _ => rfl
  setWriteEvent := setWriteEvent_statusView
  writeComplete := fun s _ => addEvents_statusView s rfl
  highWaterMark := fun s _ => addEvents_statusView s rfl
  error := fun s _ => addEvents_statusView s rfl

theorem handleClose_statusView
    (s : ConnState) :
    s.handleClose.statusView = s.statusView := by
  have hqueued :
      (if s.isClosed then s
        else s.addEvents [.queued .disableHandler]).statusView =
        s.statusView := by
    split
    · rfl
    · exact addEvents_statusView s rfl
  unfold handleClose
  simp only
  split
  · exact hqueued
  · rw [addEvents_statusView _ rfl, hqueued]

theorem shrinkReadBuffer_statusView
    (s : ConnState) :
    s.shrinkReadBuffer.statusView = s.statusView := by
  rw [shrinkReadBuffer]
  split
  · rfl
  · rfl

theorem beginWrite_statusView
    {r : WriteResult} {message : Bytes} {s : ConnState}
    {out : ConnState × Option CallFrame}
    (hstep : s.beginWrite r message = some out) :
    s.isClosed = false ∧
    ((out.2 = none ∧ out.1.statusView = s.statusView.enable) ∨
      (out.2.isSome ∧ out.1.statusView = s.statusView)) := by
  rcases statusView_kept.beginWrite hstep with
    ⟨hopen, hcall, hview⟩ | ⟨hnone, t, ht, henable⟩
  · exact ⟨hopen, .inr ⟨hcall, hview⟩⟩
  · obtain ⟨hopen, hview⟩ := enableIfDisabled_statusView henable
    rw [ht] at hview
    exact ⟨isClosed_of_same ht.symm hopen, .inl ⟨hnone, hview⟩⟩

theorem beginRead_statusView
    {r : ReadResult} {s : ConnState}
    {out : ConnState × Option CallFrame}
    (hstep : s.beginRead r = some out) :
    out.1.statusView = s.statusView := by
  unfold beginRead at hstep
  split at hstep
  · cases hstep
    exact statusView_kept.handleError s
  · cases hstep
    exact handleClose_statusView s
  · rw [Option.map_eq_some_iff] at hstep
    obtain ⟨stop, _, rfl⟩ := hstep
    split
    · exact shrinkReadBuffer_statusView _
    · exact addEvents_statusView _ rfl

theorem writePending_statusView
    {s s' : ConnState} (hstep : s.writePending = some s') :
    s.isClosed = false ∧ s'.statusView = s.statusView.enable := by
  obtain ⟨t, ht, henable⟩ := statusView_kept.writePending hstep
  obtain ⟨hopen, hview⟩ := enableIfDisabled_statusView henable
  rw [ht] at hview
  exact ⟨isClosed_of_same ht.symm hopen, hview⟩

theorem appendAndWrite_statusView
    {data : Bytes} {s s' : ConnState}
    (hstep : s.appendAndWrite data = some s') :
    s.isClosed = false ∧ s'.statusView = s.statusView.enable := by
  obtain ⟨t, ht, henable⟩ := statusView_kept.appendAndWrite hstep
  obtain ⟨hopen, hview⟩ := enableIfDisabled_statusView henable
  rw [ht] at hview
  exact ⟨isClosed_of_same ht.symm hopen, hview⟩

theorem readRaw_statusView
    {s s' : ConnState} (hstep : s.readRaw = some s') :
    s.isClosed = false ∧ s'.statusView = s.statusView.enable := by
  obtain ⟨hopen, hview⟩ := enableIfDisabled_statusView hstep
  exact ⟨hopen, hview⟩

theorem readUntilCondition_statusView
    {condition : ReadStopCondition} {s s' : ConnState}
    (hstep : s.readUntilCondition condition = some s') :
    s.isClosed = false ∧ s'.statusView = s.statusView.enable := by
  obtain ⟨hopen, hview⟩ := enableIfDisabled_statusView hstep
  exact ⟨hopen, hview⟩

end ConnState

namespace ConnOp

/-- The two ways to close. -/
def closes : ConnOp → Bool
  | .forceClose => true
  | .runDisable => true
  | _ => false

/-- Calls that read or write, which end with the test of isEnabled(). -/
def readsOrWrites : ConnOp → Bool
  | .write _ _ => true
  | .writeBuffer _ buffer => 0 < buffer.readableBytes
  | .writePending => true
  | .appendAndWrite _ => true
  | .readRaw => true
  | .readUntil _ => true
  | .readBytes _ => true
  | .readUntilCondition _ => true
  | _ => false

/-- Public operations that have nothing to do on a closed connection. -/
def needsOpen : ConnOp → Bool
  | .write _ _ => true
  | .writeBuffer _ _ => true
  | .writePending => true
  | .appendAndWrite _ => true
  | .readRaw => true
  | .readUntil _ => true
  | .readBytes _ => true
  | .readUntilCondition _ => true
  | .setTCPNoDelay _ => true
  | .forceClose => true
  | _ => false

end ConnOp

namespace ConnRun

/-- The operation makes a `::write`. -/
def callsWrite (m : ConnRun) : ConnOp → Bool
  | .write _ _ => !m.state.isClosed && m.state.writesDirectly
  | .writeBuffer _ buffer =>
      0 < buffer.readableBytes && !m.state.isClosed &&
        m.state.writesDirectly
  | _ => false

/-- Closed stays closed: once a close has executed isClosed() is true, and a
public operation neither registers the handler nor makes a `::write`. -/
structure StaysClosed (m : ConnRun) (op : ConnOp) (m' : ConnRun) :
    Prop where
  isClosed : m'.closeExecuted = true → m'.state.isClosed = true
  notRegistered :
    m.closeExecuted = true → op.needsOpen = true →
      m'.state.registrations = m.state.registrations
  notWritten :
    m.closeExecuted = true → op.needsOpen = true →
      m.callsWrite op = false

/-- What a call that reads or writes does to the handler: it finds one, and
enables it unless it stops at a user's function. -/
structure Reopens (m m' : ConnRun) : Prop where
  isOpen : m.state.isClosed = false
  closeExecuted : m'.closeExecuted = m.closeExecuted
  statusView :
    (m'.frames = m.frames ∧
        m'.state.statusView = m.state.statusView.enable) ∨
      (m'.frames ≠ m.frames ∧
        m'.state.statusView = m.state.statusView)

theorem enter_reopens
    {m m' : ConnRun} {r : WriteResult} {message : Bytes}
    (hstep : (m.state.beginWrite r message).map m.enter = some m') :
    m.Reopens m' := by
  rw [Option.map_eq_some_iff] at hstep
  obtain ⟨out, hout, rfl⟩ := hstep
  obtain ⟨hopen, hview⟩ := ConnState.beginWrite_statusView hout
  refine ⟨hopen, rfl, ?_⟩
  rcases hview with ⟨hnone, hview⟩ | ⟨hsome, hview⟩
  · exact Or.inl ⟨by simp [enter, hnone], hview⟩
  · obtain ⟨frame, hframe⟩ := Option.isSome_iff_exists.mp hsome
    exact Or.inr ⟨by simp [enter, hframe], hview⟩

theorem setState_reopens
    {m m' : ConnRun} {out : Option ConnState}
    (hout :
      ∀ s, out = some s →
        m.state.isClosed = false ∧
        s.statusView = m.state.statusView.enable)
    (hstep : out.map m.setState = some m') :
    m.Reopens m' := by
  rw [Option.map_eq_some_iff] at hstep
  obtain ⟨s, hs, rfl⟩ := hstep
  obtain ⟨hopen, hview⟩ := hout s hs
  exact ⟨hopen, rfl, Or.inl ⟨rfl, hview⟩⟩

/-- Every call that reads or writes finds a handler and enables it. -/
theorem step_reopens
    {m m' : ConnRun} {op : ConnOp}
    (hop : op.readsOrWrites = true) (hstep : m.step op = some m') :
    m.Reopens m' := by
  cases op with
  | write r message =>
      exact enter_reopens hstep
  | writeBuffer r buffer =>
      have hsome : 0 < buffer.readableBytes := of_decide_eq_true hop
      simp only [step, if_pos hsome] at hstep
      exact enter_reopens hstep
  | writePending =>
      exact setState_reopens
        (fun _ hs => ConnState.writePending_statusView hs) hstep
  | appendAndWrite data =>
      exact setState_reopens
        (fun _ hs => ConnState.appendAndWrite_statusView hs) hstep
  | readRaw =>
      exact setState_reopens
        (fun _ hs => ConnState.readRaw_statusView hs) hstep
  | readUntil delimiter =>
      exact setState_reopens
        (fun _ hs => ConnState.readUntilCondition_statusView hs) hstep
  | readBytes length =>
      exact setState_reopens
        (fun _ hs => ConnState.readUntilCondition_statusView hs) hstep
  | readUntilCondition condition =>
      exact setState_reopens
        (fun _ hs => ConnState.readUntilCondition_statusView hs) hstep
  | _ =>
      cases hop

theorem isClosed_of_enable
    {s s' : ConnState} (hview : s'.statusView = s.statusView.enable) :
    s'.isClosed = false := by
  rw [← Bool.not_eq_true, ConnState.isClosed_iff_status, hview,
    StatusView.enable]
  split
  · rename_i hon
    rw [hon]
    simp
  · simp

theorem isClosed_of_disable
    {s s' : ConnState} (hview : s'.statusView = s.statusView.disable) :
    s'.isClosed = false := by
  rw [← Bool.not_eq_true, ConnState.isClosed_iff_status, hview,
    StatusView.disable]
  simp

/-- The handler is still there, and no close has been counted. -/
structure Continues (m m' : ConnRun) : Prop where
  isOpen : m.state.isClosed = false → m'.state.isClosed = false
  closeExecuted : m'.closeExecuted = m.closeExecuted

theorem Reopens.continues
    {m m' : ConnRun} (h : m.Reopens m') :
    m.Continues m' := by
  refine ⟨?_, h.closeExecuted⟩
  intro hopen
  rcases h.statusView with ⟨_, hview⟩ | ⟨_, hview⟩
  · exact isClosed_of_enable hview
  · exact ConnState.isClosed_of_same hview hopen

/-- A step that changes only the state of the connection, and not the status of
its handler. -/
theorem continues_of_same
    {m m' : ConnRun} {s : ConnState}
    (hm' : m.setState s = m')
    (hview : s.statusView = m.state.statusView) :
    m.Continues m' := by
  subst hm'
  exact ⟨ConnState.isClosed_of_same hview, rfl⟩

theorem finishCall_continues
    {m m' : ConnRun} (hstep : m.finishCall = some m') :
    m.Continues m' := by
  unfold finishCall at hstep
  split at hstep
  · cases hstep
  · rename_i frame frames _
    rw [Option.map_eq_some_iff] at hstep
    obtain ⟨s, hs, rfl⟩ := hstep
    refine ⟨?_, rfl⟩
    intro hopen
    cases frame with
    | writeRest rest =>
        exact isClosed_of_enable (ConnState.enableIfDisabled_statusView hs).2
    | readTail =>
        cases hs
        exact ConnState.isClosed_of_same
          (ConnState.shrinkReadBuffer_statusView _)
          hopen

/-- No step but a closing one ends the connection or counts as a close. -/
theorem step_continues
    {m m' : ConnRun} {op : ConnOp}
    (hop : op.closes = false) (hstep : m.step op = some m') :
    m.Continues m' := by
  by_cases hrw : op.readsOrWrites = true
  · exact (step_reopens hrw hstep).continues
  · cases op with
    | writeBuffer r buffer =>
        have hnone : ¬ 0 < buffer.readableBytes := by
          simpa [ConnOp.readsOrWrites] using hrw
        simp only [step, if_neg hnone, Option.some.injEq] at hstep
        subst hstep
        exact ⟨id, rfl⟩
    | setTCPNoDelay on =>
        exact continues_of_same (Option.some.inj hstep) rfl
    | shutdown =>
        exact continues_of_same (Option.some.inj hstep)
          (ConnState.addEvents_statusView m.state rfl)
    | setHighWaterMarkCallback highWaterMark cb =>
        exact continues_of_same (Option.some.inj hstep) rfl
    | setReadCompleteCallback cb =>
        exact continues_of_same (Option.some.inj hstep) rfl
    | setWriteCompleteCallback cb =>
        exact continues_of_same (Option.some.inj hstep) rfl
    | setCloseCallback cb =>
        exact continues_of_same (Option.some.inj hstep) rfl
    | setErrorCallback cb =>
        exact continues_of_same (Option.some.inj hstep) rfl
    | onReadBuffer op =>
        simp only [step, Option.ite_none_right_eq_some,
          Option.some.injEq] at hstep
        exact continues_of_same hstep.2 rfl
    | onWriteBuffer op =>
        simp only [step, Option.ite_none_right_eq_some,
          Option.some.injEq] at hstep
        exact continues_of_same hstep.2 rfl
    | readEvent r =>
        simp only [step, Option.ite_none_right_eq_some,
          Option.map_eq_some_iff] at hstep
        obtain ⟨_, out, hout, rfl⟩ := hstep
        refine ⟨?_, rfl⟩
        exact ConnState.isClosed_of_same (ConnState.beginRead_statusView hout)
    | writeEvent r =>
        simp only [step, Option.ite_none_right_eq_some,
          Option.some.injEq] at hstep
        exact continues_of_same hstep.2
          (ConnState.statusView_kept.handleWrite r m.state)
    | closeEvent =>
        simp only [step, Option.ite_none_right_eq_some,
          Option.some.injEq] at hstep
        exact continues_of_same hstep.2
          (ConnState.handleClose_statusView m.state)
    | errorEvent =>
        simp only [step, Option.ite_none_right_eq_some,
          Option.some.injEq] at hstep
        exact continues_of_same hstep.2
          (ConnState.statusView_kept.handleError m.state)
    | finishCall =>
        exact finishCall_continues hstep
    | forceClose => cases hop
    | runDisable => cases hop
    | _ => exact absurd rfl hrw

/-- A close disables the handler and leaves it in place. -/
theorem step_closes
    {m m' : ConnRun} {op : ConnOp}
    (hopen : m.state.isClosed = false)
    (hop : op.closes = true) (hstep : m.step op = some m') :
    m'.closeExecuted = true ∧
    m'.state.statusView = m.state.statusView.disable := by
  cases op with
  | forceClose =>
      cases hstep
      exact ⟨rfl, ConnState.forceClose_statusView hopen⟩
  | runDisable =>
      simp only [step, runDisable, Option.ite_none_right_eq_some,
        Option.map_eq_some_iff] at hstep
      obtain ⟨_, s, hs, rfl⟩ := hstep
      exact ⟨rfl, ConnState.disable_statusView hs⟩
  | _ =>
      cases hop

theorem start_isOpen
    (handler : IOHandler ConnHandlerCallback) (quit : Bool) :
    (start handler quit).state.isClosed = false :=
  (ConnState.create_readView handler quit).2

/-- After a close, every call that reads or writes and comes to its end has
registered the handler in epoll again. -/
theorem reopens_after_close
    {m m' m'' : ConnRun} {op op' : ConnOp}
    (hopen : m.state.isClosed = false)
    (hclose : op.closes = true) (hstep : m.step op = some m')
    (hop' : op'.readsOrWrites = true) (hstep' : m'.step op' = some m'')
    (hend : m''.frames = m'.frames) :
    m''.state.isEnabled = true ∧
    m''.state.registrations = m'.state.registrations + 1 := by
  have hdisabled := (step_closes hopen hclose hstep).2
  have hoff : m'.state.statusView.status ≠ some .Enabled := by
    rw [hdisabled, StatusView.disable]
    simp
  rcases (step_reopens hop' hstep').statusView with
    ⟨_, hview⟩ | ⟨hne, _⟩
  · rw [StatusView.enable, if_neg hoff] at hview
    refine ⟨?_, ?_⟩
    · rw [ConnState.isEnabled_iff_status, hview]
    · exact congrArg StatusView.registrations hview
  · exact absurd hend hne

/-- A connection that was closed is open to isClosed(), and a later read
registers it again. -/
theorem closed_connection_reopens :
    (∃ m,
      run step (start (.create 5) false)
          [.readRaw, .forceClose, .readRaw] = some m ∧
      m.closeExecuted = true ∧ m.state.isClosed = false ∧
      m.state.registrations = 2) ∧
    ¬ EveryStep step StaysClosed (start (.create 5) false)
        [.readRaw, .forceClose, .readRaw] := by
  obtain ⟨m, hrun, hview⟩ :=
    Option.map_eq_some_iff.mp
      (show (run step (start (.create 5) false)
          [.readRaw, .forceClose, .readRaw]).map
            (fun m => (m.closeExecuted, m.state.isClosed,
              m.state.registrations)) = some (true, false, 2)
        by decide +kernel)
  obtain ⟨hexecuted, hrest⟩ := Prod.mk.inj hview
  obtain ⟨hopen, hcount⟩ := Prod.mk.inj hrest
  refine ⟨⟨m, hrun, hexecuted, hopen, hcount⟩, ?_⟩
  intro hall
  have hclosed :
      EveryStep step
        (fun _ _ m' => m'.closeExecuted = true → m'.state.isClosed = true)
        (start (.create 5) false) [.readRaw, .forceClose, .readRaw] :=
    everyStep_transfer
      (fun _ _ _ _ _ _ hstays => ⟨trivial, hstays.isClosed⟩)
      trivial (fun _ _ => trivial) hall
  have hlast :=
    everyStep_last (fun hstart => by cases hstart) hclosed hrun hexecuted
  rw [hopen] at hlast
  cases hlast

/-- A run of a connection keeps to the rule for closed connections exactly when
no close is executed in it. -/
theorem stays_closed_iff_never_closed
    (handler : IOHandler ConnHandlerCallback) (quit : Bool)
    (ops : List ConnOp) :
    EveryStep step StaysClosed (start handler quit) ops ↔
      EveryStep step (fun _ op _ => op.closes = false)
        (start handler quit) ops := by
  have hstep :
      ∀ (m : ConnRun) (op : ConnOp) (m' : ConnRun),
        m.state.isClosed = false ∧ m.closeExecuted = false → True →
        m.step op = some m' →
        (StaysClosed m op m' ↔ op.closes = false) ∧
        (op.closes = false →
          m'.state.isClosed = false ∧ m'.closeExecuted = false) := by
    rintro m op m' ⟨hopen, hnever⟩ _ hs
    have hkeep :
        op.closes = false →
          m'.state.isClosed = false ∧ m'.closeExecuted = false := by
      intro hop
      have hcontinues := step_continues hop hs
      exact ⟨hcontinues.isOpen hopen,
        hcontinues.closeExecuted.trans hnever⟩
    refine ⟨⟨?_, ?_⟩, hkeep⟩
    · intro hstays
      cases hop : op.closes with
      | false =>
          rfl
      | true =>
          obtain ⟨hexecuted, hview⟩ := step_closes hopen hop hs
          have hclosed := hstays.isClosed hexecuted
          rw [isClosed_of_disable hview] at hclosed
          cases hclosed
    · intro hop
      have hnever' := (hkeep hop).2
      refine ⟨?_, ?_, ?_⟩
      · intro hexecuted
        rw [hnever'] at hexecuted
        cases hexecuted
      · intro hexecuted
        rw [hnever] at hexecuted
        cases hexecuted
      · intro hexecuted
        rw [hnever] at hexecuted
        cases hexecuted
  exact everyStep_iff
    (fun m => m.state.isClosed = false ∧ m.closeExecuted = false)
    hstep ⟨start_isOpen handler quit, rfl⟩ (fun _ _ => trivial)

end ConnRun

end Hohnor
