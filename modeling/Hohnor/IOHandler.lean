import Hohnor.SystemCalls

/-!
# Handlers of file descriptors

`IOHandler` of include/hohnor/core/IOHandler.h and src/core/IOHandler.cpp, as
its operations run in the loop thread.  Every operation returns the handler
and the `epoll_ctl` calls that it makes through `EventLoop::updateIOHandler`.

The event mask is the set of the six bits that the source uses.  A callback is
a value of an arbitrary type, the empty std::function is none.
-/

namespace Hohnor

structure EventMask where
  EPOLLIN : Bool
  EPOLLPRI : Bool
  EPOLLOUT : Bool
  EPOLLRDHUP : Bool
  EPOLLERR : Bool
  EPOLLHUP : Bool
deriving DecidableEq, Repr

namespace EventMask

/-- The mask 0. -/
def none : EventMask :=
  ⟨false, false, false, false, false, false⟩

end EventMask

inductive Status where
  | Created
  | Enabled
  | Disabled
deriving DecidableEq, Repr

/-- One `epoll_ctl` call. -/
inductive EpollCtl where
  | add (fd : Nat) (events : EventMask)
  | modify (fd : Nat) (events : EventMask)
  | remove (fd : Nat)
deriving DecidableEq, Repr

structure IOHandler (κ : Type) where
  fd : Nat
  events_ : EventMask
  revents_ : EventMask
  status_ : Status
  readCallback_ : Option κ
  writeCallback_ : Option κ
  closeCallback_ : Option κ
  errorCallback_ : Option κ
deriving DecidableEq, Repr

namespace IOHandler

variable {κ : Type}

/-- The constructor. -/
def create (fd : Nat) : IOHandler κ where
  fd := fd
  events_ := .none
  revents_ := .none
  status_ := .Created
  readCallback_ := Option.none
  writeCallback_ := Option.none
  closeCallback_ := Option.none
  errorCallback_ := Option.none

def isEnabled (h : IOHandler κ) : Bool :=
  h.status_ = .Enabled

def retEvents (h : IOHandler κ) (revents : EventMask) : IOHandler κ :=
  { h with revents_ := revents }

def cleanCallbacks (h : IOHandler κ) : IOHandler κ :=
  { h with
    readCallback_ := Option.none
    writeCallback_ := Option.none
    closeCallback_ := Option.none
    errorCallback_ := Option.none }

/-- `EventLoop::updateIOHandler`. -/
def updateIOHandler (h : IOHandler κ) (addNew : Bool) : EpollCtl :=
  if addNew then
    .add h.fd h.events_
  else if h.isEnabled then
    .modify h.fd h.events_
  else
    .remove h.fd

def updateInLoop (h : IOHandler κ) (nextStatus : Status) :
    IOHandler κ × List EpollCtl :=
  let addNew :=
    (h.status_ = .Created ∧ nextStatus = .Enabled) ∨
    (h.status_ = .Disabled ∧ nextStatus = .Enabled)
  let h' := { h with status_ := nextStatus }
  let ctl := h'.updateIOHandler addNew
  (if nextStatus = .Disabled then h'.cleanCallbacks else h', [ctl])

/-- `IOHandler::update`, run in the loop thread. -/
def update (h : IOHandler κ) (nextStatus : Status) :
    IOHandler κ × List EpollCtl :=
  if h.status_ = .Disabled ∧ nextStatus = .Disabled then
    (h, [])
  else if h.status_ = .Created ∧ nextStatus = .Disabled then
    ({ h with status_ := .Disabled }, [])
  else
    h.updateInLoop nextStatus

/-- `IOHandler::disable`; `quit` is the loop's quit_. -/
def disable (h : IOHandler κ) (quit : Bool) :
    IOHandler κ × List EpollCtl :=
  if quit then
    ({ h.cleanCallbacks with status_ := .Disabled }, [])
  else
    h.cleanCallbacks.update .Disabled

def enable (h : IOHandler κ) : IOHandler κ × List EpollCtl :=
  h.update .Enabled

/-- The tail that the four `set*Event` functions share. -/
def setEvents (h : IOHandler κ) (events : EventMask) :
    IOHandler κ × List EpollCtl :=
  let h' := { h with events_ := events }
  if h'.isEnabled then h'.updateInLoop .Enabled else (h', [])

def setReadEvent (h : IOHandler κ) (on : Bool) :
    IOHandler κ × List EpollCtl :=
  h.setEvents { h.events_ with EPOLLIN := on }

def setWriteEvent (h : IOHandler κ) (on : Bool) :
    IOHandler κ × List EpollCtl :=
  h.setEvents { h.events_ with EPOLLOUT := on }

def setCloseEvent (h : IOHandler κ) (on : Bool) :
    IOHandler κ × List EpollCtl :=
  h.setEvents { h.events_ with EPOLLRDHUP := on }

def setErrorEvent (h : IOHandler κ) (on : Bool) :
    IOHandler κ × List EpollCtl :=
  h.setEvents { h.events_ with EPOLLERR := on }

def setReadCallback (h : IOHandler κ) (cb : Option κ) :
    IOHandler κ × List EpollCtl :=
  { h with readCallback_ := cb }.setReadEvent cb.isSome

def setWriteCallback (h : IOHandler κ) (cb : Option κ) :
    IOHandler κ × List EpollCtl :=
  { h with writeCallback_ := cb }.setWriteEvent cb.isSome

def setCloseCallback (h : IOHandler κ) (cb : Option κ) :
    IOHandler κ × List EpollCtl :=
  { h with closeCallback_ := cb }.setCloseEvent cb.isSome

def setErrorCallback (h : IOHandler κ) (cb : Option κ) :
    IOHandler κ × List EpollCtl :=
  { h with errorCallback_ := cb }.setErrorEvent cb.isSome

theorem setEvents_fst
    (h : IOHandler κ) (events : EventMask) :
    (h.setEvents events).1 = { h with events_ := events } := by
  cases hst : h.status_ with
  | Created =>
      simp [setEvents, isEnabled, hst]
  | Enabled =>
      simp [setEvents, isEnabled, updateInLoop, hst]
  | Disabled =>
      simp [setEvents, isEnabled, hst]

theorem enable_fst
    (h : IOHandler κ) :
    h.enable.1 = { h with status_ := .Enabled } := by
  simp [enable, update, updateInLoop]

theorem disable_fst
    (h : IOHandler κ) (quit : Bool) :
    (h.disable quit).1 = { h.cleanCallbacks with status_ := .Disabled } := by
  cases quit with
  | true =>
      rfl
  | false =>
      cases hst : h.status_ with
      | Created =>
          simp [disable, update, cleanCallbacks, hst]
      | Enabled =>
          simp [disable, update, updateInLoop, cleanCallbacks, hst]
      | Disabled =>
          simp [disable, update, cleanCallbacks, hst]

end IOHandler

end Hohnor
