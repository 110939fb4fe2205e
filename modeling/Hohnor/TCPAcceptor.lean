import Hohnor.TCPConnection
import Mathlib.Tactic

/-!
# The acceptor

`TCPAcceptor` of src/net/TCPAcceptor.cpp with `SocketFuncs::accept`.  The read
callback that setAcceptCallback installs accepts one connection at each
readable event and hands it to the user.  What accept4 answers is an argument,
and a run of the loop is a list of such answers.

A failed accept leaves no handler, and the read callback makes a TCPConnection
of it all the same.  `survives_iff` says which runs the acceptor survives.
-/

namespace Hohnor

/-- How a callback ends the program: it dereferences a null handler, or it logs
a FATAL record. -/
inductive Fault where
  | nullHandler
  | fatal
deriving DecidableEq, Repr

/-- The answer of `::accept4`. -/
abbrev AcceptResult := Except Errno Nat

namespace SocketFuncs

/-- The errors that accept() lists as expected. -/
def isExpected : Errno → Bool
  | .EAGAIN | .ECONNABORTED | .EINTR | .EPROTO | .EPERM | .EMFILE => true
  | _ => false

/-- `SocketFuncs::accept`; none is the return value -1. -/
def accept : AcceptResult → Except Fault (Option Nat)
  | .ok connfd => .ok (some connfd)
  | .error savedErrno =>
      if isExpected savedErrno then .ok none else .error .fatal

end SocketFuncs

/-- `TCPConnection::create(handler)`: the constructor reads `handler->loop()`
before anything else. -/
def TCPConnection.ofHandler
    (handler : Option (IOHandler ConnHandlerCallback)) (quit : Bool) :
    Except Fault ConnState :=
  match handler with
  | none => .error .nullHandler
  | some h => .ok (TCPConnection.create h quit)

/-- What setAcceptCallback installs on the listening handler. -/
inductive AcceptorCallback where
  | acceptConnection
deriving DecidableEq, Repr

/-- An acceptor, whether its loop has ended and is to quit, and what its accept
callback has been called with; a null connection is none. -/
structure TCPAcceptor where
  socketHandler_ : IOHandler AcceptorCallback
  ended : Bool
  quit_ : Bool
  handed : List (Option ConnState)

namespace TCPAcceptor

/-- `EventLoop::handleIO`. -/
def handleIO (s : TCPAcceptor) (fd : Nat) :
    Option (IOHandler ConnHandlerCallback) :=
  if s.ended then none else some (IOHandler.create fd)

def accept (s : TCPAcceptor) (r : AcceptResult) :
    Except Fault (Option (IOHandler ConnHandlerCallback)) :=
  match SocketFuncs.accept r with
  | .error fault => .error fault
  | .ok none => .ok none
  | .ok (some acceptedFd) => .ok (s.handleIO acceptedFd)

/-- The function that setAcceptCallback installs, on a living acceptor. -/
def acceptConnection (s : TCPAcceptor) (r : AcceptResult) :
    Except Fault TCPAcceptor :=
  match s.accept r with
  | .error fault => .error fault
  | .ok handler =>
      match TCPConnection.ofHandler handler s.quit_ with
      | .error fault => .error fault
      | .ok conn => .ok { s with handed := s.handed ++ [some conn] }

/-- The constructor, on the fd that socket() returns. -/
def create (fd : Nat) (quit : Bool) : TCPAcceptor where
  socketHandler_ := IOHandler.create fd
  ended := false
  quit_ := quit
  handed := []

def setAcceptCallback (s : TCPAcceptor) : TCPAcceptor :=
  { s with
    socketHandler_ :=
      (s.socketHandler_.setReadCallback (some .acceptConnection)).1 }

def listen (s : TCPAcceptor) : TCPAcceptor :=
  { s with socketHandler_ := s.socketHandler_.enable.1 }

def isListening (s : TCPAcceptor) : Bool :=
  s.socketHandler_.isEnabled

/-- A readable event of the listening socket: the loop runs the read callback
of an enabled handler. -/
def readable (s : TCPAcceptor) (r : AcceptResult) :
    Except Fault TCPAcceptor :=
  match s.isListening, s.socketHandler_.readCallback_ with
  | true, some .acceptConnection => s.acceptConnection r
  | _, _ => .ok s

/-- A run of readable events; it stops where the program does. -/
def run (s : TCPAcceptor) : List AcceptResult → Except Fault TCPAcceptor
  | [] => .ok s
  | r :: rs =>
      match s.readable r with
      | .error fault => .error fault
      | .ok s' => s'.run rs

/-- The connection is open on the descriptor. -/
def OwnsFd (c : ConnState) (fd : Nat) : Prop :=
  ∃ h, c.conn.socketHandler_ = some h ∧ h.fd = fd

/-- What the accept callback may be called with for these answers: each new
descriptor as a connection that owns it, in order, and for a failure nothing or
a null connection. -/
inductive Hands : List AcceptResult → List (Option ConnState) → Prop
  | nil :
      Hands [] []
  | accepted
      {fd : Nat} {c : ConnState}
      {rs : List AcceptResult} {cs : List (Option ConnState)}
      (howns : OwnsFd c fd) (htail : Hands rs cs) :
      Hands (.ok fd :: rs) (some c :: cs)
  | failed
      {e : Errno}
      {rs : List AcceptResult} {cs : List (Option ConnState)}
      (htail : Hands rs cs) :
      Hands (.error e :: rs) cs
  | null
      {e : Errno}
      {rs : List AcceptResult} {cs : List (Option ConnState)}
      (htail : Hands rs cs) :
      Hands (.error e :: rs) (none :: cs)

/-- The run goes on to its end, dereferences no null handler, hands over what
was accepted, and leaves the acceptor listening. -/
def Survives (s : TCPAcceptor) (rs : List AcceptResult) : Prop :=
  ∃ t handed, s.run rs = .ok t ∧
    t.handed = s.handed ++ handed ∧
    Hands rs handed ∧
    t.isListening = true

/-- A listening acceptor of a loop that has not ended. -/
structure Listening (s : TCPAcceptor) : Prop where
  enabled : s.isListening = true
  callback : s.socketHandler_.readCallback_ = some .acceptConnection
  running : s.ended = false

theorem listening_create
    (fd : Nat) (quit : Bool) :
    (create fd quit).setAcceptCallback.listen.Listening := by
  constructor
  · simp [isListening, listen, IOHandler.enable_fst, IOHandler.isEnabled]
  · simp [listen, setAcceptCallback, IOHandler.enable_fst,
      IOHandler.setReadCallback, IOHandler.setReadEvent,
      IOHandler.setEvents_fst]
  · rfl

/-- The new connection owns the descriptor of its handler. -/
theorem create_ownsFd
    (h : IOHandler ConnHandlerCallback) (quit : Bool) :
    OwnsFd (TCPConnection.create h quit) h.fd := by
  refine ⟨_, rfl, ?_⟩
  simp [IOHandler.setWriteEvent, IOHandler.setErrorCallback,
    IOHandler.setErrorEvent, IOHandler.setCloseCallback,
    IOHandler.setCloseEvent, IOHandler.setWriteCallback,
    IOHandler.setReadCallback, IOHandler.setReadEvent,
    IOHandler.setEvents_fst]

/-- An accepted descriptor goes to the accept callback. -/
theorem readable_accepted
    {s : TCPAcceptor} (hs : s.Listening) (fd : Nat) :
    ∃ c s', s.readable (.ok fd) = .ok s' ∧
      s'.handed = s.handed ++ [some c] ∧
      OwnsFd c fd ∧ s'.Listening := by
  let c := TCPConnection.create (IOHandler.create fd) s.quit_
  refine ⟨c, { s with handed := s.handed ++ [some c] }, ?_, rfl,
    create_ownsFd (IOHandler.create fd) s.quit_,
    ⟨hs.enabled, hs.callback, hs.running⟩⟩
  simp only [readable, hs.enabled, hs.callback, acceptConnection, accept,
    SocketFuncs.accept, handleIO, hs.running, TCPConnection.ofHandler]
  rfl

/-- A failed accept ends in the constructor of the connection. -/
theorem readable_failed
    {s : TCPAcceptor} (hs : s.Listening)
    {e : Errno} (he : SocketFuncs.isExpected e = true) :
    s.readable (.error e) = .error .nullHandler := by
  simp only [readable, hs.enabled, hs.callback, acceptConnection, accept,
    SocketFuncs.accept, he, if_true, TCPConnection.ofHandler]

/-- The answers are new descriptors. -/
def AllAccepted (rs : List AcceptResult) : Prop :=
  ∀ e, .error e ∉ rs

theorem survives_of_allAccepted
    {s : TCPAcceptor} {rs : List AcceptResult}
    (hs : s.Listening) (hall : AllAccepted rs) :
    s.Survives rs := by
  induction rs generalizing s with
  | nil =>
      exact ⟨s, [], rfl, by simp, .nil, hs.enabled⟩
  | cons r rs ih =>
      cases r with
      | error e =>
          exact absurd (List.mem_cons_self ..) (hall e)
      | ok fd =>
          obtain ⟨c, s', hstep, hhanded, howns, hs'⟩ :=
            readable_accepted hs fd
          obtain ⟨t, handed, hrun, ht, hhands, hlistening⟩ :=
            ih hs' fun e he => hall e (List.mem_cons_of_mem _ he)
          refine ⟨t, some c :: handed, ?_, ?_, .accepted howns hhands,
            hlistening⟩
          · rw [run, hstep]
            exact hrun
          · rw [ht, hhanded, List.append_assoc]
            rfl

/-- The first failed accept is where the program ends. -/
theorem run_of_failed
    {s : TCPAcceptor} {rs : List AcceptResult}
    (hs : s.Listening)
    (hexpected : ∀ e, .error e ∈ rs → SocketFuncs.isExpected e = true)
    (hfailed : ¬ AllAccepted rs) :
    s.run rs = .error .nullHandler := by
  induction rs generalizing s with
  | nil =>
      exact absurd (fun e he => by cases he) hfailed
  | cons r rs ih =>
      cases r with
      | error e =>
          have he := hexpected e (List.mem_cons_self ..)
          rw [run, readable_failed hs he]
      | ok fd =>
          obtain ⟨c, s', hstep, _, _, hs'⟩ := readable_accepted hs fd
          rw [run, hstep]
          refine ih hs'
            (fun e he => hexpected e (List.mem_cons_of_mem _ he)) ?_
          intro hall
          apply hfailed
          intro e he
          rcases List.mem_cons.mp he with hhead | htail
          · cases hhead
          · exact hall e htail

/-- The acceptor survives a run if and only if no accept of it fails. -/
theorem survives_iff
    {s : TCPAcceptor} {rs : List AcceptResult}
    (hs : s.Listening)
    (hexpected : ∀ e, .error e ∈ rs → SocketFuncs.isExpected e = true) :
    s.Survives rs ↔ AllAccepted rs := by
  constructor
  · rintro ⟨t, handed, hrun, _⟩
    by_contra hfailed
    rw [run_of_failed hs hexpected hfailed] at hrun
    cases hrun
  · exact survives_of_allAccepted hs

theorem survives_iff_two :
    (create 3 false).setAcceptCallback.listen.Survives [.ok 5, .ok 6] := by
  refine (survives_iff (listening_create 3 false) ?_).mpr ?_
  · intro e he
    simp at he
  · intro e he
    simp at he

/-- With no descriptor left for the second client the acceptor does not
survive. -/
theorem not_survives_EMFILE :
    ¬ ((create 3 false).setAcceptCallback.listen.Survives
        [.ok 5, .error .EMFILE]) ∧
      (create 3 false).setAcceptCallback.listen.run
          [.ok 5, .error .EMFILE] = .error .nullHandler := by
  have hrun :
      (create 3 false).setAcceptCallback.listen.run
          [.ok 5, .error .EMFILE] = .error .nullHandler :=
    run_of_failed (listening_create 3 false)
      (by
        intro e he
        simp at he
        subst he
        rfl)
      (fun hall => hall .EMFILE (by simp))
  refine ⟨?_, hrun⟩
  rintro ⟨t, handed, ht, _⟩
  rw [hrun] at ht
  cases ht

end TCPAcceptor

end Hohnor
