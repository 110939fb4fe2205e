import Hohnor.EventLoop
import Hohnor.IOHandler
import Hohnor.TransitionRuns

/-!
# The keyboard and the terminal

`EventLoop::handleKeyboard` and what the end of `loop()` does to the static
`interactiveIOHandler_` (src/core/EventLoop.cpp), with `setInputInteractive`
and `resetInputInteractive` of src/io/FdUtils.cpp, for any number of loops of
one thread.

The terminal has the attributes it had before the interactive mode whenever
the mode is off, and after `exit`.  A process that dies does not run its
atexit functions and leaves the terminal as it is.

The handler is never freed.  The end of any loop takes its `loop_` away, and
then the end of another loop goes through a null pointer.
-/

namespace Hohnor

open TransitionRuns

structure Termios where
  c_iflag : UInt32
  c_oflag : UInt32
  c_cflag : UInt32
  c_lflag : UInt32
  c_line : UInt8
  c_cc : Fin 32 → UInt8
deriving DecidableEq

namespace Termios

def ICANON : UInt32 :=
  2

def ECHO : UInt32 :=
  8

def VTIME : Fin 32 :=
  5

def VMIN : Fin 32 :=
  6

/-- What setInputInteractive makes of the current attributes. -/
def interactive (t : Termios) : Termios :=
  { t with
    c_lflag := t.c_lflag &&& ~~~(ICANON ||| ECHO)
    c_cc := fun i =>
      if i = VMIN then 1 else if i = VTIME then 0 else t.c_cc i }

end Termios

/-- The statics of FdUtils.cpp, the terminal on STDIN_FILENO, and how often
the reset is registered with atexit. -/
structure InputMode where
  isatty : Bool
  attributes : Termios
  saved_attributes : Termios
  terminal_interactive_mode : Bool
  atexit : Nat
deriving DecidableEq

namespace InputMode

def resetInputInteractive (m : InputMode) : InputMode :=
  if m.terminal_interactive_mode = false then m
  else
    { m with
      terminal_interactive_mode := false
      attributes := m.saved_attributes }

/-- none: the HCHECK on isatty aborts. -/
def setInputInteractive (m : InputMode) : Option InputMode :=
  if m.terminal_interactive_mode then some m
  else if m.isatty then
    some { m with
      terminal_interactive_mode := true
      saved_attributes := m.attributes
      atexit := m.atexit + 1
      attributes := m.attributes.interactive }
  else none

/-- The atexit functions. -/
def atExit (m : InputMode) : InputMode :=
  resetInputInteractive^[m.atexit] m

theorem resetInputInteractive_of_off
    {m : InputMode} (hoff : m.terminal_interactive_mode = false) :
    m.resetInputInteractive = m := by
  rw [resetInputInteractive, if_pos hoff]

theorem resetInputInteractive_mode
    (m : InputMode) :
    m.resetInputInteractive.terminal_interactive_mode = false := by
  rw [resetInputInteractive]
  split
  next hoff => exact hoff
  next => rfl

/-- The functions after the first one find the mode off. -/
theorem iterate_resetInputInteractive
    (m : InputMode) (n : Nat) :
    resetInputInteractive^[n + 1] m = m.resetInputInteractive := by
  induction n with
  | zero =>
      rfl
  | succ n ih =>
      rw [Function.iterate_succ_apply', ih]
      exact resetInputInteractive_of_off (resetInputInteractive_mode m)

theorem atExit_eq
    {m : InputMode}
    (hregistered : m.terminal_interactive_mode = true → 0 < m.atexit) :
    m.atExit = m.resetInputInteractive := by
  rw [atExit]
  cases hn : m.atexit with
  | zero =>
      have hoff : m.terminal_interactive_mode = false := by
        by_contra hon
        have hpos := hregistered (by simpa using hon)
        omega
      rw [resetInputInteractive_of_off hoff]
      rfl
  | succ n =>
      exact iterate_resetInputInteractive m n

/-- The mode is on afterwards; a terminal that was in it stays as it was. -/
theorem setInputInteractive_some
    {m m' : InputMode} (hset : m.setInputInteractive = some m') :
    m'.terminal_interactive_mode = true ∧
      (m.terminal_interactive_mode = true → m' = m) ∧
      (m.terminal_interactive_mode = false →
        m'.saved_attributes = m.attributes ∧
          m'.attributes = m.attributes.interactive ∧ 0 < m'.atexit) := by
  rw [setInputInteractive] at hset
  split_ifs at hset with hon
  · cases hset
    exact ⟨hon, fun _ => rfl, by simp [hon]⟩
  · cases hset
    exact ⟨rfl, fun h => absurd h hon, fun _ =>
      ⟨rfl, rfl, Nat.succ_pos _⟩⟩

end InputMode

/-- `abort` of LOG_FATAL, or a null pointer that is followed. -/
inductive Death where
  | aborted
  | crashed
deriving DecidableEq, Repr

inductive ProcessOutcome where
  | alive
  | exited
  | died (death : Death)
deriving DecidableEq, Repr

/-- `interactiveIOHandler_` with its `loop_`, an index of the loops. -/
structure InteractiveHandler (κ : Type) where
  handler : IOHandler κ
  loop_ : Option Nat
deriving DecidableEq

structure KeyboardLoop where
  state_ : LoopState
  quit_ : Bool
deriving DecidableEq, Repr

structure KeyboardProcess (κ : Type) where
  input : InputMode
  loops : List KeyboardLoop
  t_loopInThisThread : Option Nat
  interactiveIOHandler_ : Option (InteractiveHandler κ)
  delivered : List (κ × Char)
  outcome : ProcessOutcome
deriving DecidableEq

/-- What the thread does next: `leave` is the end of the running loop, `key` a
key that it reads from stdin, and `readFails` an end of file there.
`tcsetattr` is anybody else who sets the attributes. -/
inductive KeyboardEvent (κ : Type) where
  | create
  | handleKeyboard (i : Nat) (cb : Option κ)
  | loop (i : Nat)
  | endLoop (i : Nat)
  | leave
  | key (c : Char)
  | readFails
  | tcsetattr (t : Termios)
  | exit

namespace InteractiveHandler

variable {κ : Type}

/-- HCHECK(loop_). -/
def setReadCallback (h : InteractiveHandler κ) (cb : Option κ) :
    Except Death (InteractiveHandler κ) :=
  match h.loop_ with
  | none => .error .aborted
  | some _ => .ok { h with handler := (h.handler.setReadCallback cb).1 }

/-- `update` goes through `loop_` without a test. -/
def enable (h : InteractiveHandler κ) :
    Except Death (InteractiveHandler κ) :=
  match h.loop_ with
  | none => .error .crashed
  | some _ => .ok { h with handler := h.handler.enable.1 }

def disable (loops : List KeyboardLoop) (h : InteractiveHandler κ) :
    Except Death (InteractiveHandler κ) :=
  match h.loop_ with
  | none => .error .crashed
  | some i =>
      let quit := (loops[i]?.map KeyboardLoop.quit_).getD false
      .ok { h with handler := (h.handler.disable quit).1 }

theorem setReadCallback_ok
    {h h' : InteractiveHandler κ} {cb : Option κ}
    (hok : h.setReadCallback cb = .ok h') :
    ∃ i, h.loop_ = some i ∧ h'.loop_ = some i := by
  rw [setReadCallback] at hok
  cases howned : h.loop_ with
  | none =>
      simp [howned] at hok
  | some i =>
      simp only [howned, Except.ok.injEq] at hok
      exact ⟨i, rfl, by rw [← hok]⟩

theorem enable_ok
    {h h' : InteractiveHandler κ} (hok : h.enable = .ok h') :
    h'.loop_ = h.loop_ ∧ h'.handler.status_ = .Enabled := by
  rw [enable] at hok
  cases howned : h.loop_ with
  | none =>
      simp [howned] at hok
  | some i =>
      simp only [howned, Except.ok.injEq] at hok
      subst hok
      exact ⟨rfl, by rw [IOHandler.enable_fst]⟩

theorem disable_ok
    {loops : List KeyboardLoop} {h h' : InteractiveHandler κ}
    (hok : h.disable loops = .ok h') :
    ∃ i, h.loop_ = some i ∧ h'.loop_ = some i ∧
      h'.handler.status_ = .Disabled := by
  rw [disable] at hok
  cases howned : h.loop_ with
  | none =>
      simp [howned] at hok
  | some i =>
      simp only [howned, Except.ok.injEq] at hok
      subst hok
      exact ⟨i, rfl, rfl, by rw [IOHandler.disable_fst]⟩

end InteractiveHandler

namespace KeyboardProcess

variable {κ : Type}

def start (isatty : Bool) (attributes : Termios) : KeyboardProcess κ where
  input :=
    { isatty := isatty
      attributes := attributes
      saved_attributes := attributes
      terminal_interactive_mode := false
      atexit := 0 }
  loops := []
  t_loopInThisThread := none
  interactiveIOHandler_ := none
  delivered := []
  outcome := .alive

/-- The interactive mode on, or the HCHECK in it. -/
def interactive (s : KeyboardProcess κ) :
    Except Death (KeyboardProcess κ) :=
  match s.input.setInputInteractive with
  | none => .error .aborted
  | some input => .ok { s with input := input }

/-- The function that handleKeyboard runs in its loop. -/
def handleKeyboardInLoop (i : Nat) (s : KeyboardProcess κ) :
    Option κ → Except Death (KeyboardProcess κ)
  | none =>
      match s.interactiveIOHandler_ with
      | none => .ok s
      | some h => do
          let h ← h.setReadCallback none
          let h ← h.disable s.loops
          .ok { s with
            interactiveIOHandler_ := some h
            input := s.input.resetInputInteractive }
  | some cb =>
      match s.interactiveIOHandler_ with
      | some h => do
          let h ← h.setReadCallback (some cb)
          let h ← h.enable
          { s with interactiveIOHandler_ := some h }.interactive
      | none => do
          let s ← s.interactive
          let h ←
            (⟨.create 0, some i⟩ : InteractiveHandler κ).setReadCallback
              (some cb)
          let h ← h.enable
          .ok { s with interactiveIOHandler_ := some h }

def handleKeyboard (i : Nat) (cb : Option κ) (s : KeyboardProcess κ)
    (l : KeyboardLoop) : Except Death (KeyboardProcess κ) :=
  if l.state_ = .End then .ok s else s.handleKeyboardInLoop i cb

/-- What follows the while loop of loop(), as far as the keyboard goes. -/
def cleanUp (i : Nat) (s : KeyboardProcess κ) (l : KeyboardLoop) :
    Except Death (KeyboardProcess κ) :=
  let ended :=
    { s with
      loops := s.loops.set i { l with state_ := .End }
      t_loopInThisThread := none }
  match s.interactiveIOHandler_ with
  | none => .ok ended
  | some h => do
      let h ← h.disable ended.loops
      .ok { ended with interactiveIOHandler_ := some { h with loop_ := none } }

def loop (i : Nat) (s : KeyboardProcess κ) (l : KeyboardLoop) :
    Except Death (KeyboardProcess κ) :=
  if l.state_ = .End then .ok s
  else if s.t_loopInThisThread.isSome then .error .aborted
  else if l.quit_ then s.cleanUp i l
  else
    .ok { s with
      loops := s.loops.set i { l with state_ := .Polling }
      t_loopInThisThread := some i }

def endLoop (i : Nat) (s : KeyboardProcess κ) (l : KeyboardLoop) :
    Except Death (KeyboardProcess κ) :=
  let l' := { l with quit_ := true }
  let s' := { s with loops := s.loops.set i l' }
  if l.state_ = .Ready then s'.loop i l' else .ok s'

/-- The callback that the running loop calls when stdin is readable. -/
def reader (s : KeyboardProcess κ) : Option κ := do
  let h ← s.interactiveIOHandler_
  let i ← s.t_loopInThisThread
  if h.loop_ = some i ∧ h.handler.isEnabled then h.handler.readCallback_
  else none

/-- none: the event does not occur in this state. -/
def perform (s : KeyboardProcess κ) :
    KeyboardEvent κ → Option (Except Death (KeyboardProcess κ))
  | .create =>
      some (.ok { s with loops := s.loops ++ [⟨.Ready, false⟩] })
  | .handleKeyboard i cb => s.loops[i]?.map (s.handleKeyboard i cb)
  | .loop i => s.loops[i]?.map (s.loop i)
  | .endLoop i => s.loops[i]?.map (s.endLoop i)
  | .leave => do
      let i ← s.t_loopInThisThread
      let l ← s.loops[i]?
      if l.quit_ then some (s.cleanUp i l) else none
  | .key c =>
      s.reader.map fun cb =>
        .ok { s with delivered := s.delivered ++ [(cb, c)] }
  | .readFails => s.reader.map fun _ => .error .aborted
  | .tcsetattr t =>
      some (.ok { s with input := { s.input with attributes := t } })
  | .exit =>
      some (.ok { s with input := s.input.atExit, outcome := .exited })

/-- The process after what was called returned, or did not. -/
def settle (s : KeyboardProcess κ) :
    Except Death (KeyboardProcess κ) → KeyboardProcess κ
  | .ok s' => s'
  | .error death => { s with outcome := .died death }

def step (s : KeyboardProcess κ) (e : KeyboardEvent κ) :
    Option (KeyboardProcess κ) :=
  if s.outcome = .alive then (s.perform e).map s.settle else none

def ended (s : KeyboardProcess κ) : Nat :=
  s.loops.countP fun l => l.state_ = .End

/-- What a call that returns can have done.  `loopEnd` is the end of one. -/
inductive Effect (s s' : KeyboardProcess κ) : Prop where
  | quiet
      (hinput : s'.input = s.input)
      (hhandler : s'.interactiveIOHandler_ = s.interactiveIOHandler_)
      (hdelivered : s'.delivered = s.delivered)
      (hended : s.interactiveIOHandler_.isSome = true → s'.ended = s.ended)
  | on
      (h' : InteractiveHandler κ) (i : Nat)
      (hinput : s.input.setInputInteractive = some s'.input)
      (hhandler : s'.interactiveIOHandler_ = some h')
      (howned : h'.loop_ = some i)
      (hsame : ∀ h, s.interactiveIOHandler_ = some h → h.loop_ = some i)
      (hdelivered : s'.delivered = s.delivered)
      (hended : s'.ended = s.ended)
  | off
      (h h' : InteractiveHandler κ) (i : Nat)
      (hinput : s'.input = s.input.resetInputInteractive)
      (hbefore : s.interactiveIOHandler_ = some h)
      (hhandler : s'.interactiveIOHandler_ = some h')
      (howned : h.loop_ = some i)
      (hsame : h'.loop_ = some i)
      (hstatus : h'.handler.status_ = .Disabled)
      (hdelivered : s'.delivered = s.delivered)
      (hended : s'.ended = s.ended)
  | loopEnd
      (h h' : InteractiveHandler κ) (i : Nat)
      (hinput : s'.input = s.input)
      (hbefore : s.interactiveIOHandler_ = some h)
      (hhandler : s'.interactiveIOHandler_ = some h')
      (howned : h.loop_ = some i)
      (hfreed : h'.loop_ = none)
      (hstatus : h'.handler.status_ = .Disabled)
      (hdelivered : s'.delivered = s.delivered)
      (hended : s'.ended ≤ s.ended + 1)

theorem countP_set_le
    {α : Type} (p : α → Bool) {l : List α} {i : Nat} {a b : α}
    (ha : l[i]? = some a) :
    (l.set i b).countP p ≤ l.countP p + 1 ∧
      (p b = p a → (l.set i b).countP p = l.countP p) := by
  obtain ⟨hi, rfl⟩ := List.getElem?_eq_some_iff.mp ha
  have hpos : p l[i] = true → 0 < l.countP p := fun h =>
    List.countP_pos_iff.mpr ⟨_, List.getElem_mem hi, h⟩
  rw [List.countP_set hi]
  cases hold : p l[i] with
  | false =>
      cases hnew : p b <;> simp
  | true =>
      have hsome := hpos hold
      cases hnew : p b with
      | false =>
          refine ⟨?_, fun h => absurd h (by decide)⟩
          simp only [Bool.false_eq_true, if_true, if_false]
          omega
      | true =>
          simp only [if_true]
          omega

theorem interactive_ok
    {s s' : KeyboardProcess κ} (hok : s.interactive = .ok s') :
    ∃ input, s.input.setInputInteractive = some input ∧
      s' = { s with input := input } := by
  rw [interactive] at hok
  split at hok
  next hnone => cases hok
  next input hinput => exact ⟨input, hinput, (Except.ok.inj hok).symm⟩

theorem bind_ok
    {ε α β : Type} {x : Except ε α} {f : α → Except ε β} {b : β}
    (h : x >>= f = .ok b) :
    ∃ a, x = .ok a ∧ f a = .ok b := by
  cases x with
  | error e => cases h
  | ok a => exact ⟨a, rfl, h⟩

theorem handleKeyboardInLoop_ok
    {i : Nat} {cb : Option κ} {s s' : KeyboardProcess κ}
    (hok : s.handleKeyboardInLoop i cb = .ok s') :
    s'.outcome = s.outcome ∧ Effect s s' := by
  cases cb with
  | none =>
      cases hbefore : s.interactiveIOHandler_ with
      | none =>
          simp only [handleKeyboardInLoop, hbefore, Except.ok.injEq] at hok
          subst hok
          exact ⟨rfl, .quiet rfl rfl rfl fun _ => rfl⟩
      | some h =>
          simp only [handleKeyboardInLoop, hbefore] at hok
          obtain ⟨h₁, hset, hok⟩ := bind_ok hok
          obtain ⟨h₂, hdisable, hok⟩ := bind_ok hok
          obtain ⟨j, howned, hset⟩ := InteractiveHandler.setReadCallback_ok hset
          obtain ⟨j', hj, hj', hstatus⟩ := InteractiveHandler.disable_ok hdisable
          obtain rfl : j = j' := Option.some.inj (hset.symm.trans hj)
          cases hok
          exact ⟨rfl, .off h h₂ j rfl hbefore rfl howned hj' hstatus rfl rfl⟩
  | some cb =>
      cases hbefore : s.interactiveIOHandler_ with
      | none =>
          simp only [handleKeyboardInLoop, hbefore] at hok
          obtain ⟨s₁, hmode, hok⟩ := bind_ok hok
          obtain ⟨h₁, hset, hok⟩ := bind_ok hok
          obtain ⟨h₂, henable, hok⟩ := bind_ok hok
          obtain ⟨input, hinput, rfl⟩ := interactive_ok hmode
          obtain ⟨j, -, hset⟩ := InteractiveHandler.setReadCallback_ok hset
          obtain ⟨hkept, -⟩ := InteractiveHandler.enable_ok henable
          cases hok
          exact ⟨rfl, .on h₂ j hinput rfl (hkept.trans hset)
            (by simp [hbefore]) rfl rfl⟩
      | some h =>
          simp only [handleKeyboardInLoop, hbefore] at hok
          obtain ⟨h₁, hset, hok⟩ := bind_ok hok
          obtain ⟨h₂, henable, hok⟩ := bind_ok hok
          obtain ⟨input, hinput, rfl⟩ := interactive_ok hok
          obtain ⟨j, howned, hset⟩ := InteractiveHandler.setReadCallback_ok hset
          obtain ⟨hkept, -⟩ := InteractiveHandler.enable_ok henable
          refine ⟨rfl, .on h₂ j hinput rfl (hkept.trans hset) ?_ rfl rfl⟩
          intro h' hh'
          rw [← Option.some.inj (hbefore.symm.trans hh'), howned]

/-- Loops that are set before the call do not show in its effect. -/
theorem Effect.after_set
    {s s' : KeyboardProcess κ} {loops : List KeyboardLoop}
    (hended : { s with loops := loops }.ended = s.ended)
    (heffect : Effect { s with loops := loops } s') :
    Effect s s' := by
  cases heffect with
  | quiet hinput hhandler hdelivered hsame =>
      exact .quiet hinput hhandler hdelivered
        fun h => (hsame h).trans hended
  | on h' i hinput hhandler howned hsame hdelivered hsame' =>
      exact .on h' i hinput hhandler howned hsame hdelivered
        (hsame'.trans hended)
  | off h h' i hinput hbefore hhandler howned hsame hstatus hdelivered
      hsame' =>
      exact .off h h' i hinput hbefore hhandler howned hsame hstatus
        hdelivered (hsame'.trans hended)
  | loopEnd h h' i hinput hbefore hhandler howned hfreed hstatus hdelivered
      hle =>
      exact .loopEnd h h' i hinput hbefore hhandler howned hfreed hstatus
        hdelivered (hended ▸ hle)

theorem cleanUp_ok
    {i : Nat} {l : KeyboardLoop} {s s' : KeyboardProcess κ}
    (hl : s.loops[i]? = some l) (hok : s.cleanUp i l = .ok s') :
    s'.outcome = s.outcome ∧ Effect s s' := by
  cases hbefore : s.interactiveIOHandler_ with
  | none =>
      simp only [cleanUp, hbefore, Except.ok.injEq] at hok
      subst hok
      exact ⟨rfl, .quiet rfl hbefore.symm rfl (by simp [hbefore])⟩
  | some h =>
      simp only [cleanUp, hbefore] at hok
      obtain ⟨h₁, hdisable, hok⟩ := bind_ok hok
      obtain ⟨j, howned, -, hstatus⟩ := InteractiveHandler.disable_ok hdisable
      cases hok
      exact ⟨rfl, .loopEnd h { h₁ with loop_ := none } j rfl hbefore rfl howned
        rfl hstatus rfl (countP_set_le _ hl).1⟩

theorem loop_ok
    {i : Nat} {l : KeyboardLoop} {s s' : KeyboardProcess κ}
    (hl : s.loops[i]? = some l) (hok : s.loop i l = .ok s') :
    s'.outcome = s.outcome ∧ Effect s s' := by
  rw [loop] at hok
  split_ifs at hok with hend hother hquit
  · cases hok
    exact ⟨rfl, .quiet rfl rfl rfl fun _ => rfl⟩
  · exact cleanUp_ok hl hok
  · cases hok
    refine ⟨rfl, .quiet rfl rfl rfl fun _ => ?_⟩
    exact (countP_set_le _ hl).2 (by simp [hend])

theorem endLoop_ok
    {i : Nat} {l : KeyboardLoop} {s s' : KeyboardProcess κ}
    (hl : s.loops[i]? = some l) (hok : s.endLoop i l = .ok s') :
    s'.outcome = s.outcome ∧ Effect s s' := by
  have hended :
      { s with loops := s.loops.set i { l with quit_ := true } }.ended =
        s.ended :=
    (countP_set_le _ hl).2 rfl
  simp only [endLoop] at hok
  split_ifs at hok
  · obtain ⟨hi, -⟩ := List.getElem?_eq_some_iff.mp hl
    obtain ⟨houtcome, heffect⟩ :=
      loop_ok (List.getElem?_set_self hi) hok
    exact ⟨houtcome, heffect.after_set hended⟩
  · cases hok
    exact ⟨rfl, .quiet rfl rfl rfl fun _ => hended⟩

theorem reader_eq_some
    {s : KeyboardProcess κ} {cb : κ} (hreader : s.reader = some cb) :
    ∃ h i, s.interactiveIOHandler_ = some h ∧ h.loop_ = some i ∧
      h.handler.status_ = .Enabled := by
  simp only [reader, Option.bind_eq_bind, Option.bind_eq_some_iff] at hreader
  obtain ⟨h, hh, i, -, hreads⟩ := hreader
  split_ifs at hreads with howned
  exact ⟨h, i, hh, howned.1, by simpa [IOHandler.isEnabled] using howned.2⟩

/-- The inversion of a step. -/
inductive Turn (s : KeyboardProcess κ) :
    KeyboardEvent κ → KeyboardProcess κ → Prop where
  | call
      {e : KeyboardEvent κ} {s' : KeyboardProcess κ}
      (houtcome : s'.outcome = .alive) (heffect : Effect s s') :
      Turn s e s'
  | dies
      {e : KeyboardEvent κ} (death : Death) :
      Turn s e { s with outcome := .died death }
  | key
      (cb : κ) (c : Char) (hreader : s.reader = some cb) :
      Turn s (.key c) { s with delivered := s.delivered ++ [(cb, c)] }
  | tcsetattr
      (t : Termios) :
      Turn s (.tcsetattr t) { s with input := { s.input with attributes := t } }
  | exit :
      Turn s .exit { s with input := s.input.atExit, outcome := .exited }

theorem turn_settle
    {s : KeyboardProcess κ} (halive : s.outcome = .alive)
    {r : Except Death (KeyboardProcess κ)}
    (hok : ∀ s', r = .ok s' → s'.outcome = s.outcome ∧ Effect s s')
    (e : KeyboardEvent κ) :
    Turn s e (s.settle r) := by
  cases r with
  | error death =>
      exact .dies death
  | ok s' =>
      obtain ⟨houtcome, heffect⟩ := hok s' rfl
      exact .call (houtcome.trans halive) heffect

theorem step_turn
    {s s' : KeyboardProcess κ} {e : KeyboardEvent κ}
    (hstep : s.step e = some s') :
    s.outcome = .alive ∧ Turn s e s' := by
  rw [step] at hstep
  split_ifs at hstep with halive
  refine ⟨halive, ?_⟩
  obtain ⟨r, hperform, rfl⟩ := Option.map_eq_some_iff.mp hstep
  cases e with
  | create =>
      cases hperform
      refine .call halive (.quiet rfl rfl rfl fun _ => ?_)
      simp only [settle, ended, List.countP_append]
      rfl
  | handleKeyboard i cb =>
      obtain ⟨l, -, rfl⟩ := Option.map_eq_some_iff.mp hperform
      refine turn_settle halive (fun s' hok => ?_) _
      rw [handleKeyboard] at hok
      split_ifs at hok
      · cases hok
        exact ⟨rfl, .quiet rfl rfl rfl fun _ => rfl⟩
      · exact handleKeyboardInLoop_ok hok
  | loop i =>
      obtain ⟨l, hl, rfl⟩ := Option.map_eq_some_iff.mp hperform
      exact turn_settle halive (fun _ => loop_ok hl) _
  | endLoop i =>
      obtain ⟨l, hl, rfl⟩ := Option.map_eq_some_iff.mp hperform
      exact turn_settle halive (fun _ => endLoop_ok hl) _
  | leave =>
      simp only [perform, Option.bind_eq_bind,
        Option.bind_eq_some_iff] at hperform
      obtain ⟨i, -, l, hl, hleaves⟩ := hperform
      split_ifs at hleaves
      cases hleaves
      exact turn_settle halive (fun _ => cleanUp_ok hl) _
  | key c =>
      obtain ⟨cb, hreader, rfl⟩ := Option.map_eq_some_iff.mp hperform
      exact .key cb c hreader
  | readFails =>
      obtain ⟨cb, -, rfl⟩ := Option.map_eq_some_iff.mp hperform
      exact .dies .aborted
  | tcsetattr t =>
      cases hperform
      exact .tcsetattr t
  | exit =>
      cases hperform
      exact .exit

theorem step_key
    {s s' : KeyboardProcess κ} {c : Char}
    (hstep : s.step (.key c) = some s') :
    s.outcome = .alive ∧ ∃ h i, s.interactiveIOHandler_ = some h ∧
      h.loop_ = some i ∧ h.handler.status_ = .Enabled := by
  refine ⟨(step_turn hstep).1, ?_⟩
  rw [step] at hstep
  split_ifs at hstep
  obtain ⟨r, hperform, -⟩ := Option.map_eq_some_iff.mp hstep
  obtain ⟨cb, hreader, -⟩ := Option.map_eq_some_iff.mp hperform
  exact reader_eq_some hreader

/-- While the mode is on, the attributes `t` from before are saved and the
reset is registered. -/
structure Restores (t : Termios) (s : KeyboardProcess κ) : Prop where
  off : s.input.terminal_interactive_mode = false → s.input.attributes = t
  on :
    s.input.terminal_interactive_mode = true →
      s.input.attributes = t.interactive ∧ s.input.saved_attributes = t

/-- What holds in every reachable state, whoever sets attributes. -/
structure Sound (s : KeyboardProcess κ) : Prop where
  registered :
    s.input.terminal_interactive_mode = true → 0 < s.input.atexit
  enabled :
    s.outcome = .alive → ∀ h, s.interactiveIOHandler_ = some h →
      h.handler.status_ = .Enabled →
        s.input.terminal_interactive_mode = true
  exited :
    s.outcome = .exited → s.input.terminal_interactive_mode = false

theorem Restores.set
    {t : Termios} {s : KeyboardProcess κ} {m : InputMode}
    (hs : s.Restores t) (hset : s.input.setInputInteractive = some m) :
    m.attributes = t.interactive ∧ m.saved_attributes = t := by
  obtain ⟨-, hkept, hmade⟩ := InputMode.setInputInteractive_some hset
  cases hmode : s.input.terminal_interactive_mode with
  | true =>
      rw [hkept hmode]
      exact hs.on hmode
  | false =>
      obtain ⟨hsaved, hattributes, -⟩ := hmade hmode
      rw [hsaved, hattributes, hs.off hmode]
      exact ⟨rfl, rfl⟩

theorem Restores.reset
    {t : Termios} {s : KeyboardProcess κ} (hs : s.Restores t) :
    s.input.resetInputInteractive.attributes = t := by
  rw [InputMode.resetInputInteractive]
  split
  next hoff => exact hs.off hoff
  next hon => exact (hs.on (by simpa using hon)).2

theorem Restores.step
    {t : Termios} {s s' : KeyboardProcess κ} {e : KeyboardEvent κ}
    (hs : s.Restores t) (hsound : s.Sound)
    (hquiet : ∀ attributes, e ≠ .tcsetattr attributes)
    (hstep : s.step e = some s') :
    s'.Restores t := by
  obtain ⟨-, hturn⟩ := step_turn hstep
  cases hturn with
  | call houtcome heffect =>
      cases heffect with
      | quiet hinput =>
          exact ⟨hinput ▸ hs.off, hinput ▸ hs.on⟩
      | on h' i hinput =>
          obtain ⟨hon, -, -⟩ := InputMode.setInputInteractive_some hinput
          exact ⟨fun hoff => by simp [hon] at hoff,
            fun _ => hs.set hinput⟩
      | off h h' i hinput =>
          have hoff := InputMode.resetInputInteractive_mode s.input
          refine ⟨fun _ => ?_, fun hon => ?_⟩
          · rw [hinput]
            exact hs.reset
          · rw [hinput, hoff] at hon
            cases hon
      | loopEnd h h' i hinput =>
          exact ⟨hinput ▸ hs.off, hinput ▸ hs.on⟩
  | dies death =>
      exact ⟨hs.off, hs.on⟩
  | key cb c hreader =>
      exact ⟨hs.off, hs.on⟩
  | tcsetattr attributes =>
      exact absurd rfl (hquiet attributes)
  | exit =>
      have hatExit := InputMode.atExit_eq hsound.registered
      refine ⟨fun _ => ?_, fun hon => ?_⟩
      · show s.input.atExit.attributes = t
        rw [hatExit]
        exact hs.reset
      · replace hon : s.input.atExit.terminal_interactive_mode = true := hon
        rw [hatExit, InputMode.resetInputInteractive_mode] at hon
        cases hon

theorem Sound.step
    {s s' : KeyboardProcess κ} {e : KeyboardEvent κ}
    (hs : s.Sound) (hstep : s.step e = some s') :
    s'.Sound := by
  obtain ⟨halive, hturn⟩ := step_turn hstep
  cases hturn with
  | call houtcome heffect =>
      have hexited : s'.outcome ≠ .exited := by simp [houtcome]
      cases heffect with
      | quiet hinput hhandler =>
          refine ⟨hinput ▸ hs.registered, fun _ h hh hon => ?_,
            fun h => absurd h hexited⟩
          rw [hinput]
          exact hs.enabled halive h (hhandler ▸ hh) hon
      | on h' i hinput =>
          obtain ⟨hon, hkept, hmade⟩ :=
            InputMode.setInputInteractive_some hinput
          refine ⟨fun _ => ?_, fun _ _ _ _ => hon,
            fun h => absurd h hexited⟩
          cases hmode : s.input.terminal_interactive_mode with
          | true =>
              rw [hkept hmode]
              exact hs.registered hmode
          | false =>
              exact (hmade hmode).2.2
      | off h h' i hinput hbefore hhandler howned hsame hstatus =>
          refine ⟨fun hon => ?_, fun _ h₁ hh hon => ?_,
            fun h => absurd h hexited⟩
          · rw [hinput, InputMode.resetInputInteractive_mode] at hon
            cases hon
          · obtain rfl := Option.some.inj (hhandler.symm.trans hh)
            rw [hstatus] at hon
            cases hon
      | loopEnd h h' i hinput hbefore hhandler howned hfreed hstatus =>
          refine ⟨hinput ▸ hs.registered, fun _ h₁ hh hon => ?_,
            fun h => absurd h hexited⟩
          obtain rfl := Option.some.inj (hhandler.symm.trans hh)
          rw [hstatus] at hon
          cases hon
  | dies death =>
      exact ⟨hs.registered, nofun, nofun⟩
  | key cb c hreader =>
      exact ⟨hs.registered, hs.enabled, hs.exited⟩
  | tcsetattr attributes =>
      exact ⟨hs.registered, hs.enabled, hs.exited⟩
  | exit =>
      have hatExit := InputMode.atExit_eq hs.registered
      have hoff : s.input.atExit.terminal_interactive_mode = false := by
        rw [hatExit]
        exact InputMode.resetInputInteractive_mode s.input
      refine ⟨fun hon => ?_, nofun, fun _ => hoff⟩
      replace hon : s.input.atExit.terminal_interactive_mode = true := hon
      rw [hoff] at hon
      cases hon

theorem start_sound
    (isatty : Bool) (attributes : Termios) :
    (start isatty attributes : KeyboardProcess κ).Sound := by
  refine ⟨fun hon => ?_, fun _ h hh => ?_, fun _ => rfl⟩
  · cases hon
  · cases hh

theorem sound_of_run
    {isatty : Bool} {attributes : Termios} {s : KeyboardProcess κ}
    {events : List (KeyboardEvent κ)}
    (hrun : run step (start isatty attributes) events = some s) :
    s.Sound :=
  invariant_of_run (I := Sound) (P := fun _ => True)
    (fun _ _ _ hs _ hstep => Sound.step hs hstep)
    (start_sound isatty attributes) (fun _ _ => trivial) hrun

/-- From a state with the mode off, the terminal keeps its attributes while
the mode is off and has the interactive ones made from them while it is on,
and `exit` gives them back.  A process that dies leaves them as they are.
Keys reach a callback only while the mode is on. -/
theorem terminal_restored
    {isatty : Bool} {attributes : Termios}
    {before events : List (KeyboardEvent κ)} {s t : KeyboardProcess κ}
    (hreach : run step (start isatty attributes) before = some s)
    (hoff : s.input.terminal_interactive_mode = false)
    (hquiet : ∀ e ∈ events, ∀ other, e ≠ .tcsetattr other)
    (hrun : run step s events = some t) :
    t.input.attributes =
      (if t.input.terminal_interactive_mode then
        s.input.attributes.interactive
      else s.input.attributes) ∧
    (t.outcome = .exited → t.input.attributes = s.input.attributes) ∧
    (∀ c u, t.step (.key c) = some u →
      t.input.terminal_interactive_mode = true) := by
  have hinitial : s.Restores s.input.attributes :=
    ⟨fun _ => rfl, fun hon => by simp [hoff] at hon⟩
  obtain ⟨hsound, hrestores⟩ :
      t.Sound ∧ t.Restores s.input.attributes :=
    invariant_of_run
      (I := fun t : KeyboardProcess κ =>
        t.Sound ∧ t.Restores s.input.attributes)
      (P := fun e => ∀ other, e ≠ .tcsetattr other)
      (fun _ _ _ h he hstep =>
        ⟨h.1.step hstep, h.2.step h.1 he hstep⟩)
      ⟨sound_of_run hreach, hinitial⟩ hquiet hrun
  refine ⟨?_, fun hexited => hrestores.off (hsound.exited hexited), ?_⟩
  · split
    next hon => exact (hrestores.on hon).1
    next hmode => exact hrestores.off (by simpa using hmode)
  · intro c u hkey
    obtain ⟨halive, h, i, hh, -, hon⟩ := step_key hkey
    exact hsound.enabled halive h hh hon

/-- The attributes of a login terminal. -/
def sampleAttributes : Termios where
  c_iflag := 17664
  c_oflag := 5
  c_cflag := 191
  c_lflag := 35387
  c_line := 0
  c_cc := fun i => if i = Termios.VMIN then 1 else 0

def sampleKeys : List (KeyboardEvent Nat) :=
  [.create, .handleKeyboard 0 (some 7), .loop 0, .key 'x', .endLoop 0]

theorem terminal_restored_exit :
    ∃ t, run step (start true sampleAttributes) (sampleKeys ++ [.exit]) =
        some t ∧
      (t.input.attributes =
        (if t.input.terminal_interactive_mode then
          sampleAttributes.interactive
        else sampleAttributes) ∧
      (t.outcome = .exited → t.input.attributes = sampleAttributes) ∧
      (∀ c u, t.step (.key c) = some u →
        t.input.terminal_interactive_mode = true)) := by
  refine ⟨_, rfl, @terminal_restored Nat true sampleAttributes []
    (sampleKeys ++ [.exit]) _ _ rfl rfl ?_ rfl⟩
  rintro e he attributes rfl
  simp [sampleKeys] at he

/-- At most one loop has ended since there were `n` ended ones, and none as
long as the handler has its loop. -/
def Serves (n : Nat) (s : KeyboardProcess κ) : Prop :=
  ∃ h, s.interactiveIOHandler_ = some h ∧ s.ended ≤ n + 1 ∧
    (h.loop_ ≠ none → s.ended = n)

theorem Serves.step
    {n : Nat} {s s' : KeyboardProcess κ} {e : KeyboardEvent κ}
    (hs : s.Serves n) (hstep : s.step e = some s') :
    s'.Serves n := by
  obtain ⟨h, hh, hle, heq⟩ := hs
  obtain ⟨-, hturn⟩ := step_turn hstep
  cases hturn with
  | call houtcome heffect =>
      cases heffect with
      | quiet hinput hhandler hdelivered hended =>
          have hsame := hended (by rw [hh]; rfl)
          exact ⟨h, hhandler.trans hh, hsame ▸ hle, hsame ▸ heq⟩
      | on h' i hinput hhandler howned hsame hdelivered hended =>
          have hn := heq (by simp [hsame h hh])
          exact ⟨h', hhandler, hended ▸ hle, fun _ => hended.trans hn⟩
      | off h₁ h' i hinput hbefore hhandler howned hsame hstatus
          hdelivered hended =>
          obtain rfl := Option.some.inj (hbefore.symm.trans hh)
          have hn := heq (by simp [howned])
          exact ⟨h', hhandler, hended ▸ hle, fun _ => hended.trans hn⟩
      | loopEnd h₁ h' i hinput hbefore hhandler howned hfreed hstatus
          hdelivered hended =>
          obtain rfl := Option.some.inj (hbefore.symm.trans hh)
          have hn := heq (by simp [howned])
          exact ⟨h', hhandler, hn ▸ hended, fun h => absurd hfreed h⟩
  | dies death =>
      exact ⟨h, hh, hle, heq⟩
  | key cb c hreader =>
      exact ⟨h, hh, hle, heq⟩
  | tcsetattr attributes =>
      exact ⟨h, hh, hle, heq⟩
  | exit =>
      exact ⟨h, hh, hle, heq⟩

/-- The handler has lost its loop in a state like `s`. -/
structure Orphaned (s t : KeyboardProcess κ) : Prop where
  handler : ∃ h, t.interactiveIOHandler_ = some h ∧ h.loop_ = none
  ended : t.ended = s.ended
  delivered : t.delivered = s.delivered
  mode :
    t.outcome = .alive →
      t.input.terminal_interactive_mode = s.input.terminal_interactive_mode

theorem Orphaned.step
    {s t t' : KeyboardProcess κ} {e : KeyboardEvent κ}
    (ht : s.Orphaned t) (hstep : t.step e = some t') :
    s.Orphaned t' := by
  obtain ⟨⟨h, hh, hnone⟩, hended, hdelivered, hmode⟩ := ht
  obtain ⟨halive, hturn⟩ := step_turn hstep
  have hlost : ∀ i, h.loop_ ≠ some i := by simp [hnone]
  cases hturn with
  | call houtcome heffect =>
      cases heffect with
      | quiet hinput hhandler hkept hsame =>
          refine ⟨⟨h, hhandler.trans hh, hnone⟩, ?_, hkept.trans hdelivered,
            fun _ => ?_⟩
          · exact (hsame (by rw [hh]; rfl)).trans hended
          · rw [hinput]
            exact hmode halive
      | on h' i hinput hhandler howned hsame =>
          exact absurd (hsame h hh) (hlost i)
      | off h₁ h' i hinput hbefore hhandler howned =>
          obtain rfl := Option.some.inj (hbefore.symm.trans hh)
          exact absurd howned (hlost i)
      | loopEnd h₁ h' i hinput hbefore hhandler howned =>
          obtain rfl := Option.some.inj (hbefore.symm.trans hh)
          exact absurd howned (hlost i)
  | dies death =>
      exact ⟨⟨h, hh, hnone⟩, hended, hdelivered, nofun⟩
  | key cb c hreader =>
      obtain ⟨h₁, i, hbefore, howned, -⟩ := reader_eq_some hreader
      obtain rfl := Option.some.inj (hbefore.symm.trans hh)
      exact absurd howned (hlost i)
  | tcsetattr attributes =>
      exact ⟨⟨h, hh, hnone⟩, hended, hdelivered, hmode⟩
  | exit =>
      exact ⟨⟨h, hh, hnone⟩, hended, hdelivered, nofun⟩

theorem cleanUp_lost
    {s : KeyboardProcess κ} {h : InteractiveHandler κ}
    (hh : s.interactiveIOHandler_ = some h) (hnone : h.loop_ = none)
    (i : Nat) (l : KeyboardLoop) :
    s.cleanUp i l = .error .crashed := by
  simp only [cleanUp, hh, InteractiveHandler.disable, hnone]
  rfl

theorem handleKeyboardInLoop_lost
    {s : KeyboardProcess κ} {h : InteractiveHandler κ}
    (hh : s.interactiveIOHandler_ = some h) (hnone : h.loop_ = none)
    (i : Nat) (cb : Option κ) :
    s.handleKeyboardInLoop i cb = .error .aborted := by
  cases cb <;>
    simp only [handleKeyboardInLoop, hh, InteractiveHandler.setReadCallback,
      hnone] <;>
    rfl

/-- Once the keyboard has been handled, at most one more loop ends.  After
that no key reaches a callback, the interactive mode stays as it is until the
process exits, and the end of another loop crashes the process. -/
theorem one_more_loop_ends
    {s t : KeyboardProcess κ} {events : List (KeyboardEvent κ)}
    (hhandles : s.interactiveIOHandler_ ≠ none)
    (hrun : run step s events = some t) :
    t.ended ≤ s.ended + 1 ∧
    (s.ended < t.ended →
      (∀ more u, run step t more = some u →
        u.ended = t.ended ∧ u.delivered = t.delivered ∧
        (u.outcome = .alive →
          u.input.terminal_interactive_mode =
            t.input.terminal_interactive_mode)) ∧
      (∀ u, t.step .leave = some u → u.outcome = .died .crashed) ∧
      (∀ i l, t.loops[i]? = some l → l.state_ ≠ .End → t.outcome = .alive →
        ∀ cb, ∃ u, t.step (.handleKeyboard i cb) = some u ∧
          u.outcome = .died .aborted)) := by
  obtain ⟨h₀, hh₀⟩ := Option.ne_none_iff_exists'.mp hhandles
  obtain ⟨h, hh, hle, heq⟩ : t.Serves s.ended :=
    invariant_of_run (I := Serves s.ended) (P := fun _ => True)
      (fun _ _ _ hs _ hstep => hs.step hstep)
      ⟨h₀, hh₀, Nat.le_succ _, fun _ => rfl⟩ (fun _ _ => trivial) hrun
  refine ⟨hle, fun hlt => ?_⟩
  have hnone : h.loop_ = none := by
    by_contra howned
    have hn := heq howned
    omega
  refine ⟨fun more u hmore => ?_, fun u hleave => ?_, ?_⟩
  · have hu : t.Orphaned u :=
      invariant_of_run (I := t.Orphaned) (P := fun _ => True)
        (fun _ _ _ ht _ hstep => ht.step hstep)
        ⟨⟨h, hh, hnone⟩, rfl, rfl, fun _ => rfl⟩ (fun _ _ => trivial) hmore
    exact ⟨hu.ended, hu.delivered, hu.mode⟩
  · rw [step] at hleave
    split_ifs at hleave
    obtain ⟨r, hperform, rfl⟩ := Option.map_eq_some_iff.mp hleave
    simp only [perform, Option.bind_eq_bind,
      Option.bind_eq_some_iff] at hperform
    obtain ⟨i, -, l, -, hleaves⟩ := hperform
    split_ifs at hleaves
    cases hleaves
    rw [cleanUp_lost hh hnone]
    rfl
  · intro i l hl hopen halive cb
    refine ⟨{ t with outcome := .died .aborted }, ?_, rfl⟩
    rw [step, if_pos halive, perform, hl, Option.map_some, handleKeyboard,
      if_neg hopen, handleKeyboardInLoop_lost hh hnone]
    rfl

/-- Two loops, and the keyboard handled by the first one. -/
def sampleProcess : KeyboardProcess Nat where
  input :=
    { isatty := true
      attributes := sampleAttributes.interactive
      saved_attributes := sampleAttributes
      terminal_interactive_mode := true
      atexit := 1 }
  loops := [⟨.Ready, false⟩, ⟨.Ready, false⟩]
  t_loopInThisThread := none
  interactiveIOHandler_ :=
    some ⟨((IOHandler.create 0).setReadCallback (some 7)).1.enable.1, some 0⟩
  delivered := []
  outcome := .alive

theorem one_more_loop_ends_crash :
    ∃ t, run step (start true sampleAttributes)
        [.create, .handleKeyboard 0 (some 7), .create] =
        some sampleProcess ∧
      run step sampleProcess [.endLoop 0, .loop 1, .endLoop 1] = some t ∧
      sampleProcess.ended < t.ended ∧
      (∀ u, t.step .leave = some u → u.outcome = .died .crashed) := by
  refine ⟨_, rfl, rfl, by decide, fun u hleave => ?_⟩
  have hends :=
    @one_more_loop_ends Nat sampleProcess _
      [.endLoop 0, .loop 1, .endLoop 1] (by simp [sampleProcess]) rfl
  exact (hends.2 (by decide)).2.1 u hleave

end KeyboardProcess

end Hohnor
