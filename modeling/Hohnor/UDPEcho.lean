import Hohnor.IntegerTypes
import Hohnor.Timestamp
import Hohnor.TransitionRuns
import Mathlib.Data.List.Nodup
import Mathlib.Data.List.TakeWhile
import Mathlib.Logic.Function.Basic

/-!
# The datagram echo service

example/UDPEcho/echo_server.cpp and echo_client.cpp over `sendTo` and
`recvFrom` of src/net/UDPSocket.cpp: one server, any number of clients, and
others who send to any of them.

A datagram that was sent arrives any number of times, at any time later, or
never, so that a send that fails is one that never arrives.  Nobody sends under
an address of the service that is not its own.

The client takes what comes from any address for an echo.  What comes from the
server's address is whole and its own.
-/

namespace Hohnor

open TransitionRuns

universe u

structure Datagram (α : Type u) where
  source : α
  destination : α
  payload : List Char
deriving DecidableEq

/-- `recvFrom` into `len` bytes: the first datagram of the socket, without
what does not fit. -/
def recvFrom {α : Type u} (len : Nat) :
    List (Datagram α) → Option ((List Char × α) × List (Datagram α))
  | [] => none
  | d :: queue => some ((d.payload.take len, d.source), queue)

/-- A line "Received echo from": the sender, the length, and the chars of the
buffer up to a terminator. -/
structure Echo (α : Type u) where
  fromAddr : α
  bytesReceived : Nat
  text : List Char
deriving DecidableEq

/-- A client with the datagrams that have arrived at its socket, the messages
it has sent, and the echoes it has printed. -/
structure UDPEchoClient (α : Type u) where
  running_ : Bool
  messageCount_ : Nat
  queue : List (Datagram α)
  said : List (List Char)
  printed : List (Echo α)
deriving DecidableEq

namespace UDPEchoClient

variable {α : Type u}

def start : UDPEchoClient α where
  running_ := true
  messageCount_ := 0
  queue := []
  said := []
  printed := []

def greeting : List Char :=
  "Hello from UDP client #".toList

/-- The text of message `count`. -/
def message (localtime_r : Int → Tm) (count : Nat) (now : Timestamp) :
    List Char :=
  greeting ++ Nat.toDigits 10 count ++ [' ', 'a', 't', ' '] ++
    now.toFormattedString localtime_r true .UTC ++ ['\n']

/-- The message that sendMessage sends.  A count that an int does not hold is
undefined. -/
def sendMessage (localtime_r : Int → Tm) (now : Timestamp)
    (c : UDPEchoClient α) : Option (List Char × UDPEchoClient α) :=
  let count := c.messageCount_ + 1
  if c.running_ ∧ count < 2 ^ 31 then
    let text := message localtime_r count now
    some (text, { c with messageCount_ := count, said := c.said ++ [text] })
  else none

/-- An empty datagram is no echo. -/
def handleServerResponse (c : UDPEchoClient α) :
    Option (UDPEchoClient α) :=
  if c.running_ then
    (recvFrom (4096 - 1) c.queue).map fun ((buffer, fromAddr), queue) =>
      if 0 < buffer.length then
        { c with
          queue := queue
          printed := c.printed ++
            [⟨fromAddr, buffer.length, buffer.takeWhile fun x => x ≠ nul⟩] }
      else { c with queue := queue }
  else none

end UDPEchoClient

/-- Whatever was ever sent, the server's socket, and the clients by their
addresses. -/
structure UDPEchoSystem (α : Type u) where
  sent : List (Datagram α)
  serverQueue : List (Datagram α)
  clients : α → Option (UDPEchoClient α)

/-- `clientStops` is a stop or the end by handleError. -/
inductive UDPEchoEvent (α : Type u) where
  | foreign (d : Datagram α)
  | deliver (d : Datagram α)
  | serverReads
  | clientSends (addr : α) (now : Timestamp)
  | clientReads (addr : α)
  | clientStops (addr : α)

namespace UDPEchoSystem

variable {α : Type u} [DecidableEq α]

def initial (addresses : α → Bool) : UDPEchoSystem α where
  sent := []
  serverQueue := []
  clients addr := if addresses addr then some .start else none

/-- A datagram comes to the socket that is bound to its destination. -/
def arrive (server : α) (s : UDPEchoSystem α) (d : Datagram α) :
    UDPEchoSystem α :=
  if d.destination = server then
    { s with serverQueue := s.serverQueue ++ [d] }
  else
    match s.clients d.destination with
    | none => s
    | some c =>
        { s with
          clients := Function.update s.clients d.destination
            (some { c with queue := c.queue ++ [d] }) }

/-- The server answers to the address that `recvFrom` gave. -/
def handleIncomingData (server : α) (s : UDPEchoSystem α) :
    Option (UDPEchoSystem α) :=
  (recvFrom (4096 - 1) s.serverQueue).map fun ((buffer, clientAddr), queue) =>
    if 0 < buffer.length then
      { s with
        serverQueue := queue
        sent := s.sent ++ [⟨server, clientAddr, buffer⟩] }
    else { s with serverQueue := queue }

def step (localtime_r : Int → Tm) (server : α) (s : UDPEchoSystem α) :
    UDPEchoEvent α → Option (UDPEchoSystem α)
  | .foreign d =>
      if d.source ≠ server ∧ s.clients d.source = none then
        some { s with sent := s.sent ++ [d] }
      else none
  | .deliver d => if d ∈ s.sent then some (s.arrive server d) else none
  | .serverReads => s.handleIncomingData server
  | .clientSends addr now =>
      (s.clients addr).bind fun c =>
        (c.sendMessage localtime_r now).map fun (text, c') =>
          { s with
            sent := s.sent ++ [⟨addr, server, text⟩]
            clients := Function.update s.clients addr (some c') }
  | .clientReads addr =>
      (s.clients addr).bind fun c =>
        c.handleServerResponse.map fun c' =>
          { s with clients := Function.update s.clients addr (some c') }
  | .clientStops addr =>
      (s.clients addr).map fun c =>
        { s with
          clients := Function.update s.clients addr
            (some { c with running_ := false }) }

end UDPEchoSystem

namespace UDPEchoClient

variable {α : Type u} {localtime_r : Int → Tm}

theorem nul_notMem_toDigits
    (n : Nat) :
    nul ∉ Nat.toDigits 10 n := by
  intro hmem
  have hdigit := (StringConverter.isNumeral_toDigits n).digits nul hmem
  exact absurd hdigit (by decide)

theorem nul_notMem_leftpad
    {w : Nat} {c : Char} {text : List Char}
    (hc : nul ≠ c) (htext : nul ∉ text) :
    nul ∉ text.leftpad w c := by
  rw [List.leftpad, List.mem_append, List.mem_replicate]
  tauto

theorem nul_notMem_zeroPadded
    (w : Nat) (value : Int) :
    nul ∉ zeroPadded w value := by
  have hpadded : ∀ k, nul ∉ (Nat.toDigits 10 value.natAbs).leftpad k '0' :=
    fun k => nul_notMem_leftpad (by decide) (nul_notMem_toDigits _)
  rw [zeroPadded]
  split_ifs
  · rw [List.mem_cons, not_or]
    exact ⟨by decide, hpadded _⟩
  · exact hpadded w

theorem nul_notMem_dateText
    (tm_time : Tm) :
    nul ∉ Timestamp.dateText tm_time := by
  have hblank : ∀ w value, nul ∉ blankPadded w value := by
    intro w value
    refine nul_notMem_leftpad (by decide) ?_
    rw [StringConverter.decimalText, List.mem_append, not_or]
    refine ⟨?_, nul_notMem_toDigits _⟩
    split_ifs <;> decide
  have hsep : nul ≠ '-' ∧ nul ≠ ' ' ∧ nul ≠ ':' := by decide
  simp only [Timestamp.dateText, List.mem_append, List.mem_cons,
    nul_notMem_zeroPadded, hblank, hsep, or_self, not_false_eq_true]

theorem toFormattedString_plain
    (now : Timestamp) :
    (now.toFormattedString localtime_r true .UTC).length ≤ 63 ∧
      nul ∉ now.toFormattedString localtime_r true .UTC := by
  simp only [Timestamp.toFormattedString, if_true, snprintf]
  refine ⟨by simp, fun hmem => ?_⟩
  have htext := List.mem_of_mem_take hmem
  rw [List.mem_append, List.mem_cons] at htext
  rcases htext with h | h | h
  · exact nul_notMem_dateText _ h
  · exact absurd h (by decide)
  · exact nul_notMem_zeroPadded _ _ h

theorem greeting_plain :
    greeting.length = 23 ∧ nul ∉ greeting := by
  decide

/-- A message fits into the buffers and has no terminator in it. -/
theorem message_plain
    {count : Nat} (hcount : count < 2 ^ 31) (now : Timestamp) :
    (message localtime_r count now).length ≤ 4095 ∧
      nul ∉ message localtime_r count now := by
  obtain ⟨hlength, hnul⟩ := @toFormattedString_plain localtime_r now
  obtain ⟨hgreeting, hnulGreeting⟩ := greeting_plain
  have hdigits : (Nat.toDigits 10 count).length ≤ 10 :=
    (Nat.length_toDigits_le_iff (by decide) (by decide)).mpr (by omega)
  have hnulDigits := nul_notMem_toDigits count
  have hat : nul ∉ [' ', 'a', 't', ' '] := by decide
  have hend : nul ∉ ['\n'] := by decide
  constructor
  · simp only [message, List.length_append, hgreeting, List.length_cons,
      List.length_nil]
    omega
  · simp only [message, List.mem_append, hnulGreeting, hnulDigits, hat, hnul,
      hend, or_self, not_false_eq_true]

/-- The number stands before the first blank after the sign. -/
theorem message_count_inj
    {count count' : Nat} {now now' : Timestamp}
    (h : message localtime_r count now = message localtime_r count' now') :
    count = count' := by
  have hblank : ∀ n : Nat, ' ' ∉ Nat.toDigits 10 n := by
    intro n hmem
    exact absurd ((StringConverter.isNumeral_toDigits n).digits ' ' hmem)
      (by decide)
  have hread : ∀ (n : Nat) (rest : List Char),
      (Nat.toDigits 10 n ++ ' ' :: rest).takeWhile (fun c => c ≠ ' ') =
        Nat.toDigits 10 n := by
    intro n rest
    rw [List.takeWhile_append_of_pos, List.takeWhile_cons_of_neg (by simp),
      List.append_nil]
    intro c hc
    have hne : c ≠ ' ' := fun heq => hblank n (heq ▸ hc)
    simpa using hne
  simp only [message, List.append_assoc, List.append_cancel_left_eq] at h
  have hdigits := congrArg (List.takeWhile fun c => c ≠ ' ') h
  simp only [List.cons_append] at hdigits
  rw [hread, hread] at hdigits
  have hvalue := (StringConverter.isNumeral_toDigits count).value
  rw [hdigits, (StringConverter.isNumeral_toDigits count').value] at hvalue
  exact hvalue.symm

/-- The messages are numbered, and an echo of the server is one of them. -/
structure Sound (localtime_r : Int → Tm) (server : α) (c : UDPEchoClient α) :
    Prop where
  count : c.said.length = c.messageCount_ ∧ c.messageCount_ < 2 ^ 31
  said : ∀ text ∈ c.said,
    ∃ k now, k ≤ c.messageCount_ ∧ text = message localtime_r k now
  apart : c.said.Nodup
  printed : ∀ e ∈ c.printed, e.fromAddr = server →
    e.text ∈ c.said ∧ e.bytesReceived = e.text.length

theorem start_sound
    (localtime_r : Int → Tm) (server : α) :
    (start : UDPEchoClient α).Sound localtime_r server :=
  ⟨⟨rfl, Nat.two_pow_pos 31⟩, nofun, List.nodup_nil, nofun⟩

theorem Sound.plain
    {server : α} {c : UDPEchoClient α} (hc : c.Sound localtime_r server)
    {text : List Char} (htext : text ∈ c.said) :
    text.length ≤ 4095 ∧ nul ∉ text := by
  obtain ⟨k, now, hk, rfl⟩ := hc.said text htext
  exact message_plain (Nat.lt_of_le_of_lt hk hc.count.2) now

/-- What a message leaves of the client. -/
theorem Sound.sendMessage
    {server : α} {c c' : UDPEchoClient α} {now : Timestamp}
    {text : List Char} (hc : c.Sound localtime_r server)
    (hsend : c.sendMessage localtime_r now = some (text, c')) :
    c'.Sound localtime_r server ∧ c'.said = c.said ++ [text] ∧
      c'.queue = c.queue := by
  simp only [UDPEchoClient.sendMessage] at hsend
  split_ifs at hsend with hsends
  cases hsend
  refine ⟨⟨⟨?_, hsends.2⟩, ?_, ?_, fun e he hfrom => ?_⟩, rfl, rfl⟩
  · rw [List.length_append, hc.count.1]
    rfl
  · intro text htext
    rcases List.mem_append.mp htext with hold | hnew
    · obtain ⟨k, then_, hk, heq⟩ := hc.said text hold
      exact ⟨k, then_, Nat.le_succ_of_le hk, heq⟩
    · exact ⟨_, now, Nat.le_refl _, List.mem_singleton.mp hnew⟩
  · refine List.nodup_append.mpr ⟨hc.apart, List.nodup_singleton _, ?_⟩
    intro old hold new hnew heq
    obtain ⟨k, then_, hk, hold⟩ := hc.said old hold
    rw [List.mem_singleton.mp hnew, hold] at heq
    have hcount := message_count_inj heq
    omega
  · obtain ⟨hmem, hlength⟩ := hc.printed e he hfrom
    exact ⟨List.mem_append_left _ hmem, hlength⟩

theorem handleServerResponse_some
    {c c' : UDPEchoClient α} (hread : c.handleServerResponse = some c') :
    ∃ d rest, c.queue = d :: rest ∧
      (c' = { c with queue := rest } ∨
        c' = { c with
          queue := rest
          printed := c.printed ++
            [⟨d.source, (d.payload.take (4096 - 1)).length,
              (d.payload.take (4096 - 1)).takeWhile fun x => x ≠ nul⟩] }) := by
  rw [handleServerResponse] at hread
  split_ifs at hread
  cases hq : c.queue with
  | nil =>
      rw [hq] at hread
      cases hread
  | cons d rest =>
      rw [hq, recvFrom, Option.map_some, Option.some.injEq] at hread
      refine ⟨d, rest, rfl, ?_⟩
      rw [← hread]
      dsimp only
      split_ifs
      · exact Or.inr rfl
      · exact Or.inl rfl

/-- What a client prints of a queue whose datagrams from the server are its
own messages. -/
theorem Sound.handleServerResponse
    {server : α} {c c' : UDPEchoClient α}
    (hc : c.Sound localtime_r server)
    (hqueue : ∀ d ∈ c.queue, d.source = server → d.payload ∈ c.said)
    (hread : c.handleServerResponse = some c') :
    c'.Sound localtime_r server ∧ c'.said = c.said ∧
      ∀ d ∈ c'.queue, d ∈ c.queue := by
  obtain ⟨d, rest, hq, hc'⟩ := handleServerResponse_some hread
  have hrest : ∀ d' ∈ rest, d' ∈ c.queue := by
    intro d' hd'
    rw [hq]
    exact List.mem_cons_of_mem d hd'
  rcases hc' with rfl | rfl
  · exact ⟨⟨hc.count, hc.said, hc.apart, hc.printed⟩, rfl, hrest⟩
  · refine ⟨⟨hc.count, hc.said, hc.apart, fun e he hfrom => ?_⟩, rfl, hrest⟩
    rcases List.mem_append.mp he with hold | hnew
    · exact hc.printed e hold hfrom
    · obtain rfl := List.mem_singleton.mp hnew
      have hsaid := hqueue d (by rw [hq]; exact List.mem_cons_self) hfrom
      obtain ⟨hlength, hnul⟩ := hc.plain hsaid
      have hwhole : d.payload.take (4096 - 1) = d.payload :=
        List.take_of_length_le hlength
      have htext : d.payload.takeWhile (fun x => x ≠ nul) = d.payload := by
        rw [List.takeWhile_eq_self_iff]
        intro x hx
        have hne : x ≠ nul := fun heq => hnul (heq ▸ hx)
        simpa using hne
      simp only [hwhole, htext]
      exact ⟨hsaid, trivial⟩

end UDPEchoClient

namespace UDPEchoSystem

variable {α : Type u} [DecidableEq α]
variable {localtime_r : Int → Tm} {server : α}

/-- If there is a client at the address, it has said this. -/
def SaidBy (s : UDPEchoSystem α) (addr : α) (text : List Char) : Prop :=
  ∀ c, s.clients addr = some c → text ∈ c.said

/-- Who said what is on the way. -/
structure Sound (localtime_r : Int → Tm) (server : α) (s : UDPEchoSystem α) :
    Prop where
  server_free : s.clients server = none
  sent : ∀ d ∈ s.sent, s.SaidBy d.source d.payload ∧
    (d.source = server → s.SaidBy d.destination d.payload)
  serverQueue : ∀ d ∈ s.serverQueue, d ∈ s.sent
  queue : ∀ addr c, s.clients addr = some c →
    ∀ d ∈ c.queue, d ∈ s.sent ∧ d.destination = addr
  client : ∀ addr c, s.clients addr = some c → c.Sound localtime_r server

omit [DecidableEq α] in
theorem Sound.queue_said
    {s : UDPEchoSystem α} (hs : s.Sound localtime_r server)
    {addr : α} {c : UDPEchoClient α} (hc : s.clients addr = some c) :
    ∀ d ∈ c.queue, d.source = server → d.payload ∈ c.said := by
  intro d hd hsource
  obtain ⟨hsent, rfl⟩ := hs.queue addr c hc d hd
  exact (hs.sent d hsent).2 hsource c hc

theorem update_eq_some
    {clients : α → Option (UDPEchoClient α)} {addr at_ : α}
    {c' c'' : UDPEchoClient α}
    (h : Function.update clients addr (some c') at_ = some c'') :
    at_ = addr ∧ c'' = c' ∨ clients at_ = some c'' := by
  by_cases heq : at_ = addr
  · subst heq
    rw [Function.update_self] at h
    exact Or.inl ⟨rfl, (Option.some.inj h).symm⟩
  · rw [Function.update_of_ne heq] at h
    exact Or.inr h

/-- A client that has said more. -/
theorem SaidBy.update
    {s : UDPEchoSystem α} {addr at_ : α} {c c' : UDPEchoClient α}
    {text : List Char} (hc : s.clients addr = some c)
    (hmore : ∀ m ∈ c.said, m ∈ c'.said) (hsaid : s.SaidBy at_ text) :
    ∀ c'', Function.update s.clients addr (some c') at_ = some c'' →
      text ∈ c''.said := by
  intro c'' hc''
  rcases update_eq_some hc'' with ⟨rfl, rfl⟩ | hold
  · exact hmore text (hsaid c hc)
  · exact hsaid c'' hold

/-- A client whose socket, messages or echoes changed.  What it has said stays
said, and what is in its socket was sent to it. -/
theorem Sound.update
    {s : UDPEchoSystem α} (hs : s.Sound localtime_r server)
    {addr : α} {c c' : UDPEchoClient α} (hc : s.clients addr = some c)
    (hmore : ∀ m ∈ c.said, m ∈ c'.said)
    (hqueue : ∀ d ∈ c'.queue, d ∈ s.sent ∧ d.destination = addr)
    (hc' : c'.Sound localtime_r server) :
    ({ s with clients := Function.update s.clients addr (some c') } :
      UDPEchoSystem α).Sound localtime_r server where
  server_free := by
    have hne : server ≠ addr := by
      rintro rfl
      rw [hs.server_free] at hc
      cases hc
    exact (Function.update_of_ne hne _ _).trans hs.server_free
  sent d hd :=
    ⟨SaidBy.update hc hmore (hs.sent d hd).1,
      fun hsource => SaidBy.update hc hmore ((hs.sent d hd).2 hsource)⟩
  serverQueue := hs.serverQueue
  queue at_ c'' hc'' := by
    rcases update_eq_some hc'' with ⟨rfl, rfl⟩ | hold
    · exact hqueue
    · exact hs.queue at_ c'' hold
  client at_ c'' hc'' := by
    rcases update_eq_some hc'' with ⟨rfl, rfl⟩ | hold
    · exact hc'
    · exact hs.client at_ c'' hold

omit [DecidableEq α] in
/-- One more datagram on the way. -/
theorem Sound.send
    {s : UDPEchoSystem α} (hs : s.Sound localtime_r server)
    {d : Datagram α} (hsource : s.SaidBy d.source d.payload)
    (hecho : d.source = server → s.SaidBy d.destination d.payload) :
    ({ s with sent := s.sent ++ [d] } : UDPEchoSystem α).Sound localtime_r
      server where
  server_free := hs.server_free
  sent d' hd' := by
    rcases List.mem_append.mp hd' with hold | hnew
    · exact hs.sent d' hold
    · obtain rfl := List.mem_singleton.mp hnew
      exact ⟨hsource, hecho⟩
  serverQueue d' hd' := List.mem_append_left _ (hs.serverQueue d' hd')
  queue addr c hc d' hd' := by
    obtain ⟨hsent, hdest⟩ := hs.queue addr c hc d' hd'
    exact ⟨List.mem_append_left _ hsent, hdest⟩
  client := hs.client

theorem Sound.arrive
    {s : UDPEchoSystem α} (hs : s.Sound localtime_r server)
    {d : Datagram α} (hd : d ∈ s.sent) :
    (s.arrive server d).Sound localtime_r server := by
  rw [UDPEchoSystem.arrive]
  split_ifs with hserver
  · refine ⟨hs.server_free, hs.sent, fun d' hd' => ?_, hs.queue, hs.client⟩
    rcases List.mem_append.mp hd' with hold | hnew
    · exact hs.serverQueue d' hold
    · rw [List.mem_singleton.mp hnew]
      exact hd
  · cases hc : s.clients d.destination with
    | none =>
        exact hs
    | some c =>
        obtain ⟨hcount, hsaid, hapart, hprinted⟩ := hs.client _ c hc
        refine hs.update hc (fun m hm => hm) (fun d' hd' => ?_)
          ⟨hcount, hsaid, hapart, hprinted⟩
        rcases List.mem_append.mp hd' with hold | hnew
        · exact hs.queue _ c hc d' hold
        · rw [List.mem_singleton.mp hnew]
          exact ⟨hd, rfl⟩

omit [DecidableEq α] in
/-- What a client said comes back whole. -/
theorem Sound.handleIncomingData
    {s s' : UDPEchoSystem α} (hs : s.Sound localtime_r server)
    (hread : s.handleIncomingData server = some s') :
    s'.Sound localtime_r server := by
  rw [UDPEchoSystem.handleIncomingData] at hread
  cases hq : s.serverQueue with
  | nil =>
      rw [hq] at hread
      cases hread
  | cons d rest =>
      rw [hq, recvFrom, Option.map_some, Option.some.injEq] at hread
      have hrest : ({ s with serverQueue := rest } :
          UDPEchoSystem α).Sound localtime_r server := by
        refine ⟨hs.server_free, hs.sent, fun d' hd' => ?_, hs.queue,
          hs.client⟩
        exact hs.serverQueue d' (by rw [hq]; exact List.mem_cons_of_mem d hd')
      rw [← hread]
      dsimp only
      split_ifs
      · have hd : d ∈ s.sent :=
          hs.serverQueue d (by rw [hq]; exact List.mem_cons_self)
        refine hrest.send ?_ fun _ c hc => ?_
        · intro c hc
          exact absurd (hs.server_free.symm.trans hc) nofun
        · have hsaid := (hs.sent d hd).1 c hc
          have hplain := (hs.client _ c hc).plain hsaid
          show d.payload.take (4096 - 1) ∈ c.said
          rw [List.take_of_length_le hplain.1]
          exact hsaid
      · exact hrest

theorem Sound.step
    {s s' : UDPEchoSystem α} (hs : s.Sound localtime_r server)
    {e : UDPEchoEvent α} (hstep : s.step localtime_r server e = some s') :
    s'.Sound localtime_r server := by
  cases e with
  | foreign d =>
      simp only [UDPEchoSystem.step] at hstep
      split_ifs at hstep with hforeign
      cases hstep
      refine hs.send (fun c hc => ?_) fun h => absurd h hforeign.1
      exact absurd (hforeign.2.symm.trans hc) nofun
  | deliver d =>
      simp only [UDPEchoSystem.step] at hstep
      split_ifs at hstep with hd
      cases hstep
      exact hs.arrive hd
  | serverReads =>
      exact hs.handleIncomingData hstep
  | clientSends addr now =>
      obtain ⟨c, hc, hsends⟩ := Option.bind_eq_some_iff.mp hstep
      obtain ⟨⟨text, c'⟩, hsend, rfl⟩ := Option.map_eq_some_iff.mp hsends
      obtain ⟨hsound, hsaid, hqueue⟩ := (hs.client addr c hc).sendMessage hsend
      have hmore : ∀ m ∈ c.said, m ∈ c'.said := by
        intro m hm
        rw [hsaid]
        exact List.mem_append_left _ hm
      refine Sound.send (hs.update hc hmore ?_ hsound) ?_ ?_
      · rw [hqueue]
        exact hs.queue addr c hc
      · intro c'' hc''
        obtain rfl : c' = c'' := by
          simpa only [Function.update_self, Option.some.injEq] using hc''
        rw [hsaid]
        exact List.mem_append_right _ (List.mem_singleton.mpr rfl)
      · intro hsource
        have hfree := hs.server_free
        rw [← (hsource : addr = server), hc] at hfree
        cases hfree
  | clientReads addr =>
      obtain ⟨c, hc, hreads⟩ := Option.bind_eq_some_iff.mp hstep
      obtain ⟨c', hread, rfl⟩ := Option.map_eq_some_iff.mp hreads
      obtain ⟨hsound, hsaid, hqueue⟩ :=
        (hs.client addr c hc).handleServerResponse (hs.queue_said hc) hread
      refine hs.update hc (fun m hm => hsaid ▸ hm) (fun d hd => ?_) hsound
      exact hs.queue addr c hc d (hqueue d hd)
  | clientStops addr =>
      obtain ⟨c, hc, rfl⟩ := Option.map_eq_some_iff.mp hstep
      obtain ⟨hcount, hsaid, hapart, hprinted⟩ := hs.client addr c hc
      exact hs.update hc (fun m hm => hm) (hs.queue addr c hc)
        ⟨hcount, hsaid, hapart, hprinted⟩

omit [DecidableEq α] in
theorem initial_sound
    (localtime_r : Int → Tm) {addresses : α → Bool}
    (hserver : addresses server = false) :
    (initial addresses).Sound localtime_r server where
  server_free := by simp [initial, hserver]
  sent := nofun
  serverQueue := nofun
  queue addr c hc d hd := by
    simp only [initial] at hc
    split_ifs at hc
    cases hc
    cases hd
  client addr c hc := by
    simp only [initial] at hc
    split_ifs at hc
    cases hc
    exact UDPEchoClient.start_sound localtime_r server

def sampleZone : Int → Tm :=
  fun _ => ⟨126, 0, 1, 12, 30, 0⟩

def sampleText : List Char :=
  UDPEchoClient.message sampleZone 1 ⟨0⟩

/-- The echo arrives twice, and something from elsewhere between. -/
def sampleEvents : List (UDPEchoEvent Nat) :=
  [.clientSends 1 ⟨0⟩, .deliver ⟨1, 0, sampleText⟩, .serverReads,
    .deliver ⟨0, 1, sampleText⟩, .foreign ⟨2, 1, ['x']⟩,
    .deliver ⟨2, 1, ['x']⟩, .deliver ⟨0, 1, sampleText⟩, .clientReads 1,
    .clientReads 1, .clientReads 1]

end UDPEchoSystem

end Hohnor
