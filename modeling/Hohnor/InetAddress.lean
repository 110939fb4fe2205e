import Hohnor.IntegerTypes
import Mathlib.Data.List.TakeWhile

/-!
# Internet addresses and their texts

`InetAddress` of include/hohnor/net/InetAddress.h and src/net/InetAddress.cpp
over `toIp`, `toIpPort`, `fromIpPort` and `isSelfConnect` of
src/net/SocketWrap.cpp.

`sockaddr_in` lies over the first sixteen bytes of `sockaddr_in6`.  The family
and the port are in one place in both, and `s_addr` is where `sin6_flowinfo`
is.  What the constructor of an IPv4 address does not write keeps what was in
the memory.

inet_ntop and inet_pton are a parameter.  A text that inet_pton does not take
leaves the zeros of the wildcard address, and the constructor only logs it.
-/

namespace Hohnor

open Numerals

/-- The four bytes of `in_addr`, in the order of the network. -/
abbrev InAddr := Fin 4 → UInt8

/-- The eight groups of `in6_addr`. -/
abbrev In6Addr := Fin 8 → UInt16

/-- A port in the order of the network, the byte of the greater weight
first. -/
abbrev NetPort := UInt8 × UInt8

def AF_INET : UInt16 :=
  2

def AF_INET6 : UInt16 :=
  10

structure InetAddress where
  family : UInt16
  port_ : NetPort
  s_addr : InAddr
  sin6_addr : In6Addr
  sin6_scope_id : UInt32
deriving DecidableEq

/-- inet_ntop and inet_pton of both families, with what they promise. -/
structure InetTexts where
  ntop4 : InAddr → List Char
  ntop6 : In6Addr → List Char
  pton4 : List Char → Option InAddr
  pton6 : List Char → Option In6Addr
  pton4_ntop4 : ∀ a, pton4 (ntop4 a) = some a
  pton6_ntop6 : ∀ a, pton6 (ntop6 a) = some a
  colon4 : ∀ a, ':' ∉ ntop4 a
  colon6 : ∀ a, ':' ∈ ntop6 a
  nul4 : ∀ a, nul ∉ ntop4 a
  nul6 : ∀ a, nul ∉ ntop6 a

def hostToNetwork16 (host16 : UInt16) : NetPort :=
  (UInt8.ofNat (host16.toNat / 256), UInt8.ofNat (host16.toNat % 256))

def networkToHost16 (net16 : NetPort) : UInt16 :=
  UInt16.ofNat (256 * net16.1.toNat + net16.2.toNat)

/-- The bytes that `hostToNetwork32` stores. -/
def hostToNetwork32 (host32 : UInt32) : InAddr :=
  fun i => UInt8.ofNat (host32.toNat / 256 ^ (3 - i.val) % 256)

theorem hostToNetwork16_networkToHost16
    (net16 : NetPort) :
    hostToNetwork16 (networkToHost16 net16) = net16 := by
  obtain ⟨high, low⟩ := net16
  have hhigh := high.toNat_lt
  have hlow := low.toNat_lt
  rw [hostToNetwork16, networkToHost16, Prod.mk.injEq, ← UInt8.toNat_inj,
    ← UInt8.toNat_inj]
  simp only [UInt8.toNat_ofNat', UInt16.toNat_ofNat']
  omega

/-- A text up to its terminator. -/
def cString (text : List Char) : List Char :=
  text.takeWhile fun c => c ≠ nul

theorem cString_eq
    {text : List Char} (hnul : nul ∉ text) :
    cString text = text := by
  rw [cString, List.takeWhile_eq_self_iff]
  intro c hc
  simp only [ne_eq, decide_not, Bool.not_eq_true', decide_eq_false_iff_not]
  rintro rfl
  exact hnul hc

namespace InetAddress

/-- `memZero` of the part that is a `sockaddr_in`. -/
def zero4 (memory : InetAddress) : InetAddress :=
  { memory with
    family := 0
    port_ := (0, 0)
    s_addr := fun _ => 0
    sin6_addr := fun i => if i < 4 then 0 else memory.sin6_addr i }

def zero6 : InetAddress where
  family := 0
  port_ := (0, 0)
  s_addr := fun _ => 0
  sin6_addr := fun _ => 0
  sin6_scope_id := 0

/-- `InetAddress(port, loopbackOnly, ipv6)`. -/
def ofPort (memory : InetAddress) (port : UInt16)
    (loopbackOnly ipv6 : Bool) : InetAddress :=
  if ipv6 then
    { zero6 with
      family := AF_INET6
      sin6_addr :=
        fun i => if loopbackOnly ∧ i = 7 then 1 else 0
      port_ := hostToNetwork16 port }
  else
    { zero4 memory with
      family := AF_INET
      s_addr :=
        hostToNetwork32 (if loopbackOnly then 0x7f000001 else 0)
      port_ := hostToNetwork16 port }

variable (L : InetTexts)

def fromIpPort4 (ip : List Char) (port : UInt16) (addr : InetAddress) :
    InetAddress :=
  { addr with
    family := AF_INET
    port_ := hostToNetwork16 port
    s_addr := (L.pton4 (cString ip)).getD addr.s_addr }

def fromIpPort6 (ip : List Char) (port : UInt16) (addr : InetAddress) :
    InetAddress :=
  { addr with
    family := AF_INET6
    port_ := hostToNetwork16 port
    sin6_addr := (L.pton6 (cString ip)).getD addr.sin6_addr }

/-- `InetAddress(ip, port, ipv6)`. -/
def ofIpPort (memory : InetAddress) (ip : List Char) (port : UInt16)
    (ipv6 : Bool) : InetAddress :=
  if ipv6 ∨ ':' ∈ cString ip then fromIpPort6 L ip port zero6
  else fromIpPort4 L ip port (zero4 memory)

def isIPv6 (a : InetAddress) : Bool :=
  a.family = AF_INET6

def isIPv4 (a : InetAddress) : Bool :=
  a.family = AF_INET

def isValid (a : InetAddress) : Bool :=
  a.isIPv4 || a.isIPv6

def port (a : InetAddress) : UInt16 :=
  networkToHost16 a.port_

def toIp (a : InetAddress) : List Char :=
  if a.family = AF_INET then L.ntop4 a.s_addr
  else if a.family = AF_INET6 then L.ntop6 a.sin6_addr
  else []

def toIpPort (a : InetAddress) : List Char :=
  (if a.family = AF_INET6 then ['['] ++ a.toIp L ++ [']'] else a.toIp L) ++
    [':'] ++ Nat.toDigits 10 a.port.toNat

/-- The test on the addresses that getsockname and getpeername gave. -/
def isSelfConnect (localaddr peeraddr : InetAddress) : Bool :=
  if localaddr.family = AF_INET then
    localaddr.port_ = peeraddr.port_ && localaddr.s_addr = peeraddr.s_addr
  else if localaddr.family = AF_INET6 then
    localaddr.port_ = peeraddr.port_ &&
      localaddr.sin6_addr = peeraddr.sin6_addr
  else false

/-- The same family, port and address. -/
structure SameEndpoint (a b : InetAddress) : Prop where
  family : a.family = b.family
  port_ : a.port_ = b.port_
  v4 : a.family = AF_INET → a.s_addr = b.s_addr
  v6 : a.family = AF_INET6 → a.sin6_addr = b.sin6_addr

theorem networkToHost16_inj
    {p q : NetPort} :
    networkToHost16 p = networkToHost16 q ↔ p = q := by
  refine ⟨fun h => ?_, congrArg _⟩
  rw [← hostToNetwork16_networkToHost16 p, h,
    hostToNetwork16_networkToHost16]

theorem toIp_of_isIPv4
    {a : InetAddress} (h4 : a.family = AF_INET) :
    a.toIp L = L.ntop4 a.s_addr := by
  rw [toIp, if_pos h4]

theorem toIp_of_isIPv6
    {a : InetAddress} (h6 : a.family = AF_INET6) :
    a.toIp L = L.ntop6 a.sin6_addr := by
  have hne : ¬ AF_INET6 = AF_INET := by decide
  rw [toIp, h6, if_neg hne, if_pos rfl]

theorem isValid_iff
    (a : InetAddress) :
    a.isValid = true ↔ a.family = AF_INET ∨ a.family = AF_INET6 := by
  simp [isValid, isIPv4, isIPv6]

/-- A text says its family: only that of an IPv6 address has a colon. -/
theorem colon_mem_toIp
    {a : InetAddress} (ha : a.isValid = true) :
    ':' ∈ a.toIp L ↔ a.family = AF_INET6 := by
  rcases (isValid_iff a).mp ha with h4 | h6
  · rw [toIp_of_isIPv4 L h4, h4]
    exact ⟨fun h => absurd h (L.colon4 _), fun h => absurd h (by decide)⟩
  · rw [toIp_of_isIPv6 L h6, h6]
    exact ⟨fun _ => rfl, fun _ => L.colon6 _⟩

theorem ntop4_injective :
    Function.Injective L.ntop4 := by
  intro x y h
  have hx := L.pton4_ntop4 x
  rw [h, L.pton4_ntop4] at hx
  exact (Option.some.inj hx).symm

theorem ntop6_injective :
    Function.Injective L.ntop6 := by
  intro x y h
  have hx := L.pton6_ntop6 x
  rw [h, L.pton6_ntop6] at hx
  exact (Option.some.inj hx).symm

/-- The texts of the address parts of two endpoints of valid families. -/
theorem toIp_inj
    {a b : InetAddress} (ha : a.isValid = true) (hb : b.isValid = true) :
    a.toIp L = b.toIp L ↔
      a.family = b.family ∧ (a.family = AF_INET → a.s_addr = b.s_addr) ∧
        (a.family = AF_INET6 → a.sin6_addr = b.sin6_addr) := by
  have hne : ¬ AF_INET = AF_INET6 := by decide
  constructor
  · intro heq
    have hcolon := colon_mem_toIp L ha
    rw [heq, colon_mem_toIp L hb] at hcolon
    rcases (isValid_iff a).mp ha with h4 | h6
    · have hb4 : b.family = AF_INET := by
        rcases (isValid_iff b).mp hb with hb4 | hb6
        · exact hb4
        · exact absurd (h4.symm.trans (hcolon.mp hb6)) hne
      rw [toIp_of_isIPv4 L h4, toIp_of_isIPv4 L hb4] at heq
      exact ⟨h4.trans hb4.symm, fun _ => ntop4_injective L heq,
        fun h6 => absurd (h4.symm.trans h6) hne⟩
    · have hb6 := hcolon.mpr h6
      rw [toIp_of_isIPv6 L h6, toIp_of_isIPv6 L hb6] at heq
      exact ⟨h6.trans hb6.symm, fun h4 => absurd (h4.symm.trans h6) hne,
        fun _ => ntop6_injective L heq⟩
  · rintro ⟨hfamily, h4, h6⟩
    simp only [toIp, hfamily] at h4 h6 ⊢
    split_ifs with hb4 hb6
    · rw [h4 hb4]
    · rw [h6 hb6]
    · rfl

/-- The part of toIpPort before the last colon. -/
def ipPart (a : InetAddress) : List Char :=
  if a.family = AF_INET6 then ['['] ++ a.toIp L ++ [']'] else a.toIp L

theorem toIpPort_eq
    (a : InetAddress) :
    a.toIpPort L = a.ipPart L ++ ':' :: Nat.toDigits 10 a.port.toNat := by
  rw [toIpPort, ipPart, List.append_assoc _ [':']]
  rfl

theorem colon_notMem_toDigits
    (n : Nat) :
    ':' ∉ Nat.toDigits 10 n := by
  intro hmem
  have hdigit := (StringConverter.isNumeral_toDigits n).digits ':' hmem
  exact absurd hdigit (by decide)

theorem toDigits_inj
    {m n : Nat} :
    Nat.toDigits 10 m = Nat.toDigits 10 n ↔ m = n := by
  refine ⟨fun h => ?_, congrArg _⟩
  have hm := (StringConverter.isNumeral_toDigits m).value
  rw [h, (StringConverter.isNumeral_toDigits n).value] at hm
  exact hm.symm

theorem eq_of_last
    {α : Type} {c : α} {xs ws us vs : List α} (hus : c ∉ us)
    (h : c :: us = ws ++ c :: vs) :
    xs = xs ++ ws ∧ us = vs := by
  cases ws with
  | nil =>
      rw [List.nil_append, List.cons_inj_right] at h
      exact ⟨(List.append_nil xs).symm, h⟩
  | cons d ws =>
      rw [List.cons_append, List.cons.injEq] at h
      exact absurd (by rw [h.2]; simp) hus

/-- Two texts are alike when they are up to their last separator and after
it. -/
theorem append_cons_inj_of_last
    {α : Type} {c : α} {xs ys us vs : List α}
    (hus : c ∉ us) (hvs : c ∉ vs) :
    xs ++ c :: us = ys ++ c :: vs ↔ xs = ys ∧ us = vs := by
  constructor
  · intro h
    rcases List.append_eq_append_iff.mp h with ⟨ws, rfl, hws⟩ | ⟨ws, rfl, hws⟩
    · exact eq_of_last hus hws
    · obtain ⟨hxs, hsame⟩ := eq_of_last hvs hws
      exact ⟨hxs.symm, hsame.symm⟩
  · rintro ⟨rfl, rfl⟩
    rfl

theorem colon_mem_ipPart
    (a : InetAddress) :
    ':' ∈ a.ipPart L ↔ ':' ∈ a.toIp L := by
  rw [ipPart]
  split_ifs <;> simp

/-- The brackets follow from the text. -/
theorem ipPart_eq
    {a : InetAddress} (ha : a.isValid = true) :
    a.ipPart L =
      if ':' ∈ a.toIp L then ['['] ++ a.toIp L ++ [']'] else a.toIp L := by
  simp only [ipPart, colon_mem_toIp L ha]

theorem ipPart_inj
    {a b : InetAddress} (ha : a.isValid = true) (hb : b.isValid = true) :
    a.ipPart L = b.ipPart L ↔ a.toIp L = b.toIp L := by
  constructor
  · intro heq
    have hcolon := colon_mem_ipPart L a
    rw [heq, colon_mem_ipPart] at hcolon
    rw [ipPart_eq L ha, ipPart_eq L hb] at heq
    simp only [hcolon] at heq
    split_ifs at heq
    · exact List.append_cancel_left (List.append_cancel_right heq)
    · exact heq
  · intro heq
    rw [ipPart_eq L ha, ipPart_eq L hb, heq]

theorem port_inj
    {a b : InetAddress} :
    a.port.toNat = b.port.toNat ↔ a.port_ = b.port_ := by
  rw [UInt16.toNat_inj]
  exact networkToHost16_inj

def hexDigits : List Char :=
  ['0', '1', '2', '3', '4', '5', '6', '7', '8', '9', 'a', 'b', 'c', 'd', 'e',
    'f']

theorem isNumeral_toDigits_hex
    (n : Nat) :
    IsNumeral hexDigits (Nat.toDigits 16 n) n := by
  have hdigit : ∀ d < 16, hexDigits[d]? = some d.digitChar := by decide
  refine isNumeral_of_steps (by decide) (by decide) ?_ ?_ n
  · intro n hn
    exact ⟨n.digitChar, hdigit n hn, Nat.toDigits_of_lt_base hn⟩
  · intro n hn
    exact ⟨(n % 16).digitChar, hdigit _ (Nat.mod_lt n (by decide)),
      Nat.toDigits_of_base_le (by decide) hn⟩

/-- The dotted texts, and the texts of eight groups without "::". -/
def plainTexts : InetTexts where
  ntop4 a := separated '.' (Nat.toDigits 10) (List.ofFn fun i => (a i).toNat)
  ntop6 a := separated ':' (Nat.toDigits 16) (List.ofFn fun i => (a i).toNat)
  pton4 text :=
    let bytes := readSeparated '.' StringConverter.decimalDigits text
    if bytes.length = 4 then some fun i => UInt8.ofNat (bytes.getD i 0)
    else none
  pton6 text :=
    let groups := readSeparated ':' hexDigits text
    if groups.length = 8 then some fun i => UInt16.ofNat (groups.getD i 0)
    else none
  pton4_ntop4 a := by
    rw [readSeparated_separated (by decide) StringConverter.isNumeral_toDigits
      (by simp)]
    simp only [List.length_ofFn, if_true, Option.some.injEq]
    funext i
    rw [List.getD_eq_getElem?_getD, List.getElem?_ofFn, dif_pos i.isLt,
      Option.getD_some, UInt8.ofNat_toNat]
  pton6_ntop6 a := by
    rw [readSeparated_separated (by decide) isNumeral_toDigits_hex (by simp)]
    simp only [List.length_ofFn, if_true, Option.some.injEq]
    funext i
    rw [List.getD_eq_getElem?_getD, List.getElem?_ofFn, dif_pos i.isLt,
      Option.getD_some, UInt16.ofNat_toNat]
  colon4 a hmem := by
    rcases mem_separated hmem with h | ⟨n, -, h⟩
    · exact absurd h (by decide)
    · exact colon_notMem_toDigits n h
  colon6 a := sep_mem_separated _ _ _
  nul4 a hmem := by
    rcases mem_separated hmem with h | ⟨n, -, h⟩
    · exact absurd h (by decide)
    · exact absurd ((StringConverter.isNumeral_toDigits n).digits _ h)
        (by decide)
  nul6 a hmem := by
    rcases mem_separated hmem with h | ⟨n, -, h⟩
    · exact absurd h (by decide)
    · exact absurd ((isNumeral_toDigits_hex n).digits _ h) (by decide)

/-- The text "ip:port" or "[ip]:port" of an endpoint says which it is, and a
socket is connected to itself exactly when both ends have one text. -/
theorem toIpPort_names_endpoint
    {a b : InetAddress} (ha : a.isValid = true) (hb : b.isValid = true) :
    (a.toIpPort L = b.toIpPort L ↔ a.SameEndpoint b) ∧
    (a.family = b.family →
      (isSelfConnect a b = true ↔ a.toIpPort L = b.toIpPort L)) := by
  have htext : a.toIpPort L = b.toIpPort L ↔ a.SameEndpoint b := by
    rw [toIpPort_eq, toIpPort_eq,
      append_cons_inj_of_last (colon_notMem_toDigits _)
        (colon_notMem_toDigits _),
      ipPart_inj L ha hb, toIp_inj L ha hb, toDigits_inj, port_inj]
    constructor
    · rintro ⟨⟨hfamily, h4, h6⟩, hport⟩
      exact ⟨hfamily, hport, h4, h6⟩
    · rintro ⟨hfamily, hport, h4, h6⟩
      exact ⟨⟨hfamily, h4, h6⟩, hport⟩
  refine ⟨htext, fun hfamily => ?_⟩
  rw [htext]
  have hne : ¬ AF_INET6 = AF_INET := by decide
  rcases (isValid_iff a).mp ha with h4 | h6
  · simp only [isSelfConnect, if_pos h4, Bool.and_eq_true, decide_eq_true_eq]
    constructor
    · rintro ⟨hport, haddr⟩
      exact ⟨hfamily, hport, fun _ => haddr,
        fun h6 => absurd (h6.symm.trans h4) hne⟩
    · intro h
      exact ⟨h.port_, h.v4 h4⟩
  · simp only [isSelfConnect, h6, if_neg hne, if_true, Bool.and_eq_true,
      decide_eq_true_eq]
    constructor
    · rintro ⟨hport, haddr⟩
      exact ⟨hfamily, hport, fun h4 => absurd (h6.symm.trans h4) hne,
        fun _ => haddr⟩
    · intro h
      exact ⟨h.port_, h.v6 h6⟩

def samplePeer : InetAddress :=
  ofIpPort plainTexts (ofPort zero6 0 false false)
    "10.0.2.15".toList 8080 false

theorem toIpPort_names_endpoint_loopback :
    (ofPort zero6 8080 true false).toIpPort plainTexts =
        "127.0.0.1:8080".toList ∧
      ¬ (ofPort zero6 8080 true false).SameEndpoint samplePeer ∧
      isSelfConnect (ofPort zero6 8080 true false) samplePeer = false := by
  have hnames := toIpPort_names_endpoint plainTexts
    (a := ofPort zero6 8080 true false) (b := samplePeer) rfl rfl
  have htext : ¬ (ofPort zero6 8080 true false).toIpPort plainTexts =
      samplePeer.toIpPort plainTexts := by
    decide +kernel
  refine ⟨by decide +kernel, mt hnames.1.mpr htext, ?_⟩
  rw [← Bool.not_eq_true]
  exact mt (hnames.2 rfl).mp htext

/-- An address that is read from the text of another one is that endpoint
again, unless an IPv4 text is read with `ipv6` set. -/
theorem ofIpPort_toIp
    (memory : InetAddress) {a : InetAddress} (ha : a.isValid = true)
    (ipv6 : Bool) :
    (ofIpPort L memory (a.toIp L) a.port ipv6).isValid = true ∧
    ((ofIpPort L memory (a.toIp L) a.port ipv6).SameEndpoint a ↔
      (ipv6 = true → a.isIPv6 = true)) := by
  have hne : ¬ AF_INET6 = AF_INET := by decide
  have hport : hostToNetwork16 a.port = a.port_ :=
    hostToNetwork16_networkToHost16 a.port_
  rcases (isValid_iff a).mp ha with h4 | h6
  · have htext := toIp_of_isIPv4 L h4
    have hnot6 : a.isIPv6 = false := by
      rw [isIPv6, h4]
      decide
    have hcstring : cString (a.toIp L) = L.ntop4 a.s_addr := by
      rw [htext, cString_eq (L.nul4 _)]
    cases ipv6 with
    | true =>
        rw [ofIpPort, if_pos (Or.inl rfl), hnot6]
        refine ⟨(isValid_iff _).mpr (Or.inr rfl), fun h => ?_,
          fun h => absurd (h rfl) (by decide)⟩
        exact absurd (h.family.trans h4) hne
    | false =>
        have hcolon : ¬ ((false : Bool) = true ∨ ':' ∈ cString (a.toIp L)) := by
          rw [hcstring]
          simp [L.colon4]
        rw [ofIpPort, if_neg hcolon]
        refine ⟨(isValid_iff _).mpr (Or.inl rfl),
          fun _ h => absurd h (by decide), fun _ => ?_⟩
        refine ⟨h4.symm, hport, fun _ => ?_, fun h => ?_⟩
        · show (L.pton4 (cString (a.toIp L))).getD _ = a.s_addr
          rw [hcstring, L.pton4_ntop4, Option.getD_some]
        · exact absurd (Eq.symm h) hne
  · have hcstring : cString (a.toIp L) = L.ntop6 a.sin6_addr := by
      rw [toIp_of_isIPv6 L h6, cString_eq (L.nul6 _)]
    have hcolon : ipv6 = true ∨ ':' ∈ cString (a.toIp L) := by
      rw [hcstring]
      exact Or.inr (L.colon6 _)
    rw [ofIpPort, if_pos hcolon]
    refine ⟨(isValid_iff _).mpr (Or.inr rfl),
      fun _ _ => by simp [isIPv6, h6], fun _ => ?_⟩
    refine ⟨h6.symm, hport, fun h => absurd h hne, fun _ => ?_⟩
    show (L.pton6 (cString (a.toIp L))).getD _ = a.sin6_addr
    rw [hcstring, L.pton6_ntop6, Option.getD_some]

def samplePeer6 : InetAddress :=
  ofIpPort plainTexts zero6 "2001:db8:1:2:3:4:5:6".toList 80 false

theorem ofIpPort_toIp_sample :
    (ofIpPort plainTexts zero6 (samplePeer6.toIp plainTexts)
        samplePeer6.port false).SameEndpoint samplePeer6 ∧
      ¬ (ofIpPort plainTexts zero6 (samplePeer.toIp plainTexts)
        samplePeer.port true).SameEndpoint samplePeer :=
  ⟨(ofIpPort_toIp plainTexts zero6 (a := samplePeer6) rfl false).2.mpr
      (fun h => absurd h (by decide)),
    fun h => absurd ((ofIpPort_toIp plainTexts zero6 (a := samplePeer) rfl
      true).2.mp h rfl) (by decide)⟩

end InetAddress

end Hohnor
