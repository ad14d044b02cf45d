import HttpServer.InetText
import HttpServer.IntText
import HttpServer.StaticFile
import Mathlib.Data.List.DropRight

/-!
# Addresses as text

`NetAddress` of `core/net/address.cpp`: an IPv4 or IPv6 socket address, which `to_string` writes
as text and `from_ip_port` reads. The text is split at its last colon. What is in front goes to
`inet_pton` for the one family and then for the other, without brackets around it; what is behind
goes to `std::stoi`, and the number that it reads is cut down to 16 bits.

What `to_string` writes is read back, but the port is not checked: blanks, a sign and trailing
text get through, and so do numbers beyond 65535, as another port. `text_iff` says which texts
are read as they should be. The constructor from an address and a port does not throw: where the
text is not that of an IPv4 address it takes any (`ofParts_eq`).
-/

/-- `htons` on a little-endian machine: the two octets change places. -/
def htons (x : UInt16) : UInt16 := .ofNat (x.toNat % 256 * 256 + x.toNat / 256)

/-- `ntohs`. -/
def ntohs (x : UInt16) : UInt16 := htons x

/-- `sockaddr_in`. -/
structure SockaddrIn where
  sinFamily : UInt16
  sinPort : UInt16
  sinAddr : InAddr
  deriving DecidableEq

/-- `sockaddr_in6`. -/
structure SockaddrIn6 where
  sin6Family : UInt16
  sin6Port : UInt16
  sin6Flowinfo : UInt32
  sin6Addr : In6Addr
  sin6ScopeId : UInt32
  deriving DecidableEq

/-- `NetAddress`: the union, by `family_`. No constructor makes a Unix address. -/
inductive NetAddress
  | addrIn (addr : SockaddrIn)
  | addrIn6 (addr : SockaddrIn6)
  deriving DecidableEq

/-! ## The source -/

/-- `find_last_of` with one character. -/
def findLastOf (c : UInt8) : Bytes → Option ℕ
  | [] => none
  | d :: s =>
    match findLastOf c s with
    | some i => some (i + 1)
    | none => if d = c then some 0 else none

/-- The brackets around an IPv6 address are taken off. -/
def stripBrackets (ip : Bytes) : Bytes :=
  if ip.head? = some 0x5B ∧ ip.getLast? = some 0x5D then (ip.drop 1).take (ip.length - 2) else ip

namespace NetAddress

def afInet : UInt16 := 2
def afInet6 : UInt16 := 10

variable (inet : Inet)

/-- `ip`. -/
def ip : NetAddress → Bytes
  | addrIn addr => inet.ntop4 addr.sinAddr
  | addrIn6 addr => inet.ntop6 addr.sin6Addr

/-- `port`. -/
def port : NetAddress → UInt16
  | addrIn addr => ntohs addr.sinPort
  | addrIn6 addr => ntohs addr.sin6Port

/-- `to_string`. -/
def toString (a : NetAddress) : Bytes :=
  match a with
  | addrIn _ => a.ip inet ++ lit ":" ++ toDecimal a.port.toNat
  | addrIn6 _ => lit "[" ++ a.ip inet ++ lit "]:" ++ toDecimal a.port.toNat

/-- `inet_pton` for the one family, then for the other. -/
def ofIp (text : Bytes) (port : UInt16) : Option NetAddress :=
  match inet.pton4 text with
  | some addr => some (addrIn ⟨afInet, htons port, addr⟩)
  | none => (inet.pton6 text).map fun addr => addrIn6 ⟨afInet6, htons port, 0, addr, 0⟩

/-- `from_ip_port`, with the exceptions that it throws and what they say. The first character of
an empty string is a NUL. -/
def fromIpPort (ipPort : Bytes) : Except (StdException × Bytes) NetAddress :=
  match findLastOf 0x3A ipPort with
  | none => .error (.invalidArgument, lit "Invalid ip:port format: " ++ ipPort)
  | some colonPos =>
    let ipStr := stripBrackets (ipPort.take colonPos)
    let portStr := ipPort.drop (colonPos + 1)
    match stoi portStr with
    | .error e => .error (e, lit "stoi")
    | .ok n =>
      match ofIp inet (FileSystem.cString ipStr) (.ofInt n) with
      | some a => .ok a
      | none => .error (.invalidArgument, lit "Invalid IP address format: " ++ ipStr)

/-- `NetAddress(ip, port)`, which is `from_ip_port` with two arguments too: an IPv4 address, and
`INADDR_ANY` for a text that is none. -/
def ofIpPort (ip : Bytes) (port : UInt16) : NetAddress :=
  addrIn ⟨afInet, htons port, (inet.pton4 (FileSystem.cString ip)).getD (Vector.replicate 4 0)⟩

/-- `from_hostname`, which looks for an address in the text and asks nobody. -/
def fromHostname (hostname : Bytes) (port : UInt16) : Except (StdException × Bytes) NetAddress :=
  match ofIp inet (FileSystem.cString hostname) port with
  | some a => .ok a
  | none => .error (.invalidArgument, lit "Invalid hostname or IP address: " ++ hostname)

/-- `operator==`. -/
def eq : NetAddress → NetAddress → Bool
  | addrIn a, addrIn b => a.sinAddr == b.sinAddr && a.sinPort == b.sinPort
  | addrIn6 a, addrIn6 b => a.sin6Addr == b.sin6Addr && a.sin6Port == b.sin6Port
  | _, _ => false

instance : BEq NetAddress := ⟨eq⟩

/-! ## What the text says -/

/-- The text behind the last colon. -/
def portText (s : Bytes) : Bytes := s.rtakeWhile (· != 0x3A)

/-- The text in front of it, as `inet_pton` gets it: without brackets, and up to a NUL. -/
def ipText (s : Bytes) : Bytes :=
  FileSystem.cString (stripBrackets (s.rdropWhile (· != 0x3A)).dropLast)

/-- A port in decimal: digits, and no more than 65535. -/
def IsPort (text : Bytes) : Prop :=
  text ≠ [] ∧ (∀ c ∈ text, isDigit c = true) ∧ decimal text ≤ 65535

instance : DecidablePred IsPort := fun _ => inferInstanceAs (Decidable (_ ∧ _ ∧ _))

/-- **The port is right**: if the text is accepted, a port stands behind the last colon, and the
address has it. -/
def PortRight (s : Bytes) : Prop :=
  ∀ a, fromIpPort inet s = .ok a → IsPort (portText s) ∧ a.port.toNat = decimal (portText s)

/-- A port stands behind the last colon, unless there is no colon, or no address in front of it, or
nothing behind it that begins with an `int`. -/
def PlainPort (s : Bytes) : Prop :=
  0x3A ∈ s → inet.pton4 (ipText s) ≠ none ∨ inet.pton6 (ipText s) ≠ none →
    (∃ n, IntText (portText s) n ∧ InIntRange n) → IsPort (portText s)

/-! ## Words in network order -/

@[simp] theorem htons_htons (x : UInt16) : htons (htons x) = x := by
  have hx : x.toNat < 65536 := x.toNat_lt
  have hone (y : UInt16) (hy : y.toNat % 256 * 256 + y.toNat / 256 < 65536) :
      (htons y).toNat = y.toNat % 256 * 256 + y.toNat / 256 := by
    rw [htons, UInt16.toNat_ofNat', Nat.mod_eq_of_lt hy]
  have hin := hone x (by omega)
  -- the low octet is now the high one
  have hlow : (htons x).toNat % 256 = x.toNat / 256 := by omega
  have hhigh : (htons x).toNat / 256 = x.toNat % 256 := by omega
  apply UInt16.toNat_inj.mp
  rw [hone _ (by omega), hlow, hhigh]
  omega

@[simp] theorem ntohs_htons (x : UInt16) : ntohs (htons x) = x := htons_htons x

@[simp] theorem htons_ntohs (x : UInt16) : htons (ntohs x) = x := htons_htons x

/-! ## The last colon -/

variable {host port s : Bytes}

theorem findLastOf_of_notMem {c : UInt8} (hs : c ∉ s) : findLastOf c s = none := by
  induction s with
  | nil => rfl
  | cons d s ih =>
    rw [List.mem_cons, not_or] at hs
    rw [findLastOf, ih hs.2]
    exact if_neg (Ne.symm hs.1)

/-- **The last one is found.** -/
theorem findLastOf_append {c : UInt8} (hport : c ∉ port) :
    findLastOf c (host ++ c :: port) = some host.length := by
  induction host with
  | nil =>
    rw [List.nil_append, findLastOf, findLastOf_of_notMem hport]
    exact if_pos rfl
  | cons d host ih =>
    rw [List.cons_append, findLastOf, ih]
    rfl

/-- A text with a colon has a last one. -/
theorem exists_last {c : UInt8} (hs : c ∈ s) : ∃ host port, s = host ++ c :: port ∧ c ∉ port := by
  induction s with
  | nil => cases hs
  | cons d s ih =>
    by_cases htail : c ∈ s
    · obtain ⟨host, port, rfl, hport⟩ := ih htail
      exact ⟨d :: host, port, rfl, hport⟩
    · have hd : c = d := (List.mem_cons.mp hs).resolve_right htail
      exact ⟨[], s, by rw [hd, List.nil_append], htail⟩

theorem bne_of_notMem {c : UInt8} (hs : c ∉ s) : ∀ d ∈ s, (d != c) = true :=
  fun _ hd => bne_iff_ne.mpr fun h => hs (h ▸ hd)

theorem portText_append (hport : 0x3A ∉ port) : portText (host ++ 0x3A :: port) = port := by
  have hin := bne_of_notMem (mt List.mem_reverse.mp hport)
  unfold portText List.rtakeWhile
  rw [List.reverse_append, List.reverse_cons, List.append_assoc,
    List.takeWhile_append_of_pos hin, List.singleton_append, List.takeWhile_cons_of_neg (by simp),
    List.append_nil, List.reverse_reverse]

theorem ipText_append (hport : 0x3A ∉ port) :
    ipText (host ++ 0x3A :: port) = FileSystem.cString (stripBrackets host) := by
  have hin := bne_of_notMem (mt List.mem_reverse.mp hport)
  unfold ipText List.rdropWhile
  rw [List.reverse_append, List.reverse_cons, List.append_assoc,
    List.dropWhile_append_of_pos hin, List.singleton_append, List.dropWhile_cons_of_neg (by simp),
    List.reverse_cons, List.reverse_reverse, List.dropLast_concat]

/-! ## What is accepted -/

variable {inet}

theorem ofIp_ne_none {text : Bytes} {n : UInt16} :
    ofIp inet text n ≠ none ↔ inet.pton4 text ≠ none ∨ inet.pton6 text ≠ none := by
  unfold ofIp
  cases inet.pton4 text with
  | some addr => simp
  | none => cases inet.pton6 text <;> simp

/-- The address has the port that it was given. -/
theorem port_of_ofIp {text : Bytes} {n : UInt16} {a : NetAddress}
    (ha : ofIp inet text n = some a) : a.port = n := by
  unfold ofIp at ha
  split at ha
  · cases ha
    exact ntohs_htons n
  · obtain ⟨addr, -, rfl⟩ := Option.map_eq_some_iff.mp ha
    exact ntohs_htons n

/-- **The texts that `from_ip_port` accepts**: there is a colon, what stands behind the last one
begins with an `int`, and what stands in front of it is an address. -/
theorem fromIpPort_eq_ok_iff {a : NetAddress} :
    fromIpPort inet s = .ok a ↔ 0x3A ∈ s ∧ ∃ n, IntText (portText s) n ∧ InIntRange n
      ∧ ofIp inet (ipText s) (.ofInt n) = some a := by
  by_cases hcolon : 0x3A ∈ s
  · obtain ⟨host, port, rfl, hport⟩ := exists_last hcolon
    rw [portText_append hport, ipText_append hport, and_iff_right hcolon]
    have hhost : (host ++ 0x3A :: port).take host.length = host := List.take_left
    have hrest : (host ++ 0x3A :: port).drop (host.length + 1) = port := by
      rw [← List.drop_drop, List.drop_left, List.drop_one, List.tail_cons]
    unfold fromIpPort
    rw [findLastOf_append hport]
    dsimp only
    rw [hhost, hrest]
    constructor
    · intro h
      split at h
      · cases h
      · rename_i n hn
        obtain ⟨htext, hrange⟩ := stoi_eq_ok_iff.mp hn
        split at h
        · rename_i b hb
          cases h
          exact ⟨n, htext, hrange, hb⟩
        · cases h
    · rintro ⟨n, htext, hrange, ha⟩
      rw [stoi_eq_ok_iff.mpr ⟨htext, hrange⟩]
      dsimp only
      rw [ha]
  · refine iff_of_false ?_ fun h => hcolon h.1
    unfold fromIpPort
    rw [findLastOf_of_notMem hcolon]
    exact fun h => by cases h

/-- A number of 16 bits is kept. -/
theorem toNat_ofInt {m : ℕ} (hm : m ≤ 65535) : (UInt16.ofInt (m : ℤ)).toNat = m := by
  rw [UInt16.ofInt, UInt16.toNat_ofNat']
  omega

/-- **The port is right exactly where it is plain.** -/
theorem portRight_iff : PortRight inet s ↔ PlainPort inet s := by
  constructor
  · rintro h hcolon hip ⟨n, htext, hrange⟩
    obtain ⟨a, ha⟩ := Option.ne_none_iff_exists'.mp (ofIp_ne_none (n := .ofInt n) |>.mpr hip)
    exact (h a (fromIpPort_eq_ok_iff.mpr ⟨hcolon, n, htext, hrange, ha⟩)).1
  · intro h a ha
    obtain ⟨hcolon, n, htext, hrange, hip⟩ := fromIpPort_eq_ok_iff.mp ha
    have hne : ofIp inet (ipText s) (.ofInt n) ≠ none := by
      rw [hip]
      exact Option.some_ne_none a
    have hport := h hcolon (ofIp_ne_none.mp hne) ⟨n, htext, hrange⟩
    -- a text denotes one number, and digits denote their own
    have hn := htext.unique (intText_of_digits hport.1 hport.2.1)
    refine ⟨hport, ?_⟩
    rw [port_of_ofIp hip, hn, toNat_ofInt hport.2.2]

/-! ## What is written is read back -/

/-- No digit is a colon. -/
theorem colon_notMem_toDecimal (n : ℕ) : 0x3A ∉ toDecimal n := fun h =>
  absurd (isDigit_of_mem_toDecimal h) (by decide)

theorem cString_of_notMem (hs : 0 ∉ s) : FileSystem.cString s = s :=
  List.takeWhile_eq_self_iff.mpr (bne_of_notMem hs)

/-- A port in decimal is read back. -/
theorem fromIpPort_append_toDecimal {n : UInt16} {a : NetAddress}
    (ha : ofIp inet (FileSystem.cString (stripBrackets host)) n = some a) :
    fromIpPort inet (host ++ 0x3A :: toDecimal n.toNat) = .ok a := by
  have hcolon := colon_notMem_toDecimal n.toNat
  have hlt : n.toNat < 65536 := n.toNat_lt
  have htext := intText_of_digits (toDecimal_ne_nil n.toNat) fun _ => isDigit_of_mem_toDecimal
  rw [decimal_toDecimal] at htext
  have hn : UInt16.ofInt (n.toNat : ℤ) = n := UInt16.toNat_inj.mp (toNat_ofInt (by omega))
  rw [fromIpPort_eq_ok_iff, portText_append hcolon, ipText_append hcolon]
  refine ⟨by simp, n.toNat, htext, ⟨by omega, by omega⟩, ?_⟩
  rw [hn, ha]

/-- There is no NUL in the text of an IPv4 address. -/
theorem cString_ntop4 (h : inet.Documented) (addr : InAddr) :
    FileSystem.cString (inet.ntop4 addr) = inet.ntop4 addr := by
  have htext := h.pton4_text _ _ (h.pton4_ntop4 addr)
  exact cString_of_notMem fun hc => absurd (htext 0 hc) (by decide)

/-- Nor in that of an IPv6 address. -/
theorem cString_ntop6 (h : inet.Documented) (addr : In6Addr) :
    FileSystem.cString (inet.ntop6 addr) = inet.ntop6 addr := by
  have htext := (h.pton6_text _ _ (h.pton6_ntop6 addr)).2
  exact cString_of_notMem fun hc => absurd (htext 0 hc) (by decide)

/-- The text of an IPv4 address has no brackets either. -/
theorem ipText_ntop4 (h : inet.Documented) (addr : InAddr) :
    FileSystem.cString (stripBrackets (inet.ntop4 addr)) = inet.ntop4 addr := by
  have htext := h.pton4_text _ _ (h.pton4_ntop4 addr)
  have hbracket :
      ¬ ((inet.ntop4 addr).head? = some 0x5B ∧ (inet.ntop4 addr).getLast? = some 0x5D) :=
    fun hb => absurd (htext 0x5B (List.mem_of_head? hb.1)) (by decide)
  rw [stripBrackets, if_neg hbracket, cString_ntop4 h]

/-- The brackets around an IPv6 address are taken off. -/
theorem ipText_ntop6 (h : inet.Documented) (addr : In6Addr) :
    FileSystem.cString (stripBrackets (0x5B :: inet.ntop6 addr ++ [0x5D])) = inet.ntop6 addr := by
  have hstrip : stripBrackets (0x5B :: inet.ntop6 addr ++ [0x5D]) = inet.ntop6 addr := by
    unfold stripBrackets
    rw [if_pos ⟨rfl, List.getLast?_concat⟩]
    simp
  rw [hstrip, cString_ntop6 h]

/-- An IPv6 address is no IPv4 address: there is a colon in it. -/
theorem pton4_ntop6 (h : inet.Documented) (addr : In6Addr) :
    inet.pton4 (inet.ntop6 addr) = none := by
  have hcolon := (h.pton6_text _ _ (h.pton6_ntop6 addr)).1
  refine Option.eq_none_iff_forall_ne_some.mpr fun a ha => ?_
  exact absurd (h.pton4_text _ _ ha 0x3A hcolon) (by decide)

/-- **Every address is read back from its text**, as far as `operator==` goes. -/
theorem fromIpPort_toString (h : inet.Documented) (a : NetAddress) :
    ∃ b, fromIpPort inet (a.toString inet) = .ok b ∧ (b == a) = true := by
  cases a with
  | addrIn addr =>
    have hip : ofIp inet (FileSystem.cString (stripBrackets (inet.ntop4 addr.sinAddr)))
        (ntohs addr.sinPort) = some (addrIn ⟨afInet, addr.sinPort, addr.sinAddr⟩) := by
      rw [ipText_ntop4 h, ofIp, h.pton4_ntop4, htons_ntohs]
    have htext : (addrIn addr).toString inet
        = inet.ntop4 addr.sinAddr ++ 0x3A :: toDecimal (ntohs addr.sinPort).toNat :=
      List.append_assoc _ _ _
    refine ⟨_, htext ▸ fromIpPort_append_toDecimal hip, ?_⟩
    change (addr.sinAddr == addr.sinAddr && addr.sinPort == addr.sinPort) = true
    simp
  | addrIn6 addr =>
    have hip : ofIp inet (FileSystem.cString (stripBrackets
        (0x5B :: inet.ntop6 addr.sin6Addr ++ [0x5D]))) (ntohs addr.sin6Port)
        = some (addrIn6 ⟨afInet6, addr.sin6Port, 0, addr.sin6Addr, 0⟩) := by
      rw [ipText_ntop6 h, ofIp, pton4_ntop6 h, h.pton6_ntop6, htons_ntohs]
      rfl
    have htext : (addrIn6 addr).toString inet
        = (0x5B :: inet.ntop6 addr.sin6Addr ++ [0x5D])
          ++ 0x3A :: toDecimal (ntohs addr.sin6Port).toNat := by
      simp [toString, ip, NetAddress.port, lit]
    refine ⟨_, htext ▸ fromIpPort_append_toDecimal hip, ?_⟩
    change (addr.sin6Addr == addr.sin6Addr && addr.sin6Port == addr.sin6Port) = true
    simp

/-- **Every address is read back from its two parts** by `from_hostname`, and by the constructor
exactly if it is an IPv4 address. -/
theorem ofParts_eq (h : inet.Documented) (a : NetAddress) :
    (∃ b, fromHostname inet (a.ip inet) a.port = .ok b ∧ (b == a) = true)
      ∧ ((ofIpPort inet (a.ip inet) a.port == a) = true
        ↔ ∃ addr, a = addrIn addr) := by
  cases a with
  | addrIn addr =>
    have heq : (addr.sinAddr == addr.sinAddr && addr.sinPort == addr.sinPort) = true := by simp
    refine ⟨⟨addrIn ⟨afInet, addr.sinPort, addr.sinAddr⟩, ?_, heq⟩,
      iff_of_true ?_ ⟨addr, rfl⟩⟩
    · rw [fromHostname, NetAddress.ip, cString_ntop4 h, ofIp, h.pton4_ntop4, NetAddress.port,
        htons_ntohs]
    · rw [ofIpPort, NetAddress.ip, cString_ntop4 h, h.pton4_ntop4, NetAddress.port, htons_ntohs]
      exact heq
  | addrIn6 addr =>
    refine ⟨⟨addrIn6 ⟨afInet6, addr.sin6Port, 0, addr.sin6Addr, 0⟩, ?_, ?_⟩,
      iff_of_false (fun heq => ?_) ?_⟩
    · rw [fromHostname, NetAddress.ip, cString_ntop6 h, ofIp, pton4_ntop6 h, h.pton6_ntop6,
        NetAddress.port, htons_ntohs]
      rfl
    · change (addr.sin6Addr == addr.sin6Addr && addr.sin6Port == addr.sin6Port) = true
      simp
    · cases heq
    · rintro ⟨addr', heq⟩
      cases heq

/-- Equal addresses have the same port. -/
theorem port_eq_of_eq {a b : NetAddress} (h : (a == b) = true) : a.port = b.port := by
  cases a with
  | addrIn a =>
    cases b with
    | addrIn b => exact congrArg ntohs (eq_of_beq (Bool.and_eq_true_iff.mp h).2)
    | addrIn6 b => cases h
  | addrIn6 a =>
    cases b with
    | addrIn b => cases h
    | addrIn6 b => exact congrArg ntohs (eq_of_beq (Bool.and_eq_true_iff.mp h).2)

/-- **Addresses and their text.** Every address is read back from its text. A text is accepted
with the port that stands behind its last colon, and only where a port stands there, exactly if
its port is plain; and plain texts of equal addresses have the same port. -/
theorem text_iff (h : inet.Documented) (a : NetAddress) (s t : Bytes) :
    (∃ b, fromIpPort inet (a.toString inet) = .ok b ∧ (b == a) = true)
      ∧ (PortRight inet s ↔ PlainPort inet s)
      ∧ (PlainPort inet s → PlainPort inet t → ∀ b c, fromIpPort inet s = .ok b →
        fromIpPort inet t = .ok c → (b == c) = true →
        decimal (portText s) = decimal (portText t)) := by
  refine ⟨fromIpPort_toString h a, portRight_iff, fun hs ht b c hb hc heq => ?_⟩
  have hportb := (portRight_iff.mpr hs b hb).2
  have hportc := (portRight_iff.mpr ht c hc).2
  rw [← hportb, ← hportc, port_eq_of_eq heq]

/-- A port beyond 65535, a text with the same address, and one with a blank and something behind
the port. -/
def cutPort : Bytes := lit "1.2.3.4:65616"
def samePort : Bytes := lit "1.2.3.4:80"
def trailing : Bytes := lit "1.2.3.4: 80x"

/-- **A port that is cut down**: the text is accepted, and its address is that of another port;
and a port with a blank in front and something behind it is accepted as well. -/
theorem cutPort_not_portRight :
    ¬ PortRight Inet.numeric cutPort ∧ ¬ PortRight Inet.numeric trailing
      ∧ ∃ a, fromIpPort Inet.numeric cutPort = .ok a
        ∧ fromIpPort Inet.numeric samePort = .ok a ∧ (a == a) = true
        ∧ decimal (portText cutPort) ≠ decimal (portText samePort) := by
  have hcut :
      fromIpPort Inet.numeric cutPort = .ok (addrIn ⟨afInet, htons 80, #v[1, 2, 3, 4]⟩) := rfl
  have hsame :
      fromIpPort Inet.numeric samePort = .ok (addrIn ⟨afInet, htons 80, #v[1, 2, 3, 4]⟩) := rfl
  have htrailing :
      fromIpPort Inet.numeric trailing = .ok (addrIn ⟨afInet, htons 80, #v[1, 2, 3, 4]⟩) := rfl
  refine ⟨fun h => ?_, fun h => ?_, _, hcut, hsame, rfl, ?_⟩
  · have hvalue : decimal (portText cutPort) = 65616 := rfl
    have hmax := (h _ hcut).1.2.2
    omega
  · have hblank : (0x20 : UInt8) ∈ portText trailing := List.mem_cons_self
    cases (h _ htrailing).1.2.1 0x20 hblank
  · have hvalue : decimal (portText cutPort) = 65616 := rfl
    have hother : decimal (portText samePort) = 80 := rfl
    omega

/-- An IPv6 address and two texts. -/
theorem cutPort_text_iff :
    (∃ b, fromIpPort Inet.numeric
        ((addrIn6 ⟨afInet6, htons 80, 0, #v[0x2001, 0xdb8, 1, 2, 3, 4, 5, 6], 0⟩).toString
          Inet.numeric) = .ok b
        ∧ (b == addrIn6 ⟨afInet6, htons 80, 0, #v[0x2001, 0xdb8, 1, 2, 3, 4, 5, 6], 0⟩) = true)
      ∧ (PortRight Inet.numeric cutPort ↔ PlainPort Inet.numeric cutPort)
      ∧ (PlainPort Inet.numeric cutPort → PlainPort Inet.numeric samePort →
        ∀ b c, fromIpPort Inet.numeric cutPort = .ok b →
        fromIpPort Inet.numeric samePort = .ok c → (b == c) = true →
        decimal (portText cutPort) = decimal (portText samePort)) :=
  text_iff Inet.numeric_documented _ cutPort samePort

end NetAddress
