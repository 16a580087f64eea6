import TunnelCat.Assoc.Header
import TunnelCat.Lib.AddrText

/-!
# Requests of SOCKS5 clients

`SOCKS5Server.handle` reads the greeting and the request of a client, and turns the address of the
request into a text: an IPv4 address as it is written, an IPv6 address in brackets, the name of a
host as it was sent, and the port after a colon.  Whatever is decided about the request later is
decided by taking this text apart again with `net.SplitHostPort`; the first such decision is to
refuse the ports of BitTorrent.

A name may be any 255 bytes.  `target_fidelity_iff` says when the text comes apart as it was put
together: always for addresses, and for names exactly if they have no colon and no bracket.  A name
with a colon makes an error of it, and an error means here that the port is not refused; the
same theorem has the exact condition.  `bitTorrent_passes` is such a request.

What the client sends is a list of bytes, and `handle` returns what it has written and what it goes
on with.  Names are bytes, as they are in Go.
-/

set_option autoImplicit false

open Bytes AddrText

namespace TunnelCat.Socks

/-! ## The server -/

/-- `socks5Version`. -/
def socks5Version : UInt8 := 0x05

/-- `authNone`. -/
def authNone : UInt8 := 0x00

/-- `authNoAccept`. -/
def authNoAccept : UInt8 := 0xFF

/-- `cmdConnect`. -/
def cmdConnect : UInt8 := 0x01

/-- `cmdUDPAssoc`. -/
def cmdUDPAssoc : UInt8 := 0x03

/-- `repCmdNotSupp`. -/
def repCmdNotSupp : UInt8 := 0x07

/-- `repGenFail`. -/
def repGenFail : UInt8 := 0x01

/-- `bitTorrentPorts`. -/
def bitTorrentPorts : List ℕ :=
  [6881, 6882, 6883, 6884, 6885, 6886, 6887, 6888, 6889, 6969, 51413]

/-- `IP.String`, of four or sixteen bytes. -/
def ipString (ip : Bytes) : Bytes :=
  match Assoc.to4 ip with
  | some ip4 => ipv4Text ip4
  | none => ipv6Text ip

/-- `isBitTorrentPort`. -/
def isBitTorrentPort (target : Bytes) : Bool :=
  match HostPort.splitHostPort Marks.bytes target with
  | .error _ => false
  | .ok (_, portStr) =>
    match parseUint16 portStr with
    | none => false
    | some p => p ∈ bitTorrentPorts

/-- `io.ReadFull` of `n` bytes: the bytes and what follows them. -/
def readFull (n : ℕ) (input : Bytes) : Option (Bytes × Bytes) :=
  if input.length < n then none else some (input.take n, input.drop n)

/-- `sendSOCKS5Reply`. -/
def socks5Reply (rep : UInt8) : Bytes :=
  [socks5Version, rep, 0x00, Assoc.atypIPv4, 0, 0, 0, 0, 0, 0]

/-- What the server goes on with. -/
inductive Next where
  /-- The connection is closed. -/
  | close
  /-- `handleConnect`. -/
  | connect (target : Bytes)
  /-- `handleUDPAssoc`. -/
  | udpAssoc (target : Bytes)
  deriving DecidableEq, Repr

/-- What has been written to the client, and what happens next. -/
structure Handled where
  /-- What has been written. -/
  written : List Bytes
  /-- What happens next. -/
  next : Next
  deriving DecidableEq, Repr

/-- The address of the request as text, and what follows it.  `none` is a type that is not known,
and `some none` is that the client has not sent enough. -/
def readAddr (atyp : UInt8) (input : Bytes) : Option (Option (Bytes × Bytes)) :=
  if atyp = Assoc.atypIPv4 then
    some ((readFull 4 input).map fun (addr, rest) ↦ (ipString addr, rest))
  else if atyp = Assoc.atypIPv6 then
    some ((readFull 16 input).map fun (addr, rest) ↦ ([91] ++ ipString addr ++ [93], rest))
  else if atyp = Assoc.atypDomain then
    some ((readFull 1 input).bind fun (lenBuf, rest) ↦ readFull (lenBuf.headD 0).toNat rest)
  else none

/-- The request, after the greeting has been answered. -/
def handleRequest (input : Bytes) : List Bytes × Next :=
  match readFull 4 input with
  | none => ([], .close)
  | some (reqHdr, input) =>
    if reqHdr.headD 0 ≠ socks5Version then ([], .close)
    else
      match readAddr (reqHdr.getD 3 0) input with
      | none => ([socks5Reply repGenFail], .close)
      | some none => ([], .close)
      | some (some (target, input)) =>
        match readFull 2 input with
        | none => ([], .close)
        | some (portBuf, _) =>
          let target := target ++ 58 :: decimal (uint16 portBuf).toNat
          if reqHdr.getD 1 0 = cmdConnect then ([], .connect target)
          else if reqHdr.getD 1 0 = cmdUDPAssoc then ([], .udpAssoc target)
          else ([socks5Reply repCmdNotSupp], .close)

/-- `handle`. -/
def handle (input : Bytes) : Handled :=
  match readFull 2 input with
  | none => ⟨[], .close⟩
  | some (hdr, input) =>
    if hdr.headD 0 ≠ socks5Version then ⟨[], .close⟩
    else
      match readFull (hdr.getD 1 0).toNat input with
      | none => ⟨[], .close⟩
      | some (methods, input) =>
        if authNone ∉ methods then ⟨[[socks5Version, authNoAccept]], .close⟩
        else
          let (written, next) := handleRequest input
          ⟨[socks5Version, authNone] :: written, next⟩

/-- `handleConnect`, as far as the port is concerned: what is written if the request is refused. -/
def refusal (target : Bytes) : Option Bytes :=
  if isBitTorrentPort target then some (socks5Reply repGenFail) else none

/-! ## Requests -/

/-- The address of a request. -/
inductive Host where
  /-- Four bytes. -/
  | ipv4 (ip : Vector UInt8 4)
  /-- Sixteen bytes. -/
  | ipv6 (ip : Vector UInt8 16)
  /-- A name. -/
  | domain (name : Bytes) (h : name.length < 256)

/-- The host that is requested, as text. -/
def Host.text : Host → Bytes
  | .ipv4 ip => ipString ip.toList
  | .ipv6 ip => ipString ip.toList
  | .domain name _ => name

/-- Type and bytes of the address. -/
def Host.encode : Host → UInt8 × Bytes
  | .ipv4 ip => (Assoc.atypIPv4, ip.toList)
  | .ipv6 ip => (Assoc.atypIPv6, ip.toList)
  | .domain name _ => (Assoc.atypDomain, UInt8.ofNat name.length :: name)

/-- A request to connect, with the greeting before it. -/
structure Request where
  /-- The ways to authenticate that are offered. -/
  methods : Bytes
  /-- There are at most 255. -/
  length_methods : methods.length < 256
  /-- No authentication is one of them. -/
  none_mem : authNone ∈ methods
  /-- The reserved byte. -/
  reserved : UInt8
  /-- The host. -/
  host : Host
  /-- The port. -/
  port : UInt16

/-- What the client sends. -/
def Request.encode (r : Request) : Bytes :=
  [socks5Version, UInt8.ofNat r.methods.length] ++ r.methods ++
    ([socks5Version, cmdConnect, r.reserved, r.host.encode.1] ++ r.host.encode.2 ++
      putUint16 r.port)

/-- The text of the host in the target. -/
def Host.inTarget : Host → Bytes
  | .ipv6 ip => [91] ++ ipString ip.toList ++ [93]
  | host => host.text

/-- The target that is made of a request. -/
def Request.target (r : Request) : Bytes := r.host.inTarget ++ 58 :: decimal r.port.toNat

/-! ## What the server reads -/

theorem readFull_append {n : ℕ} {xs : Bytes} (h : xs.length = n) (rest : Bytes) :
    readFull n (xs ++ rest) = some (xs, rest) := by
  rw [readFull, if_neg (by rw [List.length_append]; omega), List.take_left' h, List.drop_left' h]

theorem readAddr_encode (host : Host) (rest : Bytes) :
    readAddr host.encode.1 (host.encode.2 ++ rest) = some (some (host.inTarget, rest)) := by
  cases host with
  | ipv4 ip =>
    have hread : readFull 4 (ip.toList ++ rest) = _ := readFull_append (by simp) rest
    simp only [readAddr, Host.encode, if_true, hread, Option.map_some, Host.inTarget, Host.text]
  | ipv6 ip =>
    have hread : readFull 16 (ip.toList ++ rest) = _ := readFull_append (by simp) rest
    have hne : Assoc.atypIPv6 ≠ Assoc.atypIPv4 := by decide
    simp only [readAddr, Host.encode, if_neg hne, if_true, hread, Option.map_some, Host.inTarget]
  | domain name h =>
    have hlen : (UInt8.ofNat name.length).toNat = name.length := by
      rw [UInt8.toNat_ofNat', Nat.mod_eq_of_lt h]
    have hfirst : readFull 1 ([UInt8.ofNat name.length] ++ (name ++ rest)) = _ :=
      readFull_append rfl _
    rw [List.singleton_append, ← List.cons_append] at hfirst
    have hread : readFull name.length (name ++ rest) = _ := readFull_append rfl rest
    have hne4 : Assoc.atypDomain ≠ Assoc.atypIPv4 := by decide
    have hne6 : Assoc.atypDomain ≠ Assoc.atypIPv6 := by decide
    simp only [readAddr, Host.encode, if_neg hne4, if_neg hne6, if_true, hfirst, Option.bind_some,
      List.headD_cons, hlen, hread, Host.inTarget, Host.text]

/-- **The server connects to the target of the request.** -/
theorem handle_encode (r : Request) (rest : Bytes) :
    handle (r.encode ++ rest) = ⟨[[socks5Version, authNone]], .connect r.target⟩ := by
  have hlen : (UInt8.ofNat r.methods.length).toNat = r.methods.length := by
    rw [UInt8.toNat_ofNat', Nat.mod_eq_of_lt r.length_methods]
  have hport : uint16 (putUint16 r.port) = r.port := by
    have h := uint16_putUint16 r.port []
    rwa [List.append_nil] at h
  have hrequest : handleRequest ([socks5Version, cmdConnect, r.reserved, r.host.encode.1] ++
      (r.host.encode.2 ++ (putUint16 r.port ++ rest))) = ([], .connect r.target) := by
    have hhdr : readFull 4 ([socks5Version, cmdConnect, r.reserved, r.host.encode.1] ++
        (r.host.encode.2 ++ (putUint16 r.port ++ rest))) = _ := readFull_append rfl _
    simp only [handleRequest, hhdr, List.headD_cons, ne_eq, not_true_eq_false, if_false,
      List.getD_cons_succ, List.getD_cons_zero, readAddr_encode,
      readFull_append (length_putUint16 r.port), hport, if_true, Request.target]
  have hinput : r.encode ++ rest = [socks5Version, UInt8.ofNat r.methods.length] ++ (r.methods ++
      ([socks5Version, cmdConnect, r.reserved, r.host.encode.1] ++
        (r.host.encode.2 ++ (putUint16 r.port ++ rest)))) := by
    simp only [Request.encode, List.append_assoc]
  have hgreet : readFull 2 ([socks5Version, UInt8.ofNat r.methods.length] ++ (r.methods ++
      ([socks5Version, cmdConnect, r.reserved, r.host.encode.1] ++
        (r.host.encode.2 ++ (putUint16 r.port ++ rest))))) = _ := readFull_append rfl _
  rw [hinput]
  simp only [handle, hgreet, List.headD_cons, ne_eq, not_true_eq_false, if_false,
    List.getD_cons_succ, List.getD_cons_zero, hlen, readFull_append, r.none_mem, hrequest]

/-! ## What becomes of the target -/

/-- A name that comes apart as it was put together, or any address. -/
def Host.Plain : Host → Prop
  | .domain name _ => Marks.bytes.Free name
  | _ => True

/-- A name that comes apart at all, or any address. -/
def Host.Splits : Host → Prop
  | .domain name _ => Marks.bytes.Free name ∨
      ∃ inner, name = (91 : UInt8) :: inner ++ [93] ∧ NoBrackets inner
  | _ => True

theorem ipString_of_length_four {ip : Bytes} (h : ip.length = 4) : ipString ip = ipv4Text ip := by
  rw [ipString, Assoc.to4, if_pos h]

theorem noBrackets_ipString (ip : Bytes) : NoBrackets (ipString ip) := by
  rw [ipString]
  split
  · exact (free_ipv4Text _).2
  · exact noBrackets_ipv6Text ip

/-- How the target comes apart. -/
theorem splitHostPort_target (r : Request) (res : Bytes × Bytes) :
    HostPort.splitHostPort Marks.bytes r.target = .ok res ↔
      (Marks.bytes.Free r.host.inTarget ∧ res = (r.host.inTarget, decimal r.port.toNat)) ∨
      ∃ inner, r.host.inTarget = (91 : UInt8) :: inner ++ [93] ∧ (91 : UInt8) ∉ inner ∧
        (93 : UInt8) ∉ inner ∧ res = (inner, decimal r.port.toNat) :=
  HostPort.splitHostPort_append (free_decimal r.port.toNat)

theorem inTarget_plain {host : Host} (h : host.Plain) :
    (Marks.bytes.Free host.inTarget ∧ host.text = host.inTarget) ∨
      host.inTarget = (91 : UInt8) :: host.text ++ [93] ∧ NoBrackets host.text := by
  cases host with
  | ipv4 ip =>
    refine .inl ⟨?_, rfl⟩
    change Marks.bytes.Free (ipString ip.toList)
    rw [ipString_of_length_four (by simp)]
    exact free_ipv4Text _
  | ipv6 ip => exact .inr ⟨rfl, noBrackets_ipString _⟩
  | domain name hlen => exact .inl ⟨h, rfl⟩

/-- The target comes apart as it was put together. -/
theorem splitHostPort_target_iff (r : Request) :
    HostPort.splitHostPort Marks.bytes r.target = .ok (r.host.text, decimal r.port.toNat) ↔
      r.host.Plain := by
  rw [splitHostPort_target]
  refine ⟨fun h ↦ ?_, fun h ↦ ?_⟩
  · cases hhost : r.host with
    | ipv4 ip => trivial
    | ipv6 ip => trivial
    | domain name hlen =>
      rw [hhost] at h
      rcases h with ⟨hfree, -⟩ | ⟨inner, hname, -, -, heq⟩
      · exact hfree
      · -- A name is not its own inner part.
        have hinner : inner.length = name.length := congrArg List.length (Prod.mk.inj heq).1.symm
        have hlength : name.length = _ := congrArg List.length hname
        rw [List.length_append, List.length_cons, List.length_singleton] at hlength
        omega
  · rcases inTarget_plain h with ⟨hfree, heq⟩ | ⟨heq, hno⟩
    · exact .inl ⟨hfree, by rw [heq]⟩
    · exact .inr ⟨r.host.text, heq, hno.1, hno.2, rfl⟩

theorem exists_split_iff (r : Request) :
    (∃ res, HostPort.splitHostPort Marks.bytes r.target = .ok res) ↔ r.host.Splits := by
  have hplain : r.host.Plain → ∃ res, HostPort.splitHostPort Marks.bytes r.target = .ok res :=
    fun h ↦ ⟨_, (splitHostPort_target_iff r).mpr h⟩
  cases hhost : r.host with
  | ipv4 ip =>
    rw [hhost] at hplain
    exact ⟨fun _ ↦ trivial, fun _ ↦ hplain trivial⟩
  | ipv6 ip =>
    rw [hhost] at hplain
    exact ⟨fun _ ↦ trivial, fun _ ↦ hplain trivial⟩
  | domain name hlen =>
    simp only [splitHostPort_target, hhost]
    refine ⟨?_, ?_⟩
    · rintro ⟨res, ⟨hfree, -⟩ | ⟨inner, hname, hopen, hclose, -⟩⟩
      · exact .inl hfree
      · exact .inr ⟨inner, hname, hopen, hclose⟩
    · rintro (hfree | ⟨inner, hname, hno⟩)
      · exact ⟨_, .inl ⟨hfree, rfl⟩⟩
      · exact ⟨_, .inr ⟨inner, hname, hno.1, hno.2, rfl⟩⟩

theorem isBitTorrentPort_target (r : Request) :
    isBitTorrentPort r.target = true ↔ r.port.toNat ∈ bitTorrentPorts ∧ r.host.Splits := by
  rw [← exists_split_iff]
  rw [isBitTorrentPort]
  split
  · rename_i e he
    refine ⟨fun h ↦ (nomatch h), fun ⟨_, res, hres⟩ ↦ ?_⟩
    rw [he] at hres
    cases hres
  · rename_i host portStr hok
    have hport : portStr = decimal r.port.toNat := by
      rcases (splitHostPort_target r _).mp hok with ⟨-, heq⟩ | ⟨inner, -, -, -, heq⟩
      · exact (Prod.mk.inj heq).2
      · exact (Prod.mk.inj heq).2
    rw [hport, parseUint16_decimal]
    dsimp only
    rw [decide_eq_true_eq]
    exact ⟨fun h ↦ ⟨h, _, hok⟩, fun h ↦ h.1⟩

/-- **What becomes of a request.**  The server goes on with the target; it comes apart into the host
and the port exactly if the host is an address, or a name without marks; and the request is refused
exactly if the port is one of BitTorrent and the target comes apart at all. -/
theorem target_fidelity_iff (r : Request) (rest : Bytes) :
    handle (r.encode ++ rest) = ⟨[[socks5Version, authNone]], .connect r.target⟩ ∧
    (HostPort.splitHostPort Marks.bytes r.target = .ok (r.host.text, decimal r.port.toNat) ↔
      r.host.Plain) ∧
    ((refusal r.target).isSome = true ↔ r.port.toNat ∈ bitTorrentPorts ∧ r.host.Splits) := by
  refine ⟨handle_encode r rest, splitHostPort_target_iff r, ?_⟩
  rw [← isBitTorrentPort_target, refusal]
  split
  · rename_i h
    exact ⟨fun _ ↦ h, fun _ ↦ rfl⟩
  · rename_i h
    exact ⟨fun h' ↦ (nomatch h'), fun h' ↦ absurd h' h⟩

/-- The name `::1` and a port of BitTorrent. -/
def demoRequest : Request where
  methods := [authNone]
  length_methods := by decide
  none_mem := by decide
  reserved := 0
  host := .domain [58, 58, 49] (by decide)
  port := 6881

/-- The target is `::1:6881`, which does not come apart, and the request is not refused. -/
theorem bitTorrent_passes :
    handle demoRequest.encode =
      ⟨[[socks5Version, authNone]], .connect [58, 58, 49, 58, 54, 56, 56, 49]⟩ ∧
    HostPort.splitHostPort Marks.bytes [58, 58, 49, 58, 54, 56, 56, 49] =
      .error .tooManyColons ∧
    refusal [58, 58, 49, 58, 54, 56, 56, 49] = none ∧ 6881 ∈ bitTorrentPorts := by
  decide +kernel

end TunnelCat.Socks
