import TunnelCat.Tunnel.Frame

/-!
# Headers of relayed datagrams

Between a SOCKS5 client and its relay every datagram carries a header (RFC 1928, section 7): two
reserved bytes, a fragment number, the type of an address, the address and a port.  The client's
header names the destination of the datagram; the one that the relay puts in front of a datagram for
the client names its source.

An address may be given as the name of a host.  What it resolves to is not up to the program, so the
parser takes the answer of `net.LookupHost` as an argument.
-/

set_option autoImplicit false

open Bytes

namespace TunnelCat.Assoc

/-- `net.UDPAddr`, without a zone. -/
structure Addr where
  /-- Four or sixteen bytes, or none at all. -/
  ip : Bytes
  /-- The port. -/
  port : ℕ
  deriving DecidableEq, Repr

/-- What the sixteen-byte form of an IPv4 address begins with. -/
def v4InV6Prefix : Bytes := List.replicate 10 0 ++ [255, 255]

/-- `IP.To4`. -/
def to4 (ip : Bytes) : Option Bytes :=
  if ip.length = 4 then some ip
  else if ip.length = 16 ∧ ip.take 12 = v4InV6Prefix then some (ip.drop 12)
  else none

/-- `IP.To16`. -/
def to16 (ip : Bytes) : Option Bytes :=
  if ip.length = 4 then some (v4InV6Prefix ++ ip)
  else if ip.length = 16 then some ip
  else none

/-- What an address is a key under.  The program uses `UDPAddr.String` for it, which tells apart two
addresses exactly if this does. -/
def Addr.key (a : Addr) : Bytes × ℕ := ((to4 a.ip).getD a.ip, a.port)

/-- `isLANAddress`, of an IPv4 address: loopback, link-local or private. -/
def isLANAddress (ip4 : Bytes) : Bool :=
  match ip4 with
  | a :: b :: _ =>
    a = 127 || (a = 169 && b = 254) ||
      (a = 10 || (a = 172 && b &&& 0xf0 = 16) || (a = 192 && b = 168))
  | _ => false

/-- `atypIPv4`. -/
def atypIPv4 : UInt8 := 0x01

/-- `atypDomain`. -/
def atypDomain : UInt8 := 0x03

/-- `atypIPv6`. -/
def atypIPv6 : UInt8 := 0x04

/-- The errors of `parseSOCKS5UDPHeader`. -/
inductive HeaderError where
  /-- The text is `udp header too short`. -/
  | tooShort
  /-- The text is `truncated IPv4`. -/
  | truncatedIPv4
  /-- The text is `truncated IPv6`. -/
  | truncatedIPv6
  /-- The text is `truncated domain length`. -/
  | truncatedDomainLength
  /-- The text is `truncated domain`. -/
  | truncatedDomain
  /-- The text is `resolve`, the host, a colon and the error, if there is one. -/
  | resolve (host : Bytes) (rerr : Option String)
  /-- The text is `unknown atyp` and the type in hexadecimal. -/
  | unknownAtyp (atyp : UInt8)
  /-- The text is `truncated port`. -/
  | truncatedPort
  deriving DecidableEq

/-- `net.LookupHost`, with the addresses as `net.ParseIP` reads them. -/
abbrev Lookup : Type := Bytes → Except String (List Bytes)

/-- The address in a header, and where it ends. -/
def parseAddress (lookup : Lookup) (pkt : Bytes) (atyp : UInt8) : Except HeaderError (Bytes × ℕ) :=
  let o := 4
  if atyp = atypIPv4 then
    if pkt.length < o + 4 then .error .truncatedIPv4 else .ok ((pkt.drop o).take 4, o + 4)
  else if atyp = atypIPv6 then
    if pkt.length < o + 16 then .error .truncatedIPv6 else .ok ((pkt.drop o).take 16, o + 16)
  else if atyp = atypDomain then
    if pkt.length < o + 1 then .error .truncatedDomainLength
    else
      let dlen := (pkt.getD o 0).toNat
      let o := o + 1
      if pkt.length < o + dlen then .error .truncatedDomain
      else
        let host := (pkt.drop o).take dlen
        match lookup host with
        | .ok (ip :: _) => .ok (ip, o + dlen)
        | .ok [] => .error (.resolve host none)
        | .error rerr => .error (.resolve host (some rerr))
  else .error (.unknownAtyp atyp)

/-- `parseSOCKS5UDPHeader`: the destination, the payload and the fragment number. -/
def parseSOCKS5UDPHeader (lookup : Lookup) (pkt : Bytes) :
    Except HeaderError (Addr × Bytes × UInt8) :=
  if pkt.length < 4 then .error .tooShort
  else
    let frag := pkt.getD 2 0
    let atyp := pkt.getD 3 0
    match parseAddress lookup pkt atyp with
    | .error err => .error err
    | .ok (ip, o) =>
      if pkt.length < o + 2 then .error .truncatedPort
      else .ok (⟨ip, (uint16 (pkt.drop o)).toNat⟩, pkt.drop (o + 2), frag)

/-- `buildSOCKS5UDPHeader`. -/
def buildSOCKS5UDPHeader (src : Addr) (payload : Bytes) : Bytes :=
  match to4 src.ip with
  | some ip4 => [0, 0, 0, atypIPv4] ++ ip4 ++ putUint16 (UInt16.ofNat src.port) ++ payload
  | none =>
    [0, 0, 0, atypIPv6] ++ (to16 src.ip).getD (List.replicate 16 0) ++
      putUint16 (UInt16.ofNat src.port) ++ payload

end TunnelCat.Assoc
