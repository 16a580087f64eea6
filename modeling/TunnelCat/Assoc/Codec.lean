import TunnelCat.Assoc.Header

/-!
# The codec of the header

`buildSOCKS5UDPHeader` writes an address as four bytes if it is an IPv4 address in either of its two
forms, and as sixteen bytes otherwise; `parseSOCKS5UDPHeader` keeps the four or sixteen bytes it
finds.  So the two are inverse to each other except for the form of an IPv4 address: the parser
returns the four-byte form of what was written, and a packet whose sixteen bytes are an IPv4 address
is not the one that is written for it.

The two directions meet at `Literal`: a packet that consists of a literal address with its type, a
port and a payload.  Such packets are parsed (`parse_literal`), the builder writes one
(`build_literal`), and a packet with one of the two types is one if it is parsed
(`literal_of_parse`).

The parser of `Header.lean` is a total function.  `parseChecked` is the same function with index and
slice expressions that panic out of range, and `parseChecked_eq` says that none of them does: the
tests before each of them are enough, for a domain name too.
-/

set_option autoImplicit false

open Bytes

namespace TunnelCat.Assoc

variable (lookup : Lookup)

/-! ## Packets with a literal address -/

/-- An address that its type announces. -/
def Announces (atyp : UInt8) (ip : Bytes) : Prop :=
  atyp = atypIPv4 ∧ ip.length = 4 ∨ atyp = atypIPv6 ∧ ip.length = 16

/-- A packet with a literal address: two reserved bytes, fragment number and type, and then the
address, the port and the payload. -/
def Literal (pkt : Bytes) (r₀ r₁ frag atyp : UInt8) (dst : Addr) (payload : Bytes) : Prop :=
  Announces atyp dst.ip ∧ dst.port < 2 ^ 16 ∧
    pkt = [r₀, r₁, frag, atyp] ++ (dst.ip ++ (putUint16 (UInt16.ofNat dst.port) ++ payload))

variable {lookup}

theorem drop_four (r₀ r₁ frag atyp : UInt8) (rest : Bytes) :
    ([r₀, r₁, frag, atyp] ++ rest).drop 4 = rest := rfl

variable {r₀ r₁ frag atyp : UInt8} {dst : Addr} {pkt payload : Bytes}

/-- What the parser makes of an address that is there in full. -/
theorem parseAddress_literal {ip rest : Bytes} (hip : Announces atyp ip) :
    parseAddress lookup ([r₀, r₁, frag, atyp] ++ (ip ++ rest)) atyp = .ok (ip, 4 + ip.length) := by
  have hcut : (([r₀, r₁, frag, atyp] ++ (ip ++ rest)).drop 4).take ip.length = ip := by
    rw [drop_four, List.take_left]
  have hlen : 4 + ip.length ≤ ([r₀, r₁, frag, atyp] ++ (ip ++ rest)).length := by
    simp only [List.length_append, List.length_cons, List.length_nil]
    omega
  rw [parseAddress]
  rcases hip with ⟨rfl, hip⟩ | ⟨rfl, hip⟩
  · rw [hip] at hcut hlen ⊢
    rw [if_pos rfl, if_neg (by omega), hcut]
  · rw [hip] at hcut hlen ⊢
    rw [if_neg (by decide), if_pos rfl, if_neg (by omega), hcut]

/-- A packet with a literal address is parsed. -/
theorem parse_literal (h : Literal pkt r₀ r₁ frag atyp dst payload) :
    parseSOCKS5UDPHeader lookup pkt = .ok (dst, payload, frag) := by
  obtain ⟨hip, hport, rfl⟩ := h
  have hdrop : ([r₀, r₁, frag, atyp] ++ (dst.ip ++ (putUint16 (UInt16.ofNat dst.port) ++
      payload))).drop (4 + dst.ip.length) = putUint16 (UInt16.ofNat dst.port) ++ payload := by
    rw [← List.drop_drop, drop_four, List.drop_left]
  rw [parseSOCKS5UDPHeader, if_neg (by simp only [List.length_append, List.length_cons]; omega)]
  have hfrag : ([r₀, r₁, frag, atyp] ++ (dst.ip ++ (putUint16 (UInt16.ofNat dst.port) ++
      payload))).getD 2 0 = frag := rfl
  have hatyp : ([r₀, r₁, frag, atyp] ++ (dst.ip ++ (putUint16 (UInt16.ofNat dst.port) ++
      payload))).getD 3 0 = atyp := rfl
  dsimp only
  rw [hfrag, hatyp, parseAddress_literal hip]
  dsimp only
  rw [if_neg, hdrop, uint16_putUint16, ← List.drop_drop, hdrop,
    List.drop_left' (length_putUint16 _), UInt16.toNat_ofNat_of_lt' hport]
  simp only [List.length_append, List.length_cons, List.length_nil, length_putUint16]
  omega

/-- What the parser makes of an address that is announced: it is there in full, or an error. -/
theorem announces_of_parseAddress {rest ip : Bytes} {o : ℕ}
    (hatyp : atyp = atypIPv4 ∨ atyp = atypIPv6)
    (h : parseAddress lookup ([r₀, r₁, frag, atyp] ++ rest) atyp = .ok (ip, o)) :
    Announces atyp ip ∧ o = 4 + ip.length ∧ rest = ip ++ rest.drop ip.length := by
  have hcut : ∀ n, ([r₀, r₁, frag, atyp] ++ rest).length = 4 + rest.length ∧
      (([r₀, r₁, frag, atyp] ++ rest).drop 4).take n = rest.take n := by
    intro n
    rw [List.length_append, drop_four]
    exact ⟨rfl, rfl⟩
  rw [parseAddress, (hcut 4).1, (hcut 4).2, (hcut 16).2] at h
  rcases hatyp with rfl | rfl
  · rw [if_pos rfl] at h
    split at h
    · cases h
    · cases h
      have hlen : (rest.take 4).length = 4 := List.length_take_of_le (by omega)
      rw [hlen]
      exact ⟨.inl ⟨rfl, hlen⟩, rfl, (List.take_append_drop 4 rest).symm⟩
  · rw [if_neg (by decide), if_pos rfl] at h
    split at h
    · cases h
    · cases h
      have hlen : (rest.take 16).length = 16 := List.length_take_of_le (by omega)
      rw [hlen]
      exact ⟨.inr ⟨rfl, hlen⟩, rfl, (List.take_append_drop 16 rest).symm⟩

/-- A packet of one of the two types, if it is parsed, has a literal address. -/
theorem literal_of_parse {rest payload : Bytes} {r₀ r₁ frag frag' atyp : UInt8}
    (hatyp : atyp = atypIPv4 ∨ atyp = atypIPv6)
    (h : parseSOCKS5UDPHeader lookup ([r₀, r₁, frag, atyp] ++ rest) = .ok (dst, payload, frag')) :
    Literal ([r₀, r₁, frag, atyp] ++ rest) r₀ r₁ frag atyp dst payload := by
  rw [parseSOCKS5UDPHeader] at h
  split at h
  · cases h
  have hatyp3 : ([r₀, r₁, frag, atyp] ++ rest).getD 3 0 = atyp := rfl
  rw [hatyp3] at h
  dsimp only at h
  split at h
  · cases h
  · rename_i ip o haddr
    obtain ⟨hip, rfl, hrest⟩ := announces_of_parseAddress hatyp haddr
    split at h
    · cases h
    · rename_i hport
      cases h
      set tail := rest.drop ip.length with htail
      have hdrop : ([r₀, r₁, frag, atyp] ++ rest).drop (4 + ip.length) = tail := by
        rw [← List.drop_drop, drop_four]
      have htwo : 2 ≤ tail.length := by
        rw [htail, List.length_drop]
        rw [List.length_append] at hport
        have hfour : [r₀, r₁, frag, atyp].length = 4 := rfl
        omega
      refine ⟨hip, (uint16 _).toNat_lt, ?_⟩
      rw [hdrop, ← List.drop_drop, hdrop, UInt16.ofNat_toNat]
      have hput : putUint16 (uint16 tail) = tail.take 2 := by
        have hlen : (tail.take 2).length = 2 := List.length_take_of_le htwo
        rw [← putUint16_uint16 hlen, uint16, uint16, List.take_take]
        rfl
      rw [hput, List.take_append_drop, ← hrest]

/-! ## Writing -/

/-- The address that is written for another: an IPv4 address in its four-byte form. -/
def Addr.canonical (a : Addr) : Addr := ⟨(to4 a.ip).getD a.ip, a.port⟩

theorem length_of_to4 {ip ip4 : Bytes} (h : to4 ip = some ip4) : ip4.length = 4 := by
  rw [to4] at h
  split at h
  · rename_i hfour
    cases h
    exact hfour
  · split at h
    · rename_i hmapped
      cases h
      rw [List.length_drop, hmapped.1]
    · cases h

theorem to4_of_length_four {ip : Bytes} (h : ip.length = 4) : to4 ip = some ip := if_pos h

/-- The builder writes a packet with a literal address. -/
theorem build_literal {src : Addr} (hip : src.ip.length = 4 ∨ src.ip.length = 16)
    (hport : src.port < 2 ^ 16) (payload : Bytes) :
    ∃ atyp, Literal (buildSOCKS5UDPHeader src payload) 0 0 0 atyp src.canonical payload := by
  rw [buildSOCKS5UDPHeader, Addr.canonical]
  cases hfour : to4 src.ip with
  | some ip4 =>
    refine ⟨atypIPv4, .inl ⟨rfl, length_of_to4 hfour⟩, hport, ?_⟩
    simp only [List.append_assoc]
    rfl
  | none =>
    have hsixteen : src.ip.length = 16 := hip.resolve_left fun h ↦ by
      rw [to4_of_length_four h] at hfour
      cases hfour
    have hto16 : to16 src.ip = some src.ip := by
      rw [to16, if_neg (by omega), if_pos hsixteen]
    refine ⟨atypIPv6, .inr ⟨rfl, hsixteen⟩, hport, ?_⟩
    rw [hto16]
    simp only [List.append_assoc]
    rfl

/-- The builder writes a packet without a fragment number again, unless its sixteen bytes are an
IPv4 address. -/
theorem build_of_literal {atyp : UInt8} (h : Literal pkt 0 0 0 atyp dst payload)
    (hmapped : atyp = atypIPv6 → to4 dst.ip = none) :
    buildSOCKS5UDPHeader dst payload = pkt := by
  obtain ⟨hip, -, rfl⟩ := h
  rw [buildSOCKS5UDPHeader]
  rcases hip with ⟨rfl, hfour⟩ | ⟨rfl, hsixteen⟩
  · rw [to4_of_length_four hfour]
    simp only [List.append_assoc]
  · rw [hmapped rfl, to16, if_neg (by omega), if_pos hsixteen]
    simp only [List.append_assoc]
    rfl

/-! ## What is read -/

variable (lookup) in
/-- The address in a header, with index and slice expressions that panic out of range. -/
def parseAddressChecked (pkt : Bytes) (atyp : UInt8) : Outcome (Except HeaderError (Bytes × ℕ)) :=
  let o := 4
  if atyp = atypIPv4 then
    if pkt.length < o + 4 then .ok (.error .truncatedIPv4)
    else (Outcome.slice pkt o (o + 4)).bind fun ip ↦ .ok (.ok (ip, o + 4))
  else if atyp = atypIPv6 then
    if pkt.length < o + 16 then .ok (.error .truncatedIPv6)
    else (Outcome.slice pkt o (o + 16)).bind fun ip ↦ .ok (.ok (ip, o + 16))
  else if atyp = atypDomain then
    if pkt.length < o + 1 then .ok (.error .truncatedDomainLength)
    else
      (Outcome.index pkt o).bind fun dlen ↦
        let o := o + 1
        if pkt.length < o + dlen.toNat then .ok (.error .truncatedDomain)
        else
          (Outcome.slice pkt o (o + dlen.toNat)).bind fun host ↦
            match lookup host with
            | .ok (ip :: _) => .ok (.ok (ip, o + dlen.toNat))
            | .ok [] => .ok (.error (.resolve host none))
            | .error rerr => .ok (.error (.resolve host (some rerr)))
  else .ok (.error (.unknownAtyp atyp))

variable (lookup) in
/-- `parseSOCKS5UDPHeader`, with index and slice expressions that panic out of range. -/
def parseChecked (pkt : Bytes) : Outcome (Except HeaderError (Addr × Bytes × UInt8)) :=
  if pkt.length < 4 then .ok (.error .tooShort)
  else
    (Outcome.index pkt 2).bind fun frag ↦
      (Outcome.index pkt 3).bind fun atyp ↦
        (parseAddressChecked lookup pkt atyp).bind fun
          | .error err => .ok (.error err)
          | .ok (ip, o) =>
            if pkt.length < o + 2 then .ok (.error .truncatedPort)
            else
              (Outcome.slice pkt o (o + 2)).bind fun port ↦
                (Outcome.slice pkt (o + 2) pkt.length).bind fun payload ↦
                  .ok (.ok (⟨ip, (uint16 port).toNat⟩, payload, frag))

theorem parseAddressChecked_eq (pkt : Bytes) (atyp : UInt8) :
    parseAddressChecked lookup pkt atyp = .ok (parseAddress lookup pkt atyp) := by
  rw [parseAddressChecked, parseAddress]
  dsimp only
  split
  · split
    · rfl
    · rw [Outcome.slice_of_le (by omega) (by omega)]
      rfl
  split
  · split
    · rfl
    · rw [Outcome.slice_of_le (by omega) (by omega)]
      rfl
  split
  · split
    · rfl
    · rw [Outcome.index_of_lt (by omega) 0, Outcome.ok_bind]
      split
      · rfl
      · rw [Outcome.slice_of_le (by omega) (by omega), Outcome.ok_bind, Nat.add_sub_cancel_left]
        rcases lookup ((pkt.drop (4 + 1)).take (pkt.getD 4 0).toNat) with rerr | (_ | ⟨ip, ips⟩)
        · rfl
        · rfl
        · rfl
  · rfl

/-- **The parser never reads past the end of a packet.** -/
theorem parseChecked_eq (pkt : Bytes) :
    parseChecked lookup pkt = .ok (parseSOCKS5UDPHeader lookup pkt) := by
  rw [parseChecked, parseSOCKS5UDPHeader]
  split
  · rfl
  dsimp only
  rw [Outcome.index_of_lt (by omega) 0, Outcome.ok_bind, Outcome.index_of_lt (by omega) 0,
    Outcome.ok_bind, parseAddressChecked_eq, Outcome.ok_bind]
  cases parseAddress lookup pkt (pkt.getD 3 0) with
  | error err => rfl
  | ok p =>
    obtain ⟨ip, o⟩ := p
    dsimp only
    split
    · rfl
    · have hpayload : (pkt.drop (o + 2)).take (pkt.length - (o + 2)) = pkt.drop (o + 2) :=
        List.take_of_length_le (by rw [List.length_drop])
      rw [Outcome.slice_of_le (by omega) (by omega), Outcome.ok_bind,
        Outcome.slice_of_le (by omega) le_rfl, Outcome.ok_bind, Nat.add_sub_cancel_left, hpayload,
        uint16, List.take_take]
      rfl

/-! ## The result -/

/-- **The codec of the header is exact.**  What is written for a source is parsed to the same
address, the same port and the same payload; a packet with reserved bytes and fragment number zero
and a literal address that is not an IPv4 address in sixteen bytes is written again as it was; and
parsing stays within the packet. -/
theorem socksHeader_exact (lookup : Lookup) :
    (∀ (src : Addr) (payload : Bytes), src.ip.length = 4 ∨ src.ip.length = 16 →
      src.port ≤ 65535 →
      parseSOCKS5UDPHeader lookup (buildSOCKS5UDPHeader src payload) =
        .ok (src.canonical, payload, 0) ∧ src.canonical.key = src.key ∧
        (to4 src.ip = none ∨ src.ip.length = 4 → src.canonical = src)) ∧
    (∀ (pkt : Bytes) (dst : Addr) (payload : Bytes) (frag : UInt8),
      pkt.take 3 = [0, 0, 0] →
      (pkt[3]? = some atypIPv4 ∨
        pkt[3]? = some atypIPv6 ∧ to4 ((pkt.drop 4).take 16) = none) →
      parseSOCKS5UDPHeader lookup pkt = .ok (dst, payload, frag) →
      buildSOCKS5UDPHeader dst payload = pkt) ∧
    (∀ pkt : Bytes, parseChecked lookup pkt = .ok (parseSOCKS5UDPHeader lookup pkt)) := by
  refine ⟨?_, ?_, parseChecked_eq⟩
  · intro src payload hip hport
    obtain ⟨atyp, hlit⟩ := build_literal hip (by omega) payload
    refine ⟨parse_literal hlit, ?_, ?_⟩
    · rw [Addr.key, Addr.key, Addr.canonical]
      cases hfour : to4 src.ip with
      | some ip4 =>
        dsimp only [Option.getD_some]
        rw [to4_of_length_four (length_of_to4 hfour), Option.getD_some]
      | none =>
        dsimp only [Option.getD_none]
        rw [hfour, Option.getD_none]
    · intro h
      rw [Addr.canonical]
      rcases h with h | h
      · rw [h, Option.getD_none]
      · rw [to4_of_length_four h, Option.getD_some]
  · intro pkt dst payload frag hzero hatyp h
    have hsplit : pkt = [0, 0, 0] ++ pkt.drop 3 := by rw [← hzero, List.take_append_drop]
    cases hdrop : pkt.drop 3 with
    | nil =>
      rw [hdrop] at hsplit
      subst hsplit
      rcases hatyp with hatyp | ⟨hatyp, -⟩
      · cases hatyp
      · cases hatyp
    | cons atyp rest =>
      obtain rfl : pkt = [0, 0, 0, atyp] ++ rest := by rw [hsplit, hdrop]; rfl
      rcases hatyp with hatyp | ⟨hatyp, hmapped⟩
      · cases hatyp
        exact build_of_literal (literal_of_parse (.inl rfl) h) fun h6 ↦ absurd h6 (by decide)
      · cases hatyp
        have hlit := literal_of_parse (.inr rfl) h
        refine build_of_literal hlit fun _ ↦ ?_
        obtain ⟨hip, -, heq⟩ := hlit
        have hlen := (hip.resolve_left fun h4 ↦ absurd h4.1 (by decide)).2
        rw [heq, drop_four, List.take_left' hlen] at hmapped
        exact hmapped

/-- An IPv4 address in its sixteen-byte form comes back in its four-byte form. -/
theorem socksHeader_exact_mapped :
    parseSOCKS5UDPHeader (fun _ ↦ .ok [])
        (buildSOCKS5UDPHeader ⟨v4InV6Prefix ++ [192, 0, 2, 1], 53⟩ [7]) =
      .ok (⟨[192, 0, 2, 1], 53⟩, [7], 0) :=
  ((socksHeader_exact fun _ ↦ .ok []).1 ⟨v4InV6Prefix ++ [192, 0, 2, 1], 53⟩ [7] (by decide)
    (by decide)).1

end TunnelCat.Assoc
